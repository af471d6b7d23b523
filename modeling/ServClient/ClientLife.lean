/-
The life of an `XLClientThread`: `Start`, the listening thread, `Stop`.

`ServClient/ClientThread.lean` has the event thread, with a listening thread that may hand it
anything.  Here the listening thread is the one of the source, from its start in the handler of
`START_THREAD` to its end, and what `recv` answers is part of its step
(`ServClient/Listening.lean`).  One thread owns the client and calls `Start` and then `Stop`, as
`XLClient` does.

The handler of `START_THREAD` is in `XLSimpleThreads::Create` for two more steps, and the loop
does not go on before.  `START_THREAD` is posted once, so the listening thread is started once.
-/
import ServClient.ClientThread
import ServClient.Listening

namespace ServClient

/-- Where the listening thread is. -/
inductive ListenPc
  | off
  /-- In `RunSimpleThread`, before `m_Sync1.Take()`. -/
  | started
  /-- About to look at `m_handle`. -/
  | synced
  /-- In `RunProgram`; the socket is to be started. -/
  | connecting
  /-- About to look at `m_bExit`. -/
  | testing
  | receiving
  /-- In `OnListen`, whose `Put` is call `i`. -/
  | listening (i : Nat)
  /-- About to stop the socket. -/
  | closing
  /-- About to give `m_Sync2`. -/
  | leaving
  | ended
deriving DecidableEq, Repr

/-- How far `XLSimpleThreads::Create` is. -/
inductive ListenCreate
  | spawned
  /-- `m_handle` is assigned, `m_Sync1` is not given. -/
  | handled
deriving DecidableEq, Repr

/-- `m_DataListenTh`. -/
structure DataListenThread where
  object : XLListeningThread
  sync1 : XLSemaPhore
  sync2 : XLSemaPhore
  /-- `m_handle` is not null. -/
  handle : Bool
  creating : Option ListenCreate
  pc : ListenPc

namespace DataListenThread

/-- The listening thread as it is constructed. -/
def new (uninitEvent uninitStorage : Vector UInt8 maxMessLength) : DataListenThread where
  object := XLListeningThread.new uninitEvent uninitStorage
  sync1 := XLSemaPhore.new
  sync2 := XLSemaPhore.new
  handle := false
  creating := none
  pc := .off

/-- `Start` up to the start of the thread. -/
def start (d : DataListenThread) : DataListenThread :=
  if d.handle then d
  else
    { d with
      sync1 := d.sync1.create 0 1
      sync2 := d.sync2.create 0 1
      creating := some .spawned
      pc := .started }

/-- The `START_THREAD` branch, up to the start of the thread. -/
def startThread (d : DataListenThread) : DataListenThread :=
  { d with object := d.object.setListener }.start

/-- The rest of `XLSimpleThreads::Create`. -/
def createStep (d : DataListenThread) : Option DataListenThread :=
  match d.creating with
  | none => none
  | some .spawned => some { d with handle := true, creating := some .handled }
  | some .handled => some { d with sync1 := d.sync1.give, creating := none }

/-- `bExit` is set. -/
def setExit (d : DataListenThread) : DataListenThread :=
  { d with object := { d.object with bExit := true } }

end DataListenThread

/-- Where the owner is. -/
inductive ClientOwnerPc
  | fresh
  /-- In `XLEventThread::Create`. -/
  | creating
  /-- In the `Put` of `START_THREAD`. -/
  | posting (i : Nat)
  /-- `Start` has returned. -/
  | running
  /-- In `m_DataListenTh.Stop`: `m_bExit` is set, `m_handle` is to be looked at. -/
  | exiting
  /-- About to take `m_Sync2` of the listening thread. -/
  | taking
  | joining
  /-- `m_DataListenTh.Stop` has returned. -/
  | listenStopped
  /-- In `XLEventThread::Destroy`. -/
  | destroying
  | stopped
deriving DecidableEq, Repr

/-- `m_DataListenTh.Stop` has returned. -/
def ClientOwnerPc.pastListening : ClientOwnerPc → Bool
  | listenStopped | destroying | stopped => true
  | _ => false

/-- A client with its event thread and its listening thread. -/
structure ClientLife where
  thread : XLEventThread XLClientThread
  data : DataListenThread
  owner : ClientOwnerPc
  /-- The `Put` calls of `OnListen`, in order. -/
  listened : List Nat

/-- What can happen next in any of the threads. -/
inductive ClientLifeStep
  | start
  | stop
  /-- The call of the owner goes on. -/
  | owner
  | loop
  /-- The handler of `START_THREAD` goes on. -/
  | startListen
  /-- The listening thread goes on; `r` is what `recv` answers if it is in there. -/
  | listen (r : RecvResult)
  | queue (l : QueueStep XLThreadEvent)

namespace ClientLife

open XLClientThread (tOnEvent)

/-- A client as it is constructed; what is in its buffers is not initialised. -/
def new (listener : Bool) (uninitEvent uninitStorage : Vector UInt8 maxMessLength) :
    ClientLife where
  thread := XLEventThread.new (XLClientThread.new listener)
  data := DataListenThread.new uninitEvent uninitStorage
  owner := .fresh
  listened := []

/-- The client thread less its event thread. -/
def client (s : ClientLife) : XLClientThread := s.thread.self

/-- Some thread calls `Put(&e)`. -/
def put (s : ClientLife) (e : XLThreadEvent) : ClientLife :=
  { s with thread := { s.thread with queue := s.thread.queue.callPut e } }

/-- `Put` call `i` has returned. -/
def putReturned (s : ClientLife) (i : Nat) : Bool :=
  match s.thread.queue.puts[i]? with
  | some ⟨_, .returned _⟩ => true
  | _ => false

/-- The owner's `Start` or `Stop` goes on. -/
def ownerStep (s : ClientLife) : Option ClientLife :=
  match s.owner with
  | .fresh | .running | .stopped => none
  | .creating =>
      if s.thread.owner = .idle then
        if s.thread.created then
          some { s.put XLClientThread.startEvent with
            owner := .posting s.thread.queue.puts.length }
        else some { s with owner := .running }
      else (s.thread.next tOnEvent .owner).map fun thread => { s with thread := thread }
  | .posting i => if s.putReturned i then some { s with owner := .running } else none
  | .exiting => some { s with owner := if s.data.handle then .taking else .listenStopped }
  | .taking => s.data.sync2.take.map fun sync2 =>
      { s with
        data := { s.data with sync1 := s.data.sync1.destroy, sync2 := sync2.destroy }
        owner := .joining }
  | .joining =>
      if s.data.pc = .ended then
        some { s with data := { s.data with handle := false }, owner := .listenStopped }
      else none
  | .listenStopped =>
      (s.thread.next tOnEvent .destroy).map fun thread =>
        { s with thread := thread, owner := .destroying }
  | .destroying =>
      if s.thread.owner = .idle then some { s with owner := .stopped }
      else (s.thread.next tOnEvent .owner).map fun thread => { s with thread := thread }

/-- One step of `RunSimpleThread` and `XLListeningThread::RunProgram`. -/
def listenStep (s : ClientLife) (r : RecvResult) : Option ClientLife :=
  let d := s.data
  let go (d : DataListenThread) (pc : ListenPc) : ClientLife :=
    { s with data := { d with pc := pc } }
  match d.pc with
  | .off | .ended => none
  | .started => d.sync1.take.map fun sync1 => go { d with sync1 := sync1 } .synced
  | .synced => some (go d (if d.handle then .connecting else .leaving))
  | .connecting => some (go d .testing)
  | .testing => some (go d (if d.object.bExit then .closing else .receiving))
  | .receiving =>
      let (object, delivered) := d.object.receive r
      match delivered with
      | some e =>
          let i := s.thread.queue.puts.length
          some { (go { d with object := object } (.listening i)).put e with
            listened := s.listened ++ [i] }
      | none => some (go { d with object := object } .testing)
  | .listening i => if s.putReturned i then some (go d .testing) else none
  | .closing => some (go d .leaving)
  | .leaving => some (go { d with sync2 := d.sync2.give } .ended)

/-- The loop is at the `START_THREAD` branch. -/
def startsListening (s : ClientLife) : Bool :=
  decide (s.thread.loop = .handling) && decide (s.thread.event.iType = XLClientThread.startThread)

/-- One step of one thread; `none` where that thread has to wait, or is somewhere else. -/
def next (s : ClientLife) : ClientLifeStep → Option ClientLife
  | .start =>
      if s.owner = .fresh then
        (s.thread.next tOnEvent .create).map fun thread =>
          { s with thread := thread, owner := .creating }
      else none
  | .stop =>
      if s.owner = .running then
        if s.thread.created then some { s with data := s.data.setExit, owner := .exiting }
        else some { s with owner := .stopped }
      else none
  | .owner => s.ownerStep
  | .loop =>
      if s.data.creating.isSome then none
      else
        (s.thread.next tOnEvent .loop).map fun thread =>
          { s with
            thread := thread
            data := if s.startsListening then s.data.startThread else s.data }
  | .startListen => s.data.createStep.map fun data => { s with data := data }
  | .listen r => s.listenStep r
  | .queue l =>
      if l.inside then
        (s.thread.next tOnEvent (.queue l)).map fun thread => { s with thread := thread }
      else none

end ClientLife

end ServClient
