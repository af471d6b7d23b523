/-
A started `XLClientThread` with its threads: the one that calls `Start`, the listening
thread, and the event loop.

The event thread is `XLEventThread` with every step of its `Put` and `Get` calls.  The
listening thread is started by the handler of `START_THREAD`; it calls `OnListen` with one
event after the other, and any event may come, as far as `OnListen` can tell
(`ServClient/Listening.lean` has how it reads one).  The handler of an event is one step.

`OnStart` and `OnEnd` of the listener do nothing to the thread and are left out, as is what
is printed.  `Stop` is not among the steps.
-/
import ServClient.EventThread

namespace ServClient

/-- The fields of the client, and how often `START_THREAD` has been handled. -/
structure XLClientThread where
  /-- Whether `m_pListener` is set. -/
  listener : Bool
  /-- Whether the `m_Listener` of `m_DataListenTh` is set, to this object. -/
  dataListener : Bool
  /-- Whether the thread of `m_DataListenTh` is created. -/
  dataCreated : Bool
  /-- How often the `START_THREAD` branch has been taken. -/
  startBranches : Nat
  /-- The events `m_pListener->OnEvent` has been called with, in order. -/
  forwarded : List XLThreadEvent

namespace XLClientThread

/-- `START_THREAD`, the first type after those of `XLEventThread`. -/
def startThread : Int := eventThreadEventTypeMax + 1
/-- `ACCEPT_INCOMING`, which a client has no use for. -/
def acceptIncoming : Int := startThread + 1
/-- `LIFE_BEAT`, which it ignores. -/
def lifeBeat : Int := acceptIncoming + 1

/-- The constructor, and `SetListener`. -/
def new (listener : Bool) : XLClientThread where
  listener := listener
  dataListener := false
  dataCreated := false
  startBranches := 0
  forwarded := []

/-- `m_DataListenTh.SetListener(this)`. -/
def setDataListener (t : XLClientThread) : XLClientThread := { t with dataListener := true }

/-- `m_DataListenTh.Start()`. -/
def startDataListen (t : XLClientThread) : XLClientThread :=
  if t.dataCreated then t else { t with dataCreated := true }

/-- `m_pListener->OnEvent(e)`. -/
def forward (t : XLClientThread) (e : XLThreadEvent) : XLClientThread :=
  if t.listener then { t with forwarded := t.forwarded ++ [e] } else t

/-- `t_OnEvent`: the events of its own are handled, and all others go to the listener. -/
def tOnEvent (t : XLClientThread) (e : XLThreadEvent) : XLClientThread :=
  if e.iType = startThread then
    { t.setDataListener.startDataListen with startBranches := t.startBranches + 1 }
  else if e.iType = lifeBeat then t
  else t.forward e

/-- The event of `Start`. -/
def startEvent : XLThreadEvent := XLThreadEvent.new.setType startThread

end XLClientThread

/-- Where the call of `Start` is. -/
inductive ClientStartPc
  | fresh
  /-- In `XLEventThread::Create`. -/
  | creating
  /-- `START_THREAD` is posted, or will not be. -/
  | started
deriving DecidableEq, Repr

/-- A client in its event thread, with the `Put` calls that matter told apart. -/
structure ClientRun where
  thread : XLEventThread XLClientThread
  start : ClientStartPc
  /-- The `Put` call of `Start`. -/
  startPut : Option Nat
  /-- The `Put` calls of `OnListen`, in order. -/
  listened : List Nat

/-- What can happen next in any of the threads. -/
inductive ClientRunStep
  /-- The owner calls `Start`. -/
  | start
  /-- `XLEventThread::Create` goes on. -/
  | create
  /-- `Create` has returned; the rest of `Start`. -/
  | postStart
  /-- The listening thread calls `OnListen(&e)`. -/
  | onListen (e : XLThreadEvent)
  | loop
  | queue (l : QueueStep XLThreadEvent)

namespace ClientRun

open XLClientThread (tOnEvent)

/-- A client as it is constructed. -/
def new (listener : Bool) : ClientRun where
  thread := XLEventThread.new (XLClientThread.new listener)
  start := .fresh
  startPut := none
  listened := []

/-- The client thread less its event thread. -/
def client (s : ClientRun) : XLClientThread := s.thread.self

/-- Some thread calls `Put(&e)`. -/
def put (s : ClientRun) (e : XLThreadEvent) : ClientRun :=
  { s with thread := { s.thread with queue := s.thread.queue.callPut e } }

/-- The listening thread runs and is not in a call of `OnListen`. -/
def listens (s : ClientRun) : Bool :=
  s.client.dataListener && s.client.dataCreated &&
    match s.listened.getLast? with
    | none => true
    | some i =>
        match s.thread.queue.puts[i]? with
        | some ⟨_, .returned _⟩ => true
        | _ => false

/-- One step of one thread; `none` where that thread has to wait, or is somewhere else. -/
def next (s : ClientRun) : ClientRunStep → Option ClientRun
  | .start =>
      if s.start = .fresh then
        (s.thread.next tOnEvent .create).map fun thread =>
          { s with thread := thread, start := .creating }
      else none
  | .create =>
      if s.start = .creating then
        (s.thread.next tOnEvent .owner).map fun thread => { s with thread := thread }
      else none
  | .postStart =>
      if s.start = .creating ∧ s.thread.owner = .idle then
        if s.thread.created then
          some { s.put XLClientThread.startEvent with
            start := .started, startPut := some s.thread.queue.puts.length }
        else some { s with start := .started }
      else none
  | .onListen e =>
      if s.listens then
        some { s.put e with listened := s.listened ++ [s.thread.queue.puts.length] }
      else none
  | .loop => (s.thread.next tOnEvent .loop).map fun thread => { s with thread := thread }
  | .queue l =>
      if l.inside then
        (s.thread.next tOnEvent (.queue l)).map fun thread => { s with thread := thread }
      else none

end ClientRun

end ServClient
