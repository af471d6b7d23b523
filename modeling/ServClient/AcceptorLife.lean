/-
An `XLAcceptorThread` with its own thread: `Start`, `Stop`, and again.

`ServClient/AcceptorThread.lean` has one run of `RunProgram` as a function of what comes from
outside, the calls of `Stop` included.  Here the thread is the one that `XLSimpleThreads::Create`
starts, a step of it may come between any two of the thread that owns the object, and an `accept`
is one step, taken when it returns.

One thread owns the object and calls `Start` and `Stop`, in any order and as often as it likes; the
destructor is a `Stop`.

As for an event thread, the `Take` of `m_Sync1` is two steps: the test of `mbCreated`, and what it
does under the lock.  A thread that is between the two when `Stop` destroys `m_Sync1` is not woken.
-/
import ServClient.AcceptorThread
import ServClient.SemaPhore

namespace ServClient

/-- Where the acceptor's own thread is. -/
inductive AcceptorPc
  | off
  /-- In `RunSimpleThread`, before `m_Sync1.Take()`. -/
  | started
  /-- In `m_Sync1.Take()`, which has found the semaphore created. -/
  | taking
  /-- About to look at `m_handle`. -/
  | synced
  /-- In `RunProgram`, and in `m_pSocket->Start()` if there is a socket. -/
  | starting
  /-- About to look at `m_bExit` and `itr`, after so many turns. -/
  | testing (turns : Nat)
  /-- In `AcceptConnection`. -/
  | accepting (turns : Nat)
  /-- About to give `m_Sync2`. -/
  | leaving
  | ended
deriving DecidableEq, Repr

/-- Where the owner is. -/
inductive AcceptorOwnerPc
  | idle
  /-- In `Start`: the thread runs, `m_handle` is not assigned. -/
  | spawned
  | handled
  /-- In `Stop`, about to take `m_Sync2`. -/
  | taking
  | joining
deriving DecidableEq, Repr

/-- An acceptor, the two semaphores of its thread, and where thread and owner are. -/
structure AcceptorLife where
  object : XLAcceptorThread
  sync1 : XLSemaPhore
  sync2 : XLSemaPhore
  /-- `m_handle` is not null. -/
  handle : Bool
  pc : AcceptorPc
  owner : AcceptorOwnerPc
  /-- How often the thread has been past `m_pSocket->Start()`. -/
  programs : Nat

/-- What can happen next: a call of the owner, or one step of either thread. -/
inductive AcceptorLifeStep
  | start
  | stop
  /-- The call of the owner goes on. -/
  | owner
  /-- The acceptor's thread goes on; `a` is what the system answers if it asks. -/
  | thread (a : SocketAnswers)

/-- A step of a call in progress, or of the thread. -/
def AcceptorLifeStep.own : AcceptorLifeStep → Bool
  | start | stop => false
  | owner | thread _ => true

namespace AcceptorLife

/-- An acceptor as it is constructed, with no thread. -/
def new (socket : Option XLSocket) (num : Int) : AcceptorLife where
  object := XLAcceptorThread.new socket num
  sync1 := XLSemaPhore.new
  sync2 := XLSemaPhore.new
  handle := false
  pc := .off
  owner := .idle
  programs := 0

/-- `Start`, up to the start of the thread. -/
def start (s : AcceptorLife) : AcceptorLife :=
  if s.handle then s
  else
    { s with
      object := { s.object with exit := false }
      sync1 := s.sync1.create 0 1
      sync2 := s.sync2.create 0 1
      pc := .started
      owner := .spawned }

/-- `Stop`, up to `m_Sync2.Take()`. -/
def stop (s : AcceptorLife) : AcceptorLife :=
  if s.handle then { s with object := { s.object with exit := true }, owner := .taking } else s

/-- The owner's call goes on: `Create` after the thread is started, `Destroy` after `m_bExit` is
set. -/
def ownerStep (s : AcceptorLife) : Option AcceptorLife :=
  match s.owner with
  | .idle => none
  | .spawned => some { s with handle := true, owner := .handled }
  | .handled => some { s with sync1 := s.sync1.give, owner := .idle }
  | .taking => s.sync2.take.map fun sync2 =>
      { s with sync1 := s.sync1.destroy, sync2 := sync2.destroy, owner := .joining }
  | .joining => if s.pc = .ended then some { s with handle := false, owner := .idle } else none

/-- `m_pSocket->Start()`. -/
def startSocket (s : AcceptorLife) (a : SocketAnswers) : AcceptorLife :=
  match s.object.socket with
  | none => { s with pc := .leaving }
  | some socket =>
      { s with
        object := { s.object with socket := some (socket.start a).1 }
        pc := .testing 0
        programs := s.programs + 1 }

/-- One turn of the loop. -/
def acceptConnection (s : AcceptorLife) (a : SocketAnswers) (turns : Nat) : Option AcceptorLife :=
  s.object.socket.map fun socket =>
    let (socket, accepted) := socket.acceptConnection a
    { s with
      object := { s.object with socket := some socket, exit := s.object.exit || !accepted }
      pc := .testing (turns + 1) }

/-- The thread goes on; every access to what it shares with the owner is a step. -/
def threadStep (s : AcceptorLife) (a : SocketAnswers) : Option AcceptorLife :=
  match s.pc with
  | .off | .ended => none
  | .started => some { s with pc := if s.sync1.created then .taking else .synced }
  | .taking =>
      if s.sync1.Passes then some { s with sync1 := s.sync1.raise, pc := .synced } else none
  | .synced => some { s with pc := if s.handle then .starting else .leaving }
  | .starting => some (s.startSocket a)
  | .testing turns =>
      if s.object.exit = false ∧ (turns : Int) + 1 < s.object.nConnection then
        some { s with pc := .accepting turns }
      else some { s with pc := .leaving }
  | .accepting turns => s.acceptConnection a turns
  | .leaving => some { s with sync2 := s.sync2.give, pc := .ended }

/-- One step, of an owner that makes one call at a time. -/
def next (s : AcceptorLife) : AcceptorLifeStep → Option AcceptorLife
  | .start => if s.owner = .idle then some s.start else none
  | .stop => if s.owner = .idle then some s.stop else none
  | .owner => s.ownerStep
  | .thread a => s.threadStep a

/-- With nobody to call `Start` or `Stop`. -/
def goOn (s : AcceptorLife) (l : AcceptorLifeStep) : Option AcceptorLife :=
  if l.own then s.next l else none

end AcceptorLife

end ServClient
