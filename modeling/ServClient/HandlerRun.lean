/-
A started `XLServerClientHandler` with its threads: the one that calls `Start`, any threads that
post to it, and the event loop.

The event thread is `XLEventThread` with every step of its `Put` and `Get` calls.  `t_OnEvent` runs
in the loop, so where it calls `Put` the loop does nothing else until that has returned.  A listener
that calls `OnRecieve` from within is one of the threads that post.

`Stop` is not among the steps, and neither is `StopMainLoop`, which nothing else calls.
-/
import ServClient.ServerClientHandler

namespace ServClient

open XLServerClientHandler

/-- Where the call of `Start` is. -/
inductive HandlerStartPc
  | fresh
  /-- In `XLEventThread::Create`. -/
  | creating
  | started
deriving DecidableEq, Repr

/-- Where the event loop is in `t_OnEvent`. -/
inductive HandlingPc
  | idle
  /-- In `Put` call `i`, while it handles an event of this type. -/
  | posting (i : Nat) (type : Int)
deriving DecidableEq, Repr

/-- A handler in its event thread, and where `Start` and `t_OnEvent` are. -/
structure HandlerRun where
  thread : XLEventThread XLServerClientHandler
  start : HandlerStartPc
  handling : HandlingPc

/-- What can happen next in any of the threads. -/
inductive HandlerRunStep
  /-- Some thread calls `Start`. -/
  | start
  /-- `XLEventThread::Create` goes on. -/
  | create
  /-- The rest of `Start`. -/
  | startRest
  | putEvent (type : Int)
  | putEventWith (type : Int) (msg : Option (List UInt8)) (len : Int)
  | onRecieve (msg : Option (List UInt8)) (len : Int)
  | sendHelloToClient
  | loop
  /-- The `Put` of `t_OnEvent` has returned, and `t_OnEvent` does. -/
  | posted
  | queue (l : QueueStep XLThreadEvent)

/-- A step that the handler takes on its own, or a call of `Put` that has begun. -/
def HandlerRunStep.own : HandlerRunStep → Bool
  | loop | posted => true
  | queue l => l.inside
  | start | create | startRest | putEvent _ | putEventWith _ _ _ | onRecieve _ _
  | sendHelloToClient => false

namespace HandlerRun

/-- What the loop has the handler do in one step. -/
def onEventFront (h : XLServerClientHandler) (e : XLThreadEvent) : XLServerClientHandler :=
  (h.tOnEventFront e).1

/-- A handler as it is constructed. -/
def new (identifier : Int) (config : SocketConfig) (configListener recieveListener : Bool) :
    HandlerRun where
  thread := XLEventThread.new
    (XLServerClientHandler.new identifier config configListener recieveListener)
  start := .fresh
  handling := .idle

/-- The handler less its event thread. -/
def handler (r : HandlerRun) : XLServerClientHandler := r.thread.self

/-- The fields of the handler are written. -/
def setHandler (r : HandlerRun) (h : XLServerClientHandler) : HandlerRun :=
  { r with thread := { r.thread with self := h } }

/-- Some thread calls `Put(&e)`. -/
def put (r : HandlerRun) (e : XLThreadEvent) : HandlerRun :=
  { r with thread := { r.thread with queue := r.thread.queue.callPut e } }

/-- `Put` call `i` has returned. -/
def putReturned (r : HandlerRun) (i : Nat) : Bool :=
  r.thread.queue.puts[i]?.any fun c => match c.pc with
    | .returned _ => true
    | _ => false

/-- What `t_OnEvent` puts, where the loop is about to call it. -/
def posts (r : HandlerRun) : Option XLThreadEvent :=
  if r.thread.loop = .handling ∧ r.thread.event.iType ≠ eventThreadEventTypeExit then
    (r.handler.tOnEventFront r.thread.event).2
  else none

/-- One step of one thread; `none` where that thread has to wait, or is somewhere else. -/
def next (r : HandlerRun) : HandlerRunStep → Option HandlerRun
  | .start =>
      if r.start = .fresh then
        (r.thread.next onEventFront .create).map fun thread =>
          { r with thread := thread, start := .creating }
      else none
  | .create =>
      if r.start = .creating then
        (r.thread.next onEventFront .owner).map fun thread => { r with thread := thread }
      else none
  | .startRest =>
      if r.start = .creating ∧ r.thread.owner = .idle then
        some { (r.setHandler r.handler.makeSocket).put (eventOf serverClientStart) with
          start := .started }
      else none
  | .putEvent type => some (r.put (eventOf type))
  | .putEventWith type msg len => some (r.put (eventWith type msg len))
  | .onRecieve msg len => some (r.put (eventWith serverDataRecieved msg len))
  | .sendHelloToClient => some (r.put (eventOf serverClientStart))
  | .loop =>
      if r.handling = .idle then
        (r.thread.next onEventFront .loop).map fun thread =>
          match r.posts with
          | some e =>
              { { r with thread := thread }.put e with
                handling := .posting thread.queue.puts.length r.thread.event.iType }
          | none => { r with thread := thread }
      else none
  | .posted =>
      match r.handling with
      | .posting i type =>
          if r.putReturned i then
            some { r.setHandler (r.handler.tOnEventBack type) with handling := .idle }
          else none
      | .idle => none
  | .queue l =>
      if l.inside then
        (r.thread.next onEventFront (.queue l)).map fun thread => { r with thread := thread }
      else none

/-- With nobody to call it. -/
def goOn (r : HandlerRun) (l : HandlerRunStep) : Option HandlerRun :=
  if l.own then r.next l else none

end HandlerRun

end ServClient
