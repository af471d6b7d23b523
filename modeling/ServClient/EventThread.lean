/-
`XLEventThread`, over any number of lives: `Create`, the loop of `RunProgram`, `Destroy`.

One thread owns the object and calls `Create` and `Destroy`.  Any thread may call `Put`
and `StopMainLoop` at any time, the handler included, so a step of a `Put` call stands
for whoever makes it.  The queue is `QueueRun` with every step of its calls.

`std::thread` runs the new thread before `m_handle` is assigned, and `XLEventThread::Create`
sets `mCreated` after that.  A thread that looks at either too early ends without a loop.

`Take` tests `mbCreated` before it locks, and `Destroy` of a semaphore zeroes the counts and wakes
nobody.  So the new thread's `m_Sync1.Take()` is two steps, and one that is past the test when
`m_Sync1` is destroyed waits for ever.  Nobody else takes `m_Sync1`, and every `Give` notifies, so
the lock, the waiting and the look at the count are one step, which cannot be made while there is
no permit.  `m_Sync2` is taken and destroyed by one thread, and its `Take` is one step.
`Destroy` waits for the thread in `join`; the queue is destroyed after that, with no `Put`
under way.

What `t_OnEvent` does to the rest of the object is a parameter.  `t_OnCreate`, `t_OnDestroy`
and `RanOut` are empty where this is used, and the thread id is not read.
-/
import ServClient.EventQueue
import ServClient.Lib.Runs

namespace ServClient

/-- `XLEventThreadEventType_Exit`. -/
def eventThreadEventTypeExit : Int := 12

/-- `XLEventThreadEventType_Max`. -/
def eventThreadEventTypeMax : Int := 13

/-- The event of `StopMainLoop`. -/
def exitLoopEvent : XLThreadEvent := XLThreadEvent.new.setType eventThreadEventTypeExit

/-- The default argument of `XLEventQueue::Create`. -/
def eventQueueProperties : Nat := XLEventQueue.singleReader ||| XLEventQueue.multiWriter

/-- Where the loop's thread is. -/
inductive LoopPc
  /-- No thread has been started. -/
  | off
  /-- In `RunSimpleThread`, before `m_Sync1.Take()`. -/
  | started
  /-- In `m_Sync1.Take()`, which has found the semaphore created. -/
  | taking
  /-- About to look at `m_handle`. -/
  | synced
  /-- In `RunProgram`, about to look at `mCreated`. -/
  | running
  /-- About to look at `mExit`. -/
  | testing
  /-- In `Get` call `j`. -/
  | getting (j : Nat)
  /-- About to call `OnEvent(&mEvent)`. -/
  | handling
  /-- About to give `m_Sync2`. -/
  | leaving
  | ended
deriving DecidableEq, Repr

/-- Where the owner is. -/
inductive OwnerPc
  | idle
  /-- In `Create`: the thread runs, `m_handle` is not assigned. -/
  | spawned
  | handled
  /-- `m_Sync1` is given. -/
  | given
  /-- The queue is created, `mCreated` is not set. -/
  | queued
  /-- In `XLSimpleThreads::Destroy`; `undo` where `Create` calls it. -/
  | taking (undo : Bool)
  | joining (undo : Bool)
  /-- In `Destroy`: the thread is gone, the queue is not. -/
  | joined
deriving DecidableEq, Repr

/-- An event thread with its queue and its semaphores, and where its threads are. -/
structure XLEventThread (σ : Type) where
  /-- The object `t_OnEvent` works on, less the fields below. -/
  self : σ
  created : Bool
  event : XLThreadEvent
  exit : Bool
  queue : QueueRun XLThreadEvent
  sync1 : XLSemaPhore
  sync2 : XLSemaPhore
  /-- `m_handle` is not null. -/
  handle : Bool
  loop : LoopPc
  owner : OwnerPc
  /-- The calls of `t_OnEvent`, in order. -/
  dispatched : List XLThreadEvent
  /-- In this life `RunProgram` has found `mCreated` set. -/
  entered : Bool
  /-- How many events had been accepted and dispatched when this life began. -/
  pushedBefore : Nat
  dispatchedBefore : Nat

/-- What can happen next in any of the threads. -/
inductive EventThreadStep
  /-- The owner calls `Create`, or `Destroy`. -/
  | create
  | destroy
  /-- The call of the owner goes on. -/
  | owner
  | loop
  /-- Some thread calls `StopMainLoop`. -/
  | stopMainLoop
  /-- Some thread calls `Put`, or a call in progress goes on. -/
  | queue (l : QueueStep XLThreadEvent)

namespace XLEventThread

variable {σ : Type}

/-- An event thread as it is constructed, with no thread. -/
def new (self : σ) : XLEventThread σ where
  self := self
  created := false
  event := XLThreadEvent.new
  exit := false
  queue := QueueRun.ofQueue (XLEventQueue.new eventQueueConfigMaxSize)
  sync1 := XLSemaPhore.new
  sync2 := XLSemaPhore.new
  handle := false
  loop := .off
  owner := .idle
  dispatched := []
  entered := false
  pushedBefore := 0
  dispatchedBefore := 0

/-- `Create` up to the start of the thread.  A semaphore is always created, so the branches that
undo are not taken. -/
def create (s : XLEventThread σ) : XLEventThread σ :=
  if s.created then s
  else
    { s with
      sync1 := s.sync1.create 0 1
      sync2 := s.sync2.create 0 1
      loop := .started
      owner := .spawned
      entered := false
      pushedBefore := s.queue.pushed.length
      dispatchedBefore := s.dispatched.length }

/-- `Destroy` up to `m_Sync2.Take()`. -/
def destroy (s : XLEventThread σ) : XLEventThread σ :=
  if s.created then
    if s.handle then { s with owner := .taking false } else { s with owner := .joined }
  else s

/-- Every call of `Put` has returned. -/
def putsReturned (s : XLEventThread σ) : Bool :=
  s.queue.puts.all fun c => match c.pc with
    | .returned _ => true
    | _ => false

/-- The owner's `Create` or `Destroy` goes on. -/
def ownerStep (s : XLEventThread σ) : Option (XLEventThread σ) :=
  match s.owner with
  | .idle => none
  | .spawned => some { s with handle := true, owner := .handled }
  | .handled => some { s with sync1 := s.sync1.give, owner := .given }
  | .given =>
      let (queue, created) := s.queue.queue.create eventQueueProperties
      if created then
        some { s with queue := { s.queue with queue := queue }, owner := .queued }
      else some { s with owner := .taking true }
  | .queued => some { s with created := true, owner := .idle }
  | .taking undo => s.sync2.take.map fun sync2 =>
      { s with
        sync1 := s.sync1.destroy
        sync2 := sync2.destroy
        owner := .joining undo }
  | .joining undo =>
      if s.loop = .ended then
        some { s with handle := false, owner := if undo then .idle else .joined }
      else none
  | .joined =>
      if s.putsReturned then
        some { s with
          queue := { s.queue with queue := s.queue.queue.destroy }
          created := false
          owner := .idle }
      else none

/-- `OnEvent(&mEvent)`. -/
def onEvent (tOnEvent : σ → XLThreadEvent → σ) (s : XLEventThread σ) : XLEventThread σ :=
  if s.event.iType = eventThreadEventTypeExit then { s with exit := true, loop := .testing }
  else
    { s with
      self := tOnEvent s.self s.event
      loop := .testing
      dispatched := s.dispatched ++ [s.event] }

/-- The thread goes on: its entry, the loop of `RunProgram`, and its end. -/
def loopStep (tOnEvent : σ → XLThreadEvent → σ) (s : XLEventThread σ) :
    Option (XLEventThread σ) :=
  match s.loop with
  | .off | .ended => none
  | .started => some { s with loop := if s.sync1.created then .taking else .synced }
  | .taking =>
      if s.sync1.Passes then some { s with sync1 := s.sync1.raise, loop := .synced } else none
  | .synced => some { s with loop := if s.handle then .running else .leaving }
  | .running =>
      if s.created then some { s with loop := .testing, entered := true }
      else some { s with loop := .leaving }
  | .testing =>
      if s.exit then some { s with loop := .leaving }
      else some { s with queue := s.queue.callGet, loop := .getting s.queue.gets.length }
  | .getting j =>
      match s.queue.gets[j]? with
      | some ⟨.returned true, out⟩ => some { s with event := out.getD s.event, loop := .handling }
      | some ⟨.returned false, _⟩ => some { s with exit := true, loop := .testing }
      | _ => none
  | .handling => some (s.onEvent tOnEvent)
  | .leaving => some { s with sync2 := s.sync2.give, loop := .ended }

/-- One step of one thread; `none` where that thread has to wait, or is somewhere else. -/
def next (tOnEvent : σ → XLThreadEvent → σ) (s : XLEventThread σ) :
    EventThreadStep → Option (XLEventThread σ)
  | .create => if s.owner = .idle then some s.create else none
  | .destroy => if s.owner = .idle then some s.destroy else none
  | .owner => s.ownerStep
  | .loop => s.loopStep tOnEvent
  | .stopMainLoop =>
      some (if s.created then { s with queue := s.queue.callPut exitLoopEvent } else s)
  | .queue .get => none
  | .queue l => (s.queue.next l).map fun queue => { s with queue := queue }

/-- The events accepted by `Put` so far, over all lives. -/
def accepted (s : XLEventThread σ) : List XLThreadEvent := s.queue.pushed.map Prod.snd

end XLEventThread

/-- The events before the first `Exit`. -/
def untilExit (events : List XLThreadEvent) : List XLThreadEvent :=
  events.takeWhile fun e => e.iType ≠ eventThreadEventTypeExit

end ServClient
