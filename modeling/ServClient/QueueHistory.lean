/-
`Create` and `Destroy` of an event queue among the calls of `Put` and `Get`.

In a history a queue has any number of lives, and `Destroy` runs only where no call is in
progress.  In a `DestroyRun` there is one `Destroy`, at any moment, and it does in four steps what
`XLEventQueue.destroy` does at once: the locks and the semaphore are gone while calls still use
them, and do nothing from then on.  In both `push` and `pop` stay one step each, also where no lock
keeps others out.
-/
import ServClient.EventQueue

namespace ServClient

/-- Where a call of `Put` has returned. -/
def PutPc.isReturned : PutPc → Bool
  | returned _ => true
  | entered | locked | copied | pushed | refused | unlocked => false

/-- The call is over. -/
def GetPc.isReturned : GetPc → Bool
  | returned _ => true
  | entered | taken | locked | popped => false

/-- No call is in progress. -/
def QueueRun.quiet {α : Type} (s : QueueRun α) : Bool :=
  (s.puts.all fun c => c.pc.isReturned) && s.gets.all fun g => g.pc.isReturned

/-! ### One life after the other -/

/-- A queue is made anew, destroyed, or some call on it goes on. -/
inductive HistoryStep (α : Type)
  | create (properties : Nat)
  | destroy
  | call (l : QueueStep α)

/-- A queue over all its lives. -/
structure QueueHistory (α : Type) where
  run : QueueRun α
  /-- How many events had been pushed when the last life began. -/
  pushedBefore : Nat
  /-- How many had been popped. -/
  poppedBefore : Nat

namespace QueueHistory

variable {α : Type}

/-- The queue as it is constructed, before its first life. -/
def new [Inhabited α] (maxSize : Int) : QueueHistory α :=
  { run := .ofQueue (XLEventQueue.new maxSize), pushedBefore := 0, poppedBefore := 0 }

/-- One step.  A `Create` that succeeds begins a life; `Destroy` is called with no call inside. -/
def next (s : QueueHistory α) : HistoryStep α → Option (QueueHistory α)
  | .create properties =>
      let (queue, ret) := s.run.queue.create properties
      let run := { s.run with queue := queue }
      if ret then
        some { run := run, pushedBefore := run.pushed.length, poppedBefore := run.popped.length }
      else some { s with run := run }
  | .destroy =>
      if s.run.quiet then some { s with run := { s.run with queue := s.run.queue.destroy } }
      else none
  | .call l => (s.run.next l).map fun run => { s with run := run }

/-- The events a `Get` could return: none where the queue is not created. -/
def couldReturn (s : QueueHistory α) : List α :=
  if s.run.queue.created then s.run.queue.q.pending else []

end QueueHistory

/-! ### `Destroy` among the calls -/

/-- Where the call of `Destroy` is. -/
inductive DestroyPc
  | idle
  | entered
  /-- `mMut[0]` is destroyed. -/
  | mut0
  /-- `mMut[1]` is too. -/
  | mut1
  /-- And so is `mSem`. -/
  | sem
  | returned
deriving DecidableEq, Repr

/-- `Destroy` is called or goes on, or some other call does. -/
inductive DestroyStep (α : Type)
  | destroy
  | call (l : QueueStep α)

/-- A queue, its calls, and where its one call of `Destroy` is. -/
structure DestroyRun (α : Type) where
  run : QueueRun α
  pc : DestroyPc

namespace DestroyRun

variable {α : Type}

/-- A queue in any state, nobody in it. -/
def ofQueue (queue : XLEventQueue α) : DestroyRun α := { run := .ofQueue queue, pc := .idle }

/-- The next step of `Destroy`. -/
def destroy (s : DestroyRun α) : Option (DestroyRun α) :=
  let queue := s.run.queue
  match s.pc with
  | .idle => some { s with pc := if queue.created then .entered else .returned }
  | .entered =>
      some { run := { s.run with queue := { queue with mut0 := queue.mut0.destroy } }, pc := .mut0 }
  | .mut0 =>
      some { run := { s.run with queue := { queue with mut1 := queue.mut1.destroy } }, pc := .mut1 }
  | .mut1 =>
      some { run := { s.run with queue := { queue with sem := queue.sem.destroy } }, pc := .sem }
  | .sem => some { run := { s.run with queue := { queue with created := false } }, pc := .returned }
  | .returned => none

/-- One step of the call of `Destroy`, or of one of the others. -/
def next (s : DestroyRun α) : DestroyStep α → Option (DestroyRun α)
  | .destroy => s.destroy
  | .call l => (s.run.next l).map fun run => { s with run := run }

end DestroyRun

end ServClient
