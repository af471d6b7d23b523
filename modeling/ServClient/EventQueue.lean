/-
`XLMutex` and `XLEventQueue`, and the steps of any number of `Put` and `Get` calls.

A step is what one call does between two points where another may run: take the lock,
copy the event to `mEvent`, push, unlock, give; take a permit, take the lock, pop,
unlock.  The events are of any type, since the queue only copies them.

`Take` and `Give` are one step each (`ServClient/SemaPhore.lean` has them in full), and so are
`push` and `pop`, also where no lock is held: in a queue for one reader or one writer, which takes
none, and once the locks are destroyed.  `ServClient/LockFreeThreads.lean` has the steps of one
that pushes and one that pops.
-/
import ServClient.SemaPhore
import ServClient.LockFreeQueue

namespace ServClient

/-- A `std::recursive_mutex` that does nothing before `Create`.  No call locks one twice, so the
owner is a call. -/
structure XLMutex where
  created : Bool
  owner : Option Nat
deriving DecidableEq, Repr

namespace XLMutex

/-- A mutex as it is constructed. -/
def new : XLMutex := { created := false, owner := none }

/-- `Create`. -/
def create (m : XLMutex) : XLMutex := if m.created then m else { m with created := true }

/-- `Destroy`. -/
def destroy (m : XLMutex) : XLMutex := if m.created then { m with created := false } else m

/-- `none` while it has to wait. -/
def lock (m : XLMutex) (i : Nat) : Option XLMutex :=
  if m.created then if m.owner = none then some { m with owner := some i } else none else some m

/-- `Unlock`. -/
def unlock (m : XLMutex) : XLMutex := if m.created then { m with owner := none } else m

end XLMutex

/-- `XLEventQueueConfig_MaxSize`. -/
def eventQueueConfigMaxSize : Int := 256

/-- The queue, with its locks, its semaphore, and the event that `Put` copies to. -/
structure XLEventQueue (α : Type) where
  /-- `mMut[0]`, the readers'. -/
  mut0 : XLMutex
  /-- `mMut[1]`, the writers'. -/
  mut1 : XLMutex
  sem : XLSemaPhore
  q : XLLFQ α
  maxSize : Int
  event : α
  created : Bool
  properties : Nat

namespace XLEventQueue

variable {α : Type}

/-- `SingleReader`: one thread calls `Get`. -/
def singleReader : Nat := 1
/-- `MultiReader`: `Get` takes the readers' lock. -/
def multiReader : Nat := 2
/-- `MultiWriter`: `Put` takes the writers' lock. -/
def multiWriter : Nat := 8

/-- A queue as it is constructed, before `Create`. -/
def new [Inhabited α] (maxSize : Int) : XLEventQueue α where
  mut0 := XLMutex.new
  mut1 := XLMutex.new
  sem := XLSemaPhore.new
  q := XLLFQ.new
  maxSize := maxSize
  event := default
  created := false
  properties := 0

/-- `Create`.  A mutex and a semaphore are always created, so the branches that undo are not
taken. -/
def create (s : XLEventQueue α) (properties : Nat) : XLEventQueue α × Bool :=
  if s.created then (s, false)
  else
    let s := { s with mut0 := s.mut0.create }
    if !s.mut0.created then (s, false)
    else
      let s := { s with mut1 := s.mut1.create }
      if !s.mut1.created then ({ s with mut0 := s.mut0.destroy }, false)
      else
        let s := { s with sem := s.sem.createCount 0 }
        let s := if !s.sem.created then
            { s with mut0 := s.mut0.destroy, mut1 := s.mut1.destroy }
          else s
        ({ s with q := s.q.setMaxSize s.maxSize, properties := properties, created := true }, true)

/-- `Destroy`, which leaves the events where they are. -/
def destroy (s : XLEventQueue α) : XLEventQueue α :=
  if s.created then
    { s with
      mut0 := s.mut0.destroy
      mut1 := s.mut1.destroy
      sem := s.sem.destroy
      created := false }
  else s

/-- The lock at the beginning of `Get`, where there is to be one. -/
def readerLock (s : XLEventQueue α) (i : Nat) : Option (XLEventQueue α) :=
  if s.properties &&& multiReader ≠ 0 then (s.mut0.lock i).map fun m => { s with mut0 := m }
  else some s

/-- And at its end. -/
def readerUnlock (s : XLEventQueue α) : XLEventQueue α :=
  if s.properties &&& multiReader ≠ 0 then { s with mut0 := s.mut0.unlock } else s

/-- The lock at the beginning of `Put`, where there is to be one. -/
def writerLock (s : XLEventQueue α) (i : Nat) : Option (XLEventQueue α) :=
  if s.properties &&& multiWriter ≠ 0 then (s.mut1.lock i).map fun m => { s with mut1 := m }
  else some s

/-- And at its end. -/
def writerUnlock (s : XLEventQueue α) : XLEventQueue α :=
  if s.properties &&& multiWriter ≠ 0 then { s with mut1 := s.mut1.unlock } else s

end XLEventQueue

/-! ### Calls in progress

A call of `Put` or `Get` is a program counter with the event it has or will have.  The steps of all
calls interleave; what they share is the queue, and the two logs say what was pushed and popped and
by whom.
-/

/-- Where a call of `Put` is. -/
inductive PutPc
  | entered
  | locked
  /-- `mEvent` is its event. -/
  | copied
  /-- `push` returned true; it still holds the lock. -/
  | pushed
  /-- `push` returned false; it still holds the lock. -/
  | refused
  /-- It is about to `Give`. -/
  | unlocked
  | returned (ret : Bool)
deriving DecidableEq, Repr

/-- Where a call of `Get` is. -/
inductive GetPc
  | entered
  | taken
  | locked
  | popped
  | returned (ret : Bool)
deriving DecidableEq, Repr

/-- A call of `Put`, with the event it was given. -/
structure PutCall (α : Type) where
  event : α
  pc : PutPc

/-- A call of `Get`. -/
structure GetCall (α : Type) where
  pc : GetPc
  /-- What `pop` stored for it. -/
  out : Option α

/-- A call begins, or goes on by a step; calls are numbered in the order they begin. -/
inductive QueueStep (α : Type)
  | put (e : α)
  | putLock (i : Nat)
  | putCopy (i : Nat)
  | putPush (i : Nat)
  | putUnlock (i : Nat)
  | putGive (i : Nat)
  | get
  | getTake (i : Nat)
  | getLock (i : Nat)
  | getPop (i : Nat)
  | getUnlock (i : Nat)

/-- The `Put` call a step belongs to, once the call has begun. -/
def QueueStep.ofPut {α : Type} : QueueStep α → Option Nat
  | putLock i | putCopy i | putPush i | putUnlock i | putGive i => some i
  | put _ | get | getTake _ | getLock _ | getPop _ | getUnlock _ => none

/-- A step of a call that has begun. -/
def QueueStep.inside {α : Type} : QueueStep α → Bool
  | put _ | get => false
  | putLock _ | putCopy _ | putPush _ | putUnlock _ | putGive _
  | getTake _ | getLock _ | getPop _ | getUnlock _ => true

/-- One queue and the calls made on it, in the order they were made. -/
structure QueueRun (α : Type) where
  queue : XLEventQueue α
  puts : List (PutCall α)
  gets : List (GetCall α)
  /-- The events pushed so far, in order, each with the `Put` it came from. -/
  pushed : List (Nat × α)
  /-- What was popped so far, in order, each with the `Get` it went to; `none` where `pop` found
  the queue empty. -/
  popped : List (Nat × Option α)

namespace QueueRun

variable {α : Type}

/-- A queue nobody has called yet. -/
def ofQueue (queue : XLEventQueue α) : QueueRun α :=
  { queue := queue, puts := [], gets := [], pushed := [], popped := [] }

/-- A new queue after `Create`. -/
def start [Inhabited α] (maxSize : Int) (properties : Nat) : QueueRun α :=
  ofQueue ((XLEventQueue.new maxSize).create properties).1

/-- Some thread calls `Put(&e)`. -/
def callPut (s : QueueRun α) (e : α) : QueueRun α :=
  { s with puts := s.puts ++ [⟨e, if s.queue.created then .entered else .returned false⟩] }

/-- Some thread calls `Get`. -/
def callGet (s : QueueRun α) : QueueRun α :=
  { s with gets := s.gets ++ [⟨if s.queue.created then .entered else .returned false, none⟩] }

/-- One step of one call; `none` where it has to wait, or is somewhere else. -/
def next (s : QueueRun α) : QueueStep α → Option (QueueRun α)
  | .put e => some (s.callPut e)
  | .putLock i =>
      match s.puts[i]? with
      | some ⟨e, .entered⟩ => (s.queue.writerLock i).map fun queue =>
          { s with queue := queue, puts := s.puts.set i ⟨e, .locked⟩ }
      | _ => none
  | .putCopy i =>
      match s.puts[i]? with
      | some ⟨e, .locked⟩ =>
          some { s with queue := { s.queue with event := e }, puts := s.puts.set i ⟨e, .copied⟩ }
      | _ => none
  | .putPush i =>
      match s.puts[i]? with
      | some ⟨e, .copied⟩ =>
          let (q, accepted) := s.queue.q.push s.queue.event
          if accepted then
            some { s with
              queue := { s.queue with q := q }
              puts := s.puts.set i ⟨e, .pushed⟩
              pushed := s.pushed ++ [(i, s.queue.event)] }
          else
            some { s with queue := { s.queue with q := q }, puts := s.puts.set i ⟨e, .refused⟩ }
      | _ => none
  | .putUnlock i =>
      match s.puts[i]? with
      | some ⟨e, .pushed⟩ =>
          some { s with queue := s.queue.writerUnlock, puts := s.puts.set i ⟨e, .unlocked⟩ }
      | some ⟨e, .refused⟩ =>
          some { s with queue := s.queue.writerUnlock, puts := s.puts.set i ⟨e, .returned false⟩ }
      | _ => none
  | .putGive i =>
      match s.puts[i]? with
      | some ⟨e, .unlocked⟩ =>
          some { s with
            queue := { s.queue with sem := s.queue.sem.give }
            puts := s.puts.set i ⟨e, .returned true⟩ }
      | _ => none
  | .get => some s.callGet
  | .getTake i =>
      match s.gets[i]? with
      | some ⟨.entered, out⟩ => s.queue.sem.take.map fun sem =>
          { s with queue := { s.queue with sem := sem }, gets := s.gets.set i ⟨.taken, out⟩ }
      | _ => none
  | .getLock i =>
      match s.gets[i]? with
      | some ⟨.taken, out⟩ => (s.queue.readerLock i).map fun queue =>
          { s with queue := queue, gets := s.gets.set i ⟨.locked, out⟩ }
      | _ => none
  | .getPop i =>
      match s.gets[i]? with
      | some ⟨.locked, out⟩ =>
          match s.queue.q.pop with
          | some (q, e) =>
              some { s with
                queue := { s.queue with q := q }
                gets := s.gets.set i ⟨.popped, some e⟩
                popped := s.popped ++ [(i, some e)] }
          | none =>
              some { s with
                gets := s.gets.set i ⟨.popped, out⟩
                popped := s.popped ++ [(i, none)] }
      | _ => none
  | .getUnlock i =>
      match s.gets[i]? with
      | some ⟨.popped, out⟩ =>
          some { s with queue := s.queue.readerUnlock, gets := s.gets.set i ⟨.returned true, out⟩ }
      | _ => none

end QueueRun

end ServClient
