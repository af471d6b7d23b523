/-
`XLMutex` with all of its methods, and the threads that use one.

`ServClient/EventQueue.lean` has the mutex as the queue uses it, where no thread locks it
twice.  Here it is the class: a `std::recursive_mutex` behind a flag, the C++11 branch.
`TryLock` does not look at what `try_lock` returns, nor at its `msec`.

A thread holds the mutex from a `Lock` that returned, or a `TryLock` that returned true,
until it has called `Unlock` once for each.  Giving back a `std::recursive_mutex` one does
not own is undefined, and no step follows that.
-/
import ServClient.Lib.RecursiveMutex

namespace ServClient

variable {T : Type}

/-- The mutex, and the flag that `Create` sets. -/
structure XLRecursiveMutex (T : Type) where
  mSem : RecursiveMutex T
  /-- `mbCreated`. -/
  created : Bool
deriving DecidableEq, Repr

namespace XLRecursiveMutex

/-- A mutex as it is constructed. -/
def new : XLRecursiveMutex T := { mSem := .free, created := false }

/-- `Create`, which is false where it has been called already. -/
def create (m : XLRecursiveMutex T) : XLRecursiveMutex T × Bool :=
  if m.created then (m, false) else ({ m with created := true }, true)

/-- `Destroy`, which only takes the flag away. -/
def destroy (m : XLRecursiveMutex T) : XLRecursiveMutex T :=
  if m.created then { m with created := false } else m

variable [DecidableEq T]

/-- `none` while it has to wait. -/
def lock (m : XLRecursiveMutex T) (t : T) : Option (XLRecursiveMutex T) :=
  if m.created then (m.mSem.lock t).map fun mSem => { m with mSem := mSem } else some m

/-- `none` where `mSem.unlock()` is undefined. -/
def unlock (m : XLRecursiveMutex T) (t : T) : Option (XLRecursiveMutex T × Bool) :=
  if m.created then (m.mSem.unlock t).map fun mSem => ({ m with mSem := mSem }, true)
  else some (m, false)

/-- `granted` is what `mSem.try_lock()` returns. -/
def tryLock (m : XLRecursiveMutex T) (t : T) (_msec : Int) (granted : Bool) :
    Option (XLRecursiveMutex T × Bool) :=
  if m.created then (m.mSem.tryLock t granted).map fun r => ({ m with mSem := r.1 }, true)
  else some (m, false)

end XLRecursiveMutex

/-- A call of a thread; of `TryLock`, whether the system grants it is part of the step. -/
inductive MutexStep (T : Type)
  | lock (t : T)
  | tryLock (t : T) (msec : Int) (granted : Bool)
  | unlock (t : T)

/-- One mutex and the threads. -/
structure MutexRun (T : Type) where
  mutex : XLRecursiveMutex T
  /-- How many times each thread has acquired it and not yet called `Unlock`. -/
  acquired : T → Nat
  /-- `mSem.unlock()` was called by a thread that does not own it. -/
  undefined : Bool

namespace MutexRun

/-- A created mutex nobody has used. -/
def start : MutexRun T where
  mutex := XLRecursiveMutex.new.create.1
  acquired := fun _ => 0
  undefined := false

variable [DecidableEq T]

/-- `Unlock` is called by a thread that holds the mutex. -/
def next (s : MutexRun T) (l : MutexStep T) : Option (MutexRun T) :=
  if s.undefined then none
  else
    match l with
    | .lock t => (s.mutex.lock t).map fun mutex =>
        { s with
          mutex := mutex, acquired := Function.update s.acquired t (s.acquired t + 1) }
    | .tryLock t msec granted => (s.mutex.tryLock t msec granted).map fun r =>
        { s with
          mutex := r.1
          acquired := if r.2 then Function.update s.acquired t (s.acquired t + 1) else s.acquired }
    | .unlock t =>
        if 0 < s.acquired t then
          match s.mutex.unlock t with
          | some (mutex, _) =>
              some { s with
                mutex := mutex, acquired := Function.update s.acquired t (s.acquired t - 1) }
          | none => some { s with undefined := true }
        else none

end MutexRun

end ServClient
