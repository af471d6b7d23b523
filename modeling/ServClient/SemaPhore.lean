/-
`XLSemaPhore`, and what its `Take` and `Give` do step by step.

The build defines `_C_11_COMPILER`, so a semaphore is a counter of permits already
taken, a bound for that counter, a mutex and a condition variable.  `Monitor` holds
one semaphore and the calls made on it by any number of threads; a step is what one
call does between two points where another may run.  The mutex excludes, waiting on
the condition variable gives the mutex up and needs it back, `notify_one` wakes a
waiter if there is one, and a waiter may also wake for no reason.

The Windows branch is `CreateSemaphore`, `WaitForSingleObject` and
`ReleaseSemaphore`: a number of permits with a limit.
-/
import ServClient.Lib.Permits

namespace ServClient

/-- The semaphore; its condition variable is where the calls stand. -/
structure XLSemaPhore where
  /-- `mSemCount`: the permits taken. -/
  semCount : Int
  /-- `mMaxCount`: the loop of `Take` waits while `mSemCount` is not below it. -/
  maxCount : Int
  created : Bool
deriving DecidableEq, Repr

namespace XLSemaPhore

/-- The constructor. -/
def new : XLSemaPhore := { semCount := 0, maxCount := 0, created := false }

/-- `Create(int)`. -/
def createCount (s : XLSemaPhore) (count : Int) : XLSemaPhore :=
  if s.created then s else { semCount := 0, maxCount := count, created := true }

/-- `Create(int, int)`. -/
def create (s : XLSemaPhore) (count maxcount : Int) : XLSemaPhore :=
  if s.created then s else { semCount := count, maxCount := maxcount, created := true }

/-- `Destroy`, all of it at once. -/
def destroy (s : XLSemaPhore) : XLSemaPhore :=
  if s.created then { semCount := 0, maxCount := 0, created := false } else s

/-- A `Take` that looks at the counter now leaves its loop. -/
def Passes (s : XLSemaPhore) : Prop := s.semCount < s.maxCount

instance (s : XLSemaPhore) : Decidable s.Passes := inferInstanceAs (Decidable (_ < _))

/-- `++mSemCount`. -/
def raise (s : XLSemaPhore) : XLSemaPhore := { s with semCount := s.semCount + 1 }

/-- `--mSemCount`. -/
def lower (s : XLSemaPhore) : XLSemaPhore := { s with semCount := s.semCount - 1 }

/-- `Take` as one step: `none` while it has to wait. -/
def take (s : XLSemaPhore) : Option XLSemaPhore :=
  if s.created then if s.Passes then some s.raise else none else some s

/-- `Give` as one step. -/
def give (s : XLSemaPhore) : XLSemaPhore := if s.created then s.lower else s

/-- The counter read as permits.  `Give` has no bound to keep to. -/
def permits (s : XLSemaPhore) : Permits :=
  { available := s.maxCount - s.semCount, limit := none }

end XLSemaPhore

/-- The Windows branch: `CreateSemaphore(NULL, count, maxcount, NULL)`. -/
def createSemaphore (count maxcount : Int) : Permits :=
  { available := count, limit := some maxcount }

/-- Where a call of `Take` is. -/
inductive TakePc
  | entered
  /-- It holds `m_Mut` and is about to look at the counter. -/
  | testing
  | asleep
  /-- It has been woken and needs `m_Mut` back. -/
  | woken
  | taken
  | returned
deriving DecidableEq, Repr

/-- Where a call of `Give` is. -/
inductive GivePc
  | entered
  | locked
  /-- It has lowered the counter and not yet notified. -/
  | lowered
  | notified
  | returned
deriving DecidableEq, Repr

/-- A call in progress, and where it is. -/
inductive SemCall
  | take (pc : TakePc)
  | give (pc : GivePc)
deriving DecidableEq, Repr

namespace SemCall

/-- A call enters, or returns at once from a semaphore that is not created. -/
def start (created : Bool) : PermitOp → SemCall
  | .take => .take (if created then .entered else .returned)
  | .give => .give (if created then .entered else .returned)

end SemCall

/-- One semaphore and the calls on it, in the order they were made. -/
structure Monitor where
  sem : XLSemaPhore
  /-- The call that holds `m_Mut`. -/
  mutex : Option Nat
  calls : List SemCall
  /-- The changes of the counter so far, in order. -/
  history : List PermitOp
deriving DecidableEq, Repr

/-- What can happen next: a new call, or a step of the `i`-th. -/
inductive SemStep
  /-- Some thread calls `Take` or `Give`. -/
  | begin (op : PermitOp)
  | lock (i : Nat)
  /-- A `Take` looks at the counter: it takes a permit or goes to sleep. -/
  | test (i : Nat)
  | lower (i : Nat)
  /-- `notify_one` wakes call `j`, or nobody. -/
  | notify (i : Nat) (j : Option Nat)
  /-- A wakeup nobody asked for. -/
  | spurious (j : Nat)
  | unlock (i : Nat)
deriving DecidableEq, Repr

namespace Monitor

/-- A semaphore nobody has called yet. -/
def ofSem (s : XLSemaPhore) : Monitor := { sem := s, mutex := none, calls := [], history := [] }

/-- One step; `none` where the call has to wait, or is somewhere else. -/
def next (m : Monitor) : SemStep → Option Monitor
  | .begin op => some { m with calls := m.calls ++ [SemCall.start m.sem.created op] }
  | .lock i =>
      if m.mutex = none then
        match m.calls[i]? with
        | some (.take .entered) | some (.take .woken) =>
            some { m with mutex := some i, calls := m.calls.set i (.take .testing) }
        | some (.give .entered) =>
            some { m with mutex := some i, calls := m.calls.set i (.give .locked) }
        | _ => none
      else none
  | .test i =>
      match m.calls[i]? with
      | some (.take .testing) =>
          if m.sem.Passes then
            some { m with sem := m.sem.raise, calls := m.calls.set i (.take .taken),
                          history := m.history ++ [.take] }
          else some { m with mutex := none, calls := m.calls.set i (.take .asleep) }
      | _ => none
  | .lower i =>
      match m.calls[i]? with
      | some (.give .locked) =>
          some { m with sem := m.sem.lower, calls := m.calls.set i (.give .lowered),
                        history := m.history ++ [.give] }
      | _ => none
  | .notify i (some j) =>
      match m.calls[i]?, m.calls[j]? with
      | some (.give .lowered), some (.take .asleep) =>
          some { m with calls := (m.calls.set j (.take .woken)).set i (.give .notified) }
      | _, _ => none
  | .notify i none =>
      match m.calls[i]? with
      | some (.give .lowered) =>
          if .take .asleep ∈ m.calls then none
          else some { m with calls := m.calls.set i (.give .notified) }
      | _ => none
  | .spurious j =>
      match m.calls[j]? with
      | some (.take .asleep) => some { m with calls := m.calls.set j (.take .woken) }
      | _ => none
  | .unlock i =>
      match m.calls[i]? with
      | some (.take .taken) =>
          some { m with mutex := none, calls := m.calls.set i (.take .returned) }
      | some (.give .notified) =>
          some { m with mutex := none, calls := m.calls.set i (.give .returned) }
      | _ => none

end Monitor

end ServClient
