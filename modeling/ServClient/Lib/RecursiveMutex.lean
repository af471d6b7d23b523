/-
A recursive mutex.

One thread owns it, to some depth, or nobody does.  Taking it again goes one deeper, and the
owner has to give it back once for each time it took it.  `lock` waits while another thread
owns it; `tryLock` does not wait, and may fail for no reason; `unlock` is defined for the
owner alone.
-/
import Mathlib.Logic.Function.Basic
import Mathlib.Tactic.Common

/-- `owned t n`: thread `t` has taken it `n + 1` times more than it has given it back. -/
inductive RecursiveMutex (T : Type*)
  | free
  | owned (t : T) (n : Nat)
deriving DecidableEq, Repr

namespace RecursiveMutex

variable {T : Type*}

/-- The thread that has the mutex, if one has. -/
def owner : RecursiveMutex T → Option T
  | free => none
  | owned t _ => some t

variable [DecidableEq T]

/-- How deep thread `t` is in. -/
def depth : RecursiveMutex T → T → Nat
  | free, _ => 0
  | owned u n, t => if t = u then n + 1 else 0

/-- `none` while it has to wait. -/
def lock (m : RecursiveMutex T) (t : T) : Option (RecursiveMutex T) :=
  match m with
  | free => some (owned t 0)
  | owned u n => if t = u then some (owned u (n + 1)) else none

/-- `granted` is whether it takes the mutex, which it can only do where `lock` would not wait. -/
def tryLock (m : RecursiveMutex T) (t : T) (granted : Bool) : Option (RecursiveMutex T × Bool) :=
  if granted then (m.lock t).map fun m' => (m', true) else some (m, false)

/-- `none` for a thread that does not own it. -/
def unlock (m : RecursiveMutex T) (t : T) : Option (RecursiveMutex T) :=
  match m with
  | free => none
  | owned u n =>
      if t = u then
        match n with
        | 0 => some free
        | n + 1 => some (owned u n)
      else none

variable {m m' : RecursiveMutex T} {t u : T}

/-! ### Depth -/

@[simp] theorem depth_free (t : T) : (free : RecursiveMutex T).depth t = 0 := rfl

theorem depth_pos : 0 < m.depth t ↔ m.owner = some t := by
  cases m with
  | free => simp [owner]
  | owned u n =>
      by_cases htu : t = u
      · simp [depth, owner, htu]
      · simp [depth, owner, htu, Ne.symm htu]

/-- Only one thread is in. -/
theorem depth_unique (ht : 0 < m.depth t) (hu : 0 < m.depth u) : t = u := by
  rw [depth_pos] at ht hu
  exact Option.some.inj (ht.symm.trans hu)

theorem lock_depth (h : m.lock t = some m') :
    m'.depth = Function.update m.depth t (m.depth t + 1) := by
  funext v
  cases m with
  | free =>
      cases h
      by_cases hvt : v = t <;> simp [depth, hvt]
  | owned u n =>
      simp only [lock] at h
      split at h
      · rename_i htu
        cases h
        subst htu
        by_cases hvt : v = t <;> simp [depth, hvt]
      · cases h

theorem unlock_depth (h : m.unlock t = some m') :
    m'.depth = Function.update m.depth t (m.depth t - 1) := by
  funext v
  cases m with
  | free => cases h
  | owned u n =>
      simp only [unlock] at h
      split at h
      · rename_i htu
        subst htu
        cases n <;> cases h <;> by_cases hvt : v = t <;> simp [depth, hvt]
      · cases h

/-! ### Who can give it back -/

theorem unlock_of_depth (h : 0 < m.depth t) : ∃ m', m.unlock t = some m' := by
  cases m with
  | free => simp at h
  | owned u n =>
      by_cases htu : t = u
      · cases n <;> simp [unlock, htu]
      · simp [depth, htu] at h

end RecursiveMutex
