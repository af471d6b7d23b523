/-
Who holds an `XLMutex`.

As long as `try_lock` takes the mutex whenever `TryLock` is called, a thread holds the mutex
to the depth to which it owns `mSem`, and only one thread owns that.  A `try_lock` that fails
gives the caller the same answer as one that does not.
-/
import ServClient.EventQueue
import ServClient.Mutex
import ServClient.Lib.Runs

namespace ServClient

open Runs

variable {T : Type} [DecidableEq T]

/-! ### The mutex of the event queue -/

namespace XLRecursiveMutex

/-- Without the depth. -/
def flat (m : XLRecursiveMutex Nat) : XLMutex := { created := m.created, owner := m.mSem.owner }

variable {m : XLRecursiveMutex Nat} {i : Nat}

/-- A thread that does not own it locks it as a call on the queue does. -/
theorem flat_lock (hother : m.mSem.owner ≠ some i) : (m.lock i).map flat = m.flat.lock i := by
  obtain ⟨mSem, created⟩ := m
  cases created with
  | false => rfl
  | true =>
      cases mSem with
      | free => rfl
      | owned u n =>
          have hiu : i ≠ u := fun heq => hother (by rw [heq]; rfl)
          simp [lock, RecursiveMutex.lock, hiu, flat, XLMutex.lock, RecursiveMutex.owner]

/-- A thread that took it once gives it back as a call on the queue does. -/
theorem flat_unlock (honce : m.mSem = .owned i 0) :
    (m.unlock i).map (fun r => r.1.flat) = some m.flat.unlock := by
  obtain ⟨mSem, created⟩ := m
  obtain rfl : mSem = .owned i 0 := honce
  cases created <;>
    simp [unlock, RecursiveMutex.unlock, flat, XLMutex.unlock, RecursiveMutex.owner]

end XLRecursiveMutex

/-! ### One holder -/

namespace MutexRun

variable {s s' : MutexRun T} {l : MutexStep T}

/-- At most one thread holds it. -/
def Exclusive (s : MutexRun T) : Prop := ∀ t u, 0 < s.acquired t → 0 < s.acquired u → t = u

/-- A `TryLock` takes the mutex. -/
def Granted (_ : MutexRun T) : MutexStep T → Prop
  | .tryLock _ _ granted => granted = true
  | _ => True

instance (s : MutexRun T) : ∀ l, Decidable (Granted s l)
  | .tryLock _ _ _ => inferInstanceAs (Decidable (_ = _))
  | .lock _ | .unlock _ => isTrue trivial

/-- A `try_lock` fails only where another thread owns the mutex. -/
def NoSpurious (s : MutexRun T) : MutexStep T → Prop
  | .tryLock t _ granted => granted = false →
      ∃ u, u ≠ t ∧ s.mutex.mSem.owner = some u
  | _ => True

/-- What a thread has acquired it owns. -/
structure Owned (s : MutexRun T) : Prop where
  created : s.mutex.created = true
  acquired : s.acquired = s.mutex.mSem.depth

theorem owned_start : Owned (start : MutexRun T) := ⟨rfl, rfl⟩

theorem Owned.exclusive (h : Owned s) : Exclusive s := by
  intro t u ht hu
  rw [h.acquired] at ht hu
  exact RecursiveMutex.depth_unique ht hu

theorem Owned.lock (h : Owned s) {t : T} (hcreated : s'.mutex.created = true)
    (hlock : s.mutex.mSem.lock t = some s'.mutex.mSem)
    (hacquired : s'.acquired = Function.update s.acquired t (s.acquired t + 1)) : Owned s' where
  created := hcreated
  acquired := by rw [hacquired, RecursiveMutex.lock_depth hlock, h.acquired]

theorem Owned.next (h : Owned s) (hgranted : Granted s l) (hstep : s.next l = some s') :
    Owned s' := by
  unfold MutexRun.next at hstep
  split at hstep
  · cases hstep
  cases l with
  | lock t =>
      simp only [XLRecursiveMutex.lock, h.created, if_true, Option.map_map] at hstep
      obtain ⟨mSem, hlock, rfl⟩ := Option.map_eq_some_iff.mp hstep
      exact h.lock rfl hlock rfl
  | tryLock t msec granted =>
      obtain rfl : granted = true := hgranted
      simp only [XLRecursiveMutex.tryLock, RecursiveMutex.tryLock, h.created, if_true,
        Option.map_map] at hstep
      obtain ⟨mSem, hlock, rfl⟩ := Option.map_eq_some_iff.mp hstep
      exact h.lock rfl hlock rfl
  | unlock t =>
      dsimp only at hstep
      split at hstep
      · rename_i hholds
        rw [h.acquired] at hholds
        obtain ⟨mSem, hunlock⟩ := RecursiveMutex.unlock_of_depth hholds
        simp only [XLRecursiveMutex.unlock, h.created, if_true, hunlock, Option.map_some,
          Option.some.injEq] at hstep
        subst hstep
        refine ⟨rfl, ?_⟩
        show Function.update s.acquired t (s.acquired t - 1) = mSem.depth
        rw [RecursiveMutex.unlock_depth hunlock, h.acquired]
      · cases hstep

/-- A `TryLock` that takes nothing, while another thread holds the mutex. -/
theorem Owned.not_granted (h : Owned s) (hspurious : NoSpurious s l) (hgranted : ¬ Granted s l)
    (hstep : s.next l = some s') : ¬ Exclusive s' := by
  cases l with
  | tryLock t msec granted =>
      obtain rfl : granted = false := Bool.eq_false_iff.mpr hgranted
      obtain ⟨u, hut, howner⟩ := hspurious rfl
      unfold MutexRun.next at hstep
      split at hstep
      · cases hstep
      simp only [XLRecursiveMutex.tryLock, RecursiveMutex.tryLock, h.created, if_true,
        Bool.false_eq_true, if_false, Option.map_some, Option.some.injEq] at hstep
      subst hstep
      intro hexcl
      have hu : 0 < s.acquired u := by
        rw [h.acquired]
        exact RecursiveMutex.depth_pos.mpr howner
      exact hut (hexcl u t (by simpa [hut] using hu) (by simp))
  | lock t => exact absurd trivial hgranted
  | unlock t => exact absurd trivial hgranted

/--
Any number of threads, and any run: at most one thread at a time holds the mutex as long as
every `try_lock` takes it; and where `try_lock` fails only for another owner, only then.
-/
theorem exclusive_iff {ls : List (MutexStep T)} (hrun : exec next start ls = some s) :
    (Along next Granted (start : MutexRun T) ls →
      Throughout next Exclusive (start : MutexRun T) ls) ∧
    (Along next NoSpurious (start : MutexRun T) ls →
      (Throughout next Exclusive (start : MutexRun T) ls ↔
        Along next Granted (start : MutexRun T) ls)) :=
  ⟨throughout_of_along (I := Owned) (fun _ _ _ hu hq hstep => hu.next hq hstep)
      (fun _ hu => hu.exclusive) owned_start,
    throughout_iff_along_given (I := Owned) (fun _ hu => hu.exclusive)
      (fun _ _ _ hu _ hq hstep => hu.next hq hstep)
      (fun _ _ _ hu hs hq hstep => hu.not_granted hs hq hstep) owned_start hrun⟩

/-- Two threads, one after the other, the first one twice. -/
def inTurn : List (MutexStep Nat) :=
  [.lock 0, .tryLock 0 0 true, .unlock 0, .unlock 0, .tryLock 1 5 true]

theorem exclusive_iff_inTurn :
    ∃ s, exec next start inTurn = some s ∧
      Throughout next Exclusive (start : MutexRun Nat) inTurn :=
  have hrun : (exec next (start : MutexRun Nat) inTurn).isSome = true := by decide
  have ⟨s, hs⟩ := Option.isSome_iff_exists.mp hrun
  ⟨s, hs, (exclusive_iff hs).1 (by decide)⟩

/-- The first thread has the mutex, and `TryLock` tells the second that it has it too. -/
theorem tryLock_second_holder :
    ∃ s, exec next (start : MutexRun Nat) [.lock 0, .tryLock 1 0 false] = some s ∧
      s.mutex.mSem = .owned 0 0 ∧ 0 < s.acquired 0 ∧ 0 < s.acquired 1 ∧ ¬ Exclusive s :=
  ⟨_, rfl, rfl, by decide, by decide, fun h => absurd (h 0 1 (by decide) (by decide)) (by decide)⟩

end MutexRun

end ServClient
