/-
What `Destroy` leaves of the calls of `Take` that wait.

Once a semaphore is not created, no call joins those that wait.  What they may still get is what
the counter allows and what the calls of `Give` in progress add to it (`supply`); each `Take` that
gets through takes one of both away, so their difference stays.  `Destroy` wakes nobody: the
others wait for good.

That this is all that keeps them is the other half.  Whoever has `m_Mut` can go on and give it
back, so as long as there is supply some `Take` can be got through.
-/
import ServClient.Proofs.SemaPhore
import ServClient.SemaPhoreLife

namespace ServClient

open Runs

/-- It has found the semaphore created and has not been let through. -/
def SemCall.waits : SemCall → Bool
  | .take .entered | .take .testing | .take .asleep | .take .woken => true
  | _ => false

/-- It has found the semaphore created and has not lowered the counter. -/
def SemCall.owes : SemCall → Bool
  | .give .entered | .give .locked => true
  | _ => false

/-- It has `m_Mut`. -/
def SemCall.locks : SemCall → Bool
  | .take .testing | .take .taken | .give .locked | .give .lowered | .give .notified => true
  | _ => false

/-- The steps a call has before it, less the waiting. -/
def SemCall.load : SemCall → Nat
  | .give .entered => 4
  | .give .locked => 3
  | .give .lowered | .take .testing => 2
  | .give .notified | .take .taken => 1
  | _ => 0

namespace Monitor

variable {m m' : Monitor} {l : SemStep}

/-- How many calls of `Take` wait. -/
def waiting (m : Monitor) : Nat := m.calls.countP SemCall.waits

/-- The permits there are, and those that are about to be given. -/
def supply (m : Monitor) : Int := m.sem.permits.available + m.calls.countP SemCall.owes

/-- One of those that wait in `m` has been let through in `t`. -/
def OneThrough (m t : Monitor) : Prop := t.waiting + 1 = m.waiting ∧ t.supply + 1 = m.supply

/-! ### The mutex excludes

`Destroy` takes no lock, so the mutex says nothing about its writes.  It still says that of the
calls of `Take` and `Give` one at a time is at the counter.
-/

/-- The call that has it is the one that is between its lock and its unlock. -/
def Locked (m : Monitor) : Prop :=
  ∀ i, m.mutex = some i ↔ ∃ c, m.calls[i]? = some c ∧ c.locks = true

theorem locked_ofSem (s : XLSemaPhore) : Locked (ofSem s) := by
  intro i
  simp [ofSem]

theorem locks_set {calls : List SemCall} {i : Nat} {a : SemCall} (hi : calls[i]? = some a)
    (b : SemCall) (j : Nat) : (∃ c, (calls.set i b)[j]? = some c ∧ c.locks = true) ↔
      j = i ∧ b.locks = true ∨ j ≠ i ∧ ∃ c, calls[j]? = some c ∧ c.locks = true := by
  by_cases hij : j = i
  · subst hij
    rw [List.getElem?_set_self (Calls.lt_of_getElem?_eq_some hi)]
    simp
  · rw [List.getElem?_set_ne (Ne.symm hij)]
    simp [hij]

/-- The call that moves has the mutex before and after, or neither. -/
theorem Locked.keep (h : Locked m) {i : Nat} {a b : SemCall} (hi : m.calls[i]? = some a)
    (hcalls : m'.calls = m.calls.set i b) (hmutex : m'.mutex = m.mutex)
    (hab : b.locks = a.locks) : Locked m' := by
  intro j
  rw [hmutex, hcalls, locks_set hi, h j, hab]
  constructor
  · rintro ⟨c, hj, hc⟩
    by_cases hij : j = i
    · subst hij
      cases hi.symm.trans hj
      exact Or.inl ⟨rfl, hc⟩
    · exact Or.inr ⟨hij, c, hj, hc⟩
  · rintro (⟨rfl, ha⟩ | ⟨-, hc⟩)
    · exact ⟨a, hi, ha⟩
    · exact hc

theorem Locked.lock (h : Locked m) {i : Nat} {a b : SemCall} (hi : m.calls[i]? = some a)
    (hfree : m.mutex = none) (hcalls : m'.calls = m.calls.set i b) (hmutex : m'.mutex = some i)
    (hb : b.locks = true) : Locked m' := by
  intro j
  rw [hmutex, hcalls, locks_set hi, ← h j, hfree]
  simp [hb, eq_comm]

theorem Locked.unlock (h : Locked m) {i : Nat} {a b : SemCall} (hi : m.calls[i]? = some a)
    (ha : a.locks = true) (hcalls : m'.calls = m.calls.set i b) (hmutex : m'.mutex = none)
    (hb : b.locks = false) : Locked m' := by
  have hheld : m.mutex = some i := (h i).mpr ⟨a, hi, ha⟩
  intro j
  rw [hmutex, hcalls, locks_set hi, ← h j, hheld]
  simp only [hb, Option.some.injEq]
  constructor
  · intro hj
    cases hj
  · rintro (⟨-, hj⟩ | ⟨hne, hj⟩)
    · cases hj
    · exact absurd hj.symm hne

theorem Locked.next (h : Locked m) (hstep : m.next l = some m') : Locked m' := by
  cases moves_of_next hstep with
  | begin op =>
      intro i
      rw [h i]
      constructor
      · rintro ⟨c, hi, hc⟩
        exact Calls.exists_concat _ ⟨c, hi, hc⟩
      · rintro ⟨c, hi, hc⟩
        rcases Calls.getElem?_concat hi with ⟨-, rfl⟩ | hold
        · cases hcreated : m.sem.created <;> cases op <;> rw [hcreated] at hc <;> cases hc
        · exact ⟨c, hold, hc⟩
  | lockEntered hi hfree | lockWoken hi hfree | lockGive hi hfree =>
      exact h.lock hi hfree rfl rfl rfl
  | pass hi | lower hi | wakeNobody hi | spurious hi => exact h.keep hi rfl rfl rfl
  | sleep hi | unlockTake hi | unlockGive hi => exact h.unlock hi rfl rfl rfl rfl
  | @wake i j hi hj =>
      have hne : j ≠ i := fun heq => by
        subst heq
        cases hi.symm.trans hj
      have hset : (m.calls.set j (.take .woken))[i]? = some (.give .lowered) := by
        rw [List.getElem?_set_ne hne, hi]
      have hwoken : Locked { m with calls := m.calls.set j (.take .woken) } :=
        h.keep hj rfl rfl rfl
      exact hwoken.keep hset rfl rfl rfl

/-! ### What those that wait may still get

Nothing adds to what there is any more: a `Give` that is under way is counted already.  A `Take`
that gets through uses one of it up, and is one caller less.
-/

/-- One call moves, in no account. -/
theorem accounts_set {i : Nat} {a b : SemCall} (hi : m.calls[i]? = some a)
    (hw : b.waits = a.waits) (ho : b.owes = a.owes) (mutex : Option Nat) :
    waiting { m with mutex := mutex, calls := m.calls.set i b } = m.waiting ∧
      supply { m with mutex := mutex, calls := m.calls.set i b } = m.supply := by
  rw [waiting, waiting, supply, supply, Calls.countP_set_same hi hw, Calls.countP_set_same hi ho]
  exact ⟨rfl, rfl⟩

/-- A `Take` that is let through takes one of both away. -/
theorem accounts_pass {i : Nat} (hi : m.calls[i]? = some (.take .testing)) (hpass : m.sem.Passes)
    (mutex : Option Nat) (history : List PermitOp) :
    OneThrough m ⟨m.sem.raise, mutex, m.calls.set i (.take .taken), history⟩ ∧ 0 < m.supply := by
  have hwaits := Calls.countP_set (.take .taken) SemCall.waits hi
  have howes := Calls.countP_set (.take .taken) SemCall.owes hi
  rw [XLSemaPhore.passes_iff] at hpass
  simp only [OneThrough, waiting, supply, XLSemaPhore.permits_raise]
  simp only [SemCall.waits, SemCall.owes, if_true, if_false, Bool.false_eq_true] at hwaits howes
  omega

/-- Where the semaphore is not created, a `Take` that is let through takes one of both away, and
nothing else changes either. -/
theorem accounts (hc : m.sem.created = false) (hstep : m.next l = some m') :
    m'.sem.created = false ∧ (m'.waiting = m.waiting ∧ m'.supply = m.supply ∨
      OneThrough m m' ∧ 0 < m.supply) := by
  cases moves_of_next hstep with
  | begin op =>
      refine ⟨hc, Or.inl ?_⟩
      rw [waiting, waiting, supply, supply, Calls.countP_concat, Calls.countP_concat, hc]
      cases op <;> simp [SemCall.start, SemCall.waits, SemCall.owes]
  | lockEntered hi | lockWoken hi | lockGive hi | sleep hi | wakeNobody hi | spurious hi
  | unlockTake hi | unlockGive hi =>
      refine ⟨hc, Or.inl (accounts_set hi ?_ ?_ _)⟩ <;> rfl
  | @wake i j hi hj =>
      have hne : j ≠ i := fun heq => by
        subst heq
        cases hi.symm.trans hj
      have hset : ({ m with mutex := m.mutex, calls := m.calls.set j (.take .woken) } :
          Monitor).calls[i]? = some (.give .lowered) := by
        rw [List.getElem?_set_ne hne, hi]
      obtain ⟨hwaiting, hsupply⟩ := accounts_set (b := .take .woken) hj rfl rfl m.mutex
      obtain ⟨hwaiting', hsupply'⟩ := accounts_set (b := .give .notified) hset rfl rfl m.mutex
      exact ⟨hc, Or.inl ⟨hwaiting'.trans hwaiting, hsupply'.trans hsupply⟩⟩
  | pass hi hpass => exact ⟨hc, Or.inr (accounts_pass hi hpass _ _)⟩
  | @lower i hi =>
      have hwaits := Calls.countP_set (.give .lowered) SemCall.waits hi
      have howes := Calls.countP_set (.give .lowered) SemCall.owes hi
      refine ⟨hc, Or.inl ?_⟩
      simp only [waiting, supply, XLSemaPhore.permits_lower]
      simp only [SemCall.waits, SemCall.owes, if_true, if_false, Bool.false_eq_true] at hwaits howes
      omega

/-! ### No more than that get through -/

/-- However many have been let through, it is not more than there was. -/
theorem spent_exec {ls : List SemStep} (hc : m.sem.created = false)
    (hrun : exec next m ls = some m') :
    ∃ n : Nat, m'.waiting + n = m.waiting ∧ m'.supply + n = m.supply ∧
      (n = 0 ∨ 0 ≤ m'.supply) := by
  have hstep : ∀ u l v, (u.sem.created = false ∧ ∃ n : Nat, u.waiting + n = m.waiting ∧
      u.supply + n = m.supply ∧ (n = 0 ∨ 0 ≤ u.supply)) → next u l = some v →
      v.sem.created = false ∧ ∃ n : Nat, v.waiting + n = m.waiting ∧
        v.supply + n = m.supply ∧ (n = 0 ∨ 0 ≤ v.supply) := by
    rintro u l v ⟨hu, n, hwaiting, hsupply, hn⟩ hl
    obtain ⟨hv, ⟨hw, hs⟩ | ⟨⟨hw, hs⟩, hpos⟩⟩ := accounts hu hl
    · exact ⟨hv, n, by omega, by omega, by omega⟩
    · exact ⟨hv, n + 1, by omega, by omega, by omega⟩
  exact (exec_invariant hstep ⟨hc, 0, rfl, by simp, Or.inl rfl⟩ hrun).2

/-! ### As many can get through

The other bound: one more can be let through while there is a permit, since those in front of it can
be made to go on.  A sleeper wakes by chance, if by nothing else.
-/

/-- How much the calls have still to do, at most. -/
def load (m : Monitor) : Nat := (m.calls.map SemCall.load).sum

theorem load_lt {i : Nat} {a b : SemCall} (hi : m.calls[i]? = some a)
    (hcalls : m'.calls = m.calls.set i b) (hless : b.load < a.load) : m'.load < m.load := by
  have hsum := Calls.sum_set b SemCall.load hi
  rw [load, load, hcalls]
  omega

/-- While a permit is still to come, whoever has the mutex goes on, or else a `Give`. -/
theorem Locked.goesOn (h : Locked m) (hs : 0 < m.supply) :
    m.mutex = none ∧ m.sem.Passes ∨ ∃ l m', m.next l = some m' ∧ m'.load < m.load := by
  cases hmutex : m.mutex with
  | none =>
      by_cases hpass : m.sem.Passes
      · exact Or.inl ⟨rfl, hpass⟩
      · rw [XLSemaPhore.passes_iff] at hpass
        have howes : 0 < m.calls.countP SemCall.owes := by
          rw [supply] at hs
          omega
        obtain ⟨c, hmem, hc⟩ := List.countP_pos_iff.mp howes
        obtain ⟨i, hi⟩ := List.mem_iff_getElem?.mp hmem
        cases c with
        | take pc => cases hc
        | give pc =>
            cases pc with
            | entered =>
                refine Or.inr ⟨.lock i, _,
                  by simp only [Monitor.next, hmutex, hi, if_true]; rfl, ?_⟩
                exact load_lt hi rfl (by decide)
            | locked =>
                have hheld := (h i).mpr ⟨_, hi, rfl⟩
                rw [hmutex] at hheld
                cases hheld
            | lowered | notified | returned => cases hc
  | some i =>
      obtain ⟨c, hi, hc⟩ := (h i).mp hmutex
      refine Or.inr ?_
      cases c with
      | take pc =>
          cases pc with
          | testing =>
              by_cases hpass : m.sem.Passes
              · refine ⟨.test i, _, by simp only [Monitor.next, hi, if_pos hpass]; rfl, ?_⟩
                exact load_lt hi rfl (by decide)
              · refine ⟨.test i, _, by simp only [Monitor.next, hi, if_neg hpass]; rfl, ?_⟩
                exact load_lt hi rfl (by decide)
          | taken =>
              refine ⟨.unlock i, _, by simp only [Monitor.next, hi]; rfl, ?_⟩
              exact load_lt hi rfl (by decide)
          | entered | asleep | woken | returned => cases hc
      | give pc =>
          cases pc with
          | locked =>
              refine ⟨.lower i, _, by simp only [Monitor.next, hi]; rfl, ?_⟩
              exact load_lt hi rfl (by decide)
          | lowered =>
              by_cases hasleep : SemCall.take .asleep ∈ m.calls
              · obtain ⟨j, hj⟩ := List.mem_iff_getElem?.mp hasleep
                have hne : j ≠ i := fun heq => by
                  subst heq
                  cases hi.symm.trans hj
                have hset : (m.calls.set j (.take .woken))[i]? = some (.give .lowered) := by
                  rw [List.getElem?_set_ne hne, hi]
                refine ⟨.notify i (some j), _, by simp only [Monitor.next, hi, hj]; rfl, ?_⟩
                have hwoken := Calls.sum_set (.take .woken) SemCall.load hj
                have hnotified := Calls.sum_set (.give .notified) SemCall.load hset
                simp only [load]
                simp only [SemCall.load] at hwoken hnotified
                omega
              · refine ⟨.notify i none, _, by simp only [Monitor.next, hi, if_neg hasleep]; rfl, ?_⟩
                exact load_lt hi rfl (by decide)
          | notified =>
              refine ⟨.unlock i, _, by simp only [Monitor.next, hi]; rfl, ?_⟩
              exact load_lt hi rfl (by decide)
          | entered | returned => cases hc

/-- With the mutex free and a permit there, a `Take` that is awake can be let through. -/
theorem let_awake_through {i : Nat} {a : SemCall} (hi : m.calls[i]? = some a)
    (ha : a = .take .entered ∨ a = .take .woken) (hfree : m.mutex = none) (hpass : m.sem.Passes) :
    ∃ m', exec next m [.lock i, .test i] = some m' ∧ OneThrough m m' := by
  have hi' : (m.calls.set i (.take .testing))[i]? = some (.take .testing) :=
    List.getElem?_set_self (Calls.lt_of_getElem?_eq_some hi)
  have hlock : m.next (.lock i) =
      some { m with mutex := some i, calls := m.calls.set i (.take .testing) } := by
    rcases ha with rfl | rfl <;> simp only [next, hfree, hi, if_true]
  have htest : next { m with mutex := some i, calls := m.calls.set i (.take .testing) } (.test i) =
      some ⟨m.sem.raise, some i, (m.calls.set i (.take .testing)).set i (.take .taken),
        m.history ++ [.take]⟩ := by
    simp only [next, hi', if_pos hpass]
  refine ⟨_, exec_cons_eq_some.mpr ⟨_, hlock, exec_single htest⟩, ?_⟩
  obtain ⟨hwaiting, hsupply⟩ :=
    accounts_set (b := .take .testing) hi (by rcases ha with rfl | rfl <;> rfl)
      (by rcases ha with rfl | rfl <;> rfl) (some i)
  obtain ⟨⟨hwaiting', hsupply'⟩, -⟩ := accounts_pass
    (m := { m with mutex := some i, calls := m.calls.set i (.take .testing) }) hi' hpass (some i)
    (m.history ++ [.take])
  exact ⟨hwaiting'.trans hwaiting, hsupply'.trans hsupply⟩

/-- And one that sleeps, since it may wake for no reason. -/
theorem Locked.let_through (h : Locked m) (hfree : m.mutex = none) (hpass : m.sem.Passes)
    (hw : 0 < m.waiting) : ∃ ls m', exec Monitor.next m ls = some m' ∧ OneThrough m m' := by
  obtain ⟨c, hmem, hc⟩ := List.countP_pos_iff.mp hw
  obtain ⟨i, hi⟩ := List.mem_iff_getElem?.mp hmem
  cases c with
  | give pc => cases hc
  | take pc =>
      cases pc with
      | entered => exact ⟨_, let_awake_through hi (Or.inl rfl) hfree hpass⟩
      | woken => exact ⟨_, let_awake_through hi (Or.inr rfl) hfree hpass⟩
      | testing =>
          have hheld := (h i).mpr ⟨_, hi, rfl⟩
          rw [hfree] at hheld
          cases hheld
      | asleep =>
          have hi' : (m.calls.set i (.take .woken))[i]? = some (.take .woken) :=
            List.getElem?_set_self (Calls.lt_of_getElem?_eq_some hi)
          have hwake : m.next (.spurious i) =
              some { m with calls := m.calls.set i (.take .woken) } := by
            simp only [Monitor.next, hi]
          obtain ⟨m', hrun, hwaiting, hsupply⟩ := let_awake_through
            (m := { m with calls := m.calls.set i (.take .woken) }) hi' (Or.inr rfl) hfree hpass
          obtain ⟨hwaiting', hsupply'⟩ := accounts_set (b := .take .woken) hi rfl rfl m.mutex
          exact ⟨_, m', exec_cons_eq_some.mpr ⟨_, hwake, hrun⟩, hwaiting.trans hwaiting',
            hsupply.trans hsupply'⟩
      | taken | returned => cases hc

/-- One `Take` can be let through. -/
theorem Locked.once (h : Locked m) (hc : m.sem.created = false) (hw : 0 < m.waiting)
    (hs : 0 < m.supply) : ∃ ls m', exec Monitor.next m ls = some m' ∧ Locked m' ∧
      m'.sem.created = false ∧ OneThrough m m' := by
  have hway : ∀ t, (Locked t ∧ t.sem.created = false ∧
      (t.waiting = m.waiting ∧ t.supply = m.supply ∨ OneThrough m t)) →
      (OneThrough m t ∨ t.mutex = none ∧ t.sem.Passes) ∨
        ∃ l t', t.next l = some t' ∧ (Locked t' ∧ t'.sem.created = false ∧
          (t'.waiting = m.waiting ∧ t'.supply = m.supply ∨ OneThrough m t')) ∧
          t'.load < t.load := by
    rintro t ⟨ht, htc, ⟨hwaiting, hsupply⟩ | hone⟩
    · rcases ht.goesOn (hsupply ▸ hs) with hready | ⟨l, t', hstep, hless⟩
      · exact Or.inl (Or.inr hready)
      · obtain ⟨htc', hsame⟩ := accounts htc hstep
        refine Or.inr ⟨l, t', hstep, ⟨ht.next hstep, htc', ?_⟩, hless⟩
        rw [OneThrough, hwaiting, hsupply] at hsame
        exact hsame.imp_right And.left
    · exact Or.inl (Or.inl hone)
  obtain ⟨ls, t, hls, ⟨ht, htc, hcase⟩, hgoal⟩ :=
    exec_reaches load hway ⟨h, hc, Or.inl ⟨rfl, rfl⟩⟩
  by_cases hone : OneThrough m t
  · exact ⟨ls, t, hls, ht, htc, hone⟩
  · obtain ⟨hwaiting, hsupply⟩ := hcase.resolve_right hone
    obtain ⟨hfree, hpass⟩ := hgoal.resolve_left hone
    obtain ⟨ms, u, hms, hwaiting', hsupply'⟩ := ht.let_through hfree hpass (hwaiting ▸ hw)
    have hu := exec_invariant (I := fun v => Locked v ∧ v.sem.created = false)
      (fun _ _ _ hv hstep => ⟨hv.1.next hstep, (accounts hv.2 hstep).1⟩) ⟨ht, htc⟩ hms
    exact ⟨ls ++ ms, u, exec_append_some hls hms, hu.1, hu.2, hwaiting'.trans hwaiting,
      hsupply'.trans hsupply⟩

/-- As many as wait, as far as the supply goes. -/
theorem Locked.some_through (h : Locked m) (hc : m.sem.created = false) {n : Nat}
    (hw : n ≤ m.waiting) (hs : n = 0 ∨ (n : Int) ≤ m.supply) :
    ∃ ls m', exec Monitor.next m ls = some m' ∧ m'.waiting + n = m.waiting := by
  induction n generalizing m with
  | zero => exact ⟨[], m, rfl, rfl⟩
  | succ n ih =>
      obtain ⟨ls, t, hls, ht, htc, hwaiting, hsupply⟩ := h.once hc (by omega) (by omega)
      obtain ⟨ms, u, hms, hu⟩ := ih ht htc (by omega) (by omega)
      exact ⟨ls ++ ms, u, exec_append_some hls hms, by omega⟩

end Monitor

/-! ### Whole runs -/

namespace SemaPhoreLife

variable {s s' : SemaPhoreLife} {l : SemaPhoreLifeStep}

/-- With nothing between its writes, `Destroy` is one step and leaves no permit. -/
theorem exec_destroy (hidle : s.destroy = .idle) (hc : s.monitor.sem.created = true) :
    exec next s [.destroy, .destroy, .destroy] =
      some { s with monitor := { s.monitor with sem := s.monitor.sem.destroy } } ∧
    Monitor.supply { s.monitor with sem := s.monitor.sem.destroy } =
      s.monitor.calls.countP SemCall.owes := by
  constructor
  · simp [exec_cons, next, destroyStep, setSem, hidle, hc, XLSemaPhore.destroy]
  · simp [Monitor.supply, XLSemaPhore.destroy, hc, XLSemaPhore.permits]

/-- What every step keeps. -/
structure Sound (s : SemaPhoreLife) : Prop where
  locked : s.monitor.Locked
  created : s.destroy ≠ .idle → s.monitor.sem.created = true

theorem sound_ofSem (sem : XLSemaPhore) : Sound (ofSem sem) where
  locked := Monitor.locked_ofSem sem
  created := fun hpc => absurd rfl hpc

theorem Sound.next (h : Sound s) (hstep : s.next l = some s') : Sound s' := by
  cases l with
  | call sl =>
      obtain ⟨monitor, hnext, rfl⟩ := Option.map_eq_some_iff.mp hstep
      refine ⟨h.locked.next hnext, fun hpc => ?_⟩
      have hcreated := h.created hpc
      cases Monitor.moves_of_next hnext <;> exact hcreated
  | destroy =>
      cases hstep
      unfold destroyStep
      split
      · split
        · rename_i hcreated
          exact ⟨h.locked, fun _ => hcreated⟩
        · exact h
      · rename_i hpc
        exact ⟨h.locked, fun _ => h.created (by rw [hpc]; decide)⟩
      · exact ⟨h.locked, fun hpc => absurd rfl hpc⟩

/-- Once the semaphore is not created, `Destroy` does nothing. -/
theorem Sound.exec_monitor (h : Sound s) (hdown : s.monitor.sem.created = false)
    {ls : List SemaPhoreLifeStep} (hrun : Runs.exec SemaPhoreLife.next s ls = some s') :
    ∃ ms, exec Monitor.next s.monitor ms = some s'.monitor := by
  have hstep : ∀ u m l v, (Sound u ∧ u.monitor.sem.created = false ∧ u.monitor = m) →
      SemaPhoreLife.next u l = some v → ∃ ms t, exec Monitor.next m ms = some t ∧
        Sound v ∧ v.monitor.sem.created = false ∧ v.monitor = t := by
    rintro u m l v ⟨hu, hc, rfl⟩ hl
    have hv := hu.next hl
    cases l with
    | call sl =>
        obtain ⟨monitor, hnext, rfl⟩ := Option.map_eq_some_iff.mp hl
        exact ⟨[sl], monitor, exec_single hnext, hv, (Monitor.accounts hc hnext).1, rfl⟩
    | destroy =>
        have hidle : u.destroy = .idle := by
          by_contra hpc
          rw [hu.created hpc] at hc
          cases hc
        have hsame : v = u := by
          simp only [SemaPhoreLife.next, destroyStep, hidle, hc, Bool.false_eq_true, if_false,
            Option.some.injEq] at hl
          exact hl.symm
        rw [hsame] at hv ⊢
        exact ⟨[], u.monitor, rfl, hv, hc, rfl⟩
  obtain ⟨ms, t, hms, -, -, rfl⟩ := exec_simulation hstep ⟨h, hdown, rfl⟩ hrun
  exact ⟨ms, hms⟩

/--
Once `mbCreated` is written by `Destroy`: exactly as many of the calls of `Take` that wait can
still be let through as there are permits and calls of `Give` in progress.
-/
theorem through_iff (sem : XLSemaPhore) {ls : List SemaPhoreLifeStep}
    (hrun : exec next (ofSem sem) ls = some s) (hdown : s.monitor.sem.created = false) (n : Nat) :
    (∃ ms t, exec next s ms = some t ∧ t.monitor.waiting + n = s.monitor.waiting) ↔
      n ≤ s.monitor.waiting ∧ (n : Int) ≤ max 0 s.monitor.supply := by
  have hs : Sound s :=
    exec_invariant (fun _ _ _ hu hstep => Sound.next hu hstep) (sound_ofSem sem) hrun
  constructor
  · rintro ⟨ms, t, hms, hn⟩
    obtain ⟨ks, hks⟩ := hs.exec_monitor hdown hms
    obtain ⟨k, hwaiting, hsupply, hk⟩ := Monitor.spent_exec hdown hks
    omega
  · rintro ⟨hw, hsupply⟩
    obtain ⟨ms, m, hms, hm⟩ := hs.locked.some_through hdown hw (by omega)
    have hcall : ∀ sl ∈ ms, ∀ u v, Monitor.next u sl = some v →
        next { s with monitor := u } (.call sl) = some { s with monitor := v } := by
      intro sl _ u v huv
      simp only [next, huv, Option.map_some]
    exact ⟨_, _, exec_lift (fun m => { s with monitor := m }) SemaPhoreLifeStep.call hcall hms, hm⟩

/-- A `Take` waits for the permit of another, and the semaphore is destroyed. -/
def destroyedRun : List SemaPhoreLifeStep :=
  [.call (.begin .take), .call (.lock 0), .call (.test 0), .call (.unlock 0),
    .call (.begin .take), .call (.lock 1), .call (.test 1), .destroy, .destroy, .destroy]

/-- It waits for good. -/
theorem through_iff_destroyed :
    ∃ s, exec next (ofSem (XLSemaPhore.new.create 0 1)) destroyedRun = some s ∧
      s.monitor.waiting = 1 ∧
      ¬ ∃ ms t, exec next s ms = some t ∧ t.monitor.waiting + 1 = s.monitor.waiting := by
  obtain ⟨s, hs, hend⟩ := (Option.any_eq_true _ _).mp
    (show (exec next (ofSem (XLSemaPhore.new.create 0 1)) destroyedRun).any
      (fun s => !s.monitor.sem.created && s.monitor.waiting == 1 && s.monitor.supply == 0) = true
      by decide)
  simp only [Bool.and_eq_true, Bool.not_eq_true', beq_iff_eq] at hend
  obtain ⟨⟨hdown, hwaiting⟩, hsupply⟩ := hend
  refine ⟨s, hs, hwaiting, ?_⟩
  rw [through_iff _ hs hdown 1, hsupply]
  simp

end SemaPhoreLife

end ServClient
