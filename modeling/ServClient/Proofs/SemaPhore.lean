/-
The C++11 semaphore as a counting semaphore.

`mMaxCount - mSemCount` behaves as a number of permits without a limit, however the
steps of the calls interleave: `exec_permits` is that simulation, and `exec_of_permits`
says that no history of such permits is missing.

Against the Windows branch two things are off.  `Create(count, maxcount)` starts with
`maxcount - count` permits where `CreateSemaphore` starts with `count`; and `Give` has
no bound where `ReleaseSemaphore` stops at `maxcount`.  So the two agree exactly when
the two starting numbers happen to be equal, and only until a `Give` is made at the
maximum.
-/
import ServClient.SemaPhore
import ServClient.Lib.Calls

namespace ServClient

open Runs

namespace XLSemaPhore

@[simp] theorem permits_raise (s : XLSemaPhore) :
    s.raise.permits = { s.permits with available := s.permits.available - 1 } := by
  simp only [permits, raise, Permits.mk.injEq, and_true]
  omega

@[simp] theorem permits_lower (s : XLSemaPhore) :
    s.lower.permits = { s.permits with available := s.permits.available + 1 } := by
  simp only [permits, lower, Permits.mk.injEq, and_true]
  omega

@[simp] theorem permits_limit (s : XLSemaPhore) : s.permits.limit = none := rfl

theorem passes_iff (s : XLSemaPhore) : s.Passes ↔ 0 < s.permits.available := by
  unfold Passes permits
  constructor <;> intro h <;> simp only at h ⊢ <;> omega

theorem take_created {s s' : XLSemaPhore} (hc : s.created = true) (h : s.take = some s') :
    s.Passes ∧ s' = s.raise := by
  rw [take, if_pos hc] at h
  split at h
  · rename_i hpass
    cases h
    exact ⟨hpass, rfl⟩
  · cases h

theorem next_take {s : XLSemaPhore} (h : s.Passes) :
    s.permits.next .take = some s.raise.permits := by
  rw [passes_iff] at h
  simp [Permits.next, h]

theorem next_give (s : XLSemaPhore) : s.permits.next .give = some s.lower.permits := by
  simp [Permits.next]

/-- A `Take` needs a permit and uses it up. -/
theorem take_permits {s s' : XLSemaPhore} (hc : s.created = true) (h : s.take = some s') :
    0 < s.permits.available ∧ s'.permits.available = s.permits.available - 1 ∧
      s'.created = true := by
  obtain ⟨hpass, rfl⟩ := take_created hc h
  exact ⟨(passes_iff s).mp hpass, by rw [permits_raise], hc⟩

/-- A `Give` adds one. -/
theorem give_permits {s : XLSemaPhore} (hc : s.created = true) :
    s.give.permits.available = s.permits.available + 1 ∧ s.give.created = true := by
  rw [give, if_pos hc, permits_lower]
  exact ⟨rfl, hc⟩

/-- Without a permit a `Take` waits. -/
theorem take_eq_none {s : XLSemaPhore} (hc : s.created = true) (h : s.permits.available = 0) :
    s.take = none := by
  rw [take, if_pos hc, if_neg]
  rw [passes_iff, h]
  exact Int.lt_irrefl 0

/-- A `Take` does not wait. -/
def Open (s : XLSemaPhore) : Prop := s.created = true → s.Passes

theorem Open.take {s : XLSemaPhore} (h : Open s) : ∃ s', s.take = some s' := by
  unfold XLSemaPhore.take
  split
  · rename_i hc
    exact ⟨s.raise, if_pos (h hc)⟩
  · exact ⟨s, rfl⟩

theorem Open.give {s : XLSemaPhore} (h : Open s) : Open s.give := by
  unfold XLSemaPhore.give
  split
  · intro hc
    have hpasses : s.semCount < s.maxCount := h hc
    show s.semCount - 1 < s.maxCount
    omega
  · exact h

theorem give_created (s : XLSemaPhore) : s.give.created = s.created := by
  unfold XLSemaPhore.give
  split <;> rfl

/-- `Create(0, 1)` leaves one `Take` to pass. -/
theorem Open.create {s : XLSemaPhore} (h : Open s) : Open (s.create 0 1) := by
  unfold XLSemaPhore.create
  split
  · exact h
  · exact fun _ => by decide

theorem destroy_created (s : XLSemaPhore) : s.destroy.created = false := by
  unfold XLSemaPhore.destroy
  split
  · rfl
  · rename_i hc
    exact Bool.eq_false_iff.mpr hc

theorem Open.of_not_created {s : XLSemaPhore} (h : s.created = false) : Open s := fun hc => by
  rw [h] at hc
  cases hc

/-- A `Take` that was past the test of `mbCreated` when the semaphore was destroyed has to wait. -/
def Shut (s : XLSemaPhore) : Prop := s.created = false → ¬ s.Passes

theorem shut_new : Shut new := fun _ => by decide

theorem Shut.of_created {s : XLSemaPhore} (h : s.created = true) : Shut s := fun hc => by
  rw [h] at hc
  cases hc

theorem Shut.create {s : XLSemaPhore} (count maxcount : Int) : Shut (s.create count maxcount) := by
  refine .of_created ?_
  unfold XLSemaPhore.create
  split
  · assumption
  · rfl

theorem Shut.give {s : XLSemaPhore} (h : Shut s) : Shut s.give := by
  unfold XLSemaPhore.give
  split
  · exact .of_created ‹_›
  · exact h

/-- Only a semaphore that is there lets a `Take` through. -/
theorem Shut.raise {s : XLSemaPhore} (h : Shut s) (hpass : s.Passes) : Shut s.raise := by
  refine .of_created ?_
  show s.created = true
  by_contra hc
  exact h (by simpa using hc) hpass

theorem Shut.destroy {s : XLSemaPhore} (h : Shut s) : Shut s.destroy := by
  unfold XLSemaPhore.destroy
  split
  · exact fun _ => by decide
  · exact h

end XLSemaPhore

namespace Monitor

/-! ### What one step can do -/

/-- What one step can do, with what it finds. -/
inductive Moves (m : Monitor) : SemStep → Monitor → Prop
  | begin (op) : Moves m (.begin op)
      { m with calls := m.calls ++ [SemCall.start m.sem.created op] }
  | lockEntered {i} (hi : m.calls[i]? = some (.take .entered)) (hfree : m.mutex = none) :
      Moves m (.lock i) { m with mutex := some i, calls := m.calls.set i (.take .testing) }
  | lockWoken {i} (hi : m.calls[i]? = some (.take .woken)) (hfree : m.mutex = none) :
      Moves m (.lock i) { m with mutex := some i, calls := m.calls.set i (.take .testing) }
  | lockGive {i} (hi : m.calls[i]? = some (.give .entered)) (hfree : m.mutex = none) :
      Moves m (.lock i) { m with mutex := some i, calls := m.calls.set i (.give .locked) }
  | pass {i} (hi : m.calls[i]? = some (.take .testing)) (hpass : m.sem.Passes) :
      Moves m (.test i) { m with
        sem := m.sem.raise
        calls := m.calls.set i (.take .taken)
        history := m.history ++ [.take] }
  | sleep {i} (hi : m.calls[i]? = some (.take .testing)) (hpass : ¬ m.sem.Passes) :
      Moves m (.test i) { m with mutex := none, calls := m.calls.set i (.take .asleep) }
  | lower {i} (hi : m.calls[i]? = some (.give .locked)) :
      Moves m (.lower i) { m with
        sem := m.sem.lower
        calls := m.calls.set i (.give .lowered)
        history := m.history ++ [.give] }
  | wake {i j} (hi : m.calls[i]? = some (.give .lowered))
      (hj : m.calls[j]? = some (.take .asleep)) :
      Moves m (.notify i (some j)) { m with
        calls := (m.calls.set j (.take .woken)).set i (.give .notified) }
  | wakeNobody {i} (hi : m.calls[i]? = some (.give .lowered))
      (hnone : SemCall.take .asleep ∉ m.calls) :
      Moves m (.notify i none) { m with calls := m.calls.set i (.give .notified) }
  | spurious {j} (hj : m.calls[j]? = some (.take .asleep)) :
      Moves m (.spurious j) { m with calls := m.calls.set j (.take .woken) }
  | unlockTake {i} (hi : m.calls[i]? = some (.take .taken)) :
      Moves m (.unlock i) { m with mutex := none, calls := m.calls.set i (.take .returned) }
  | unlockGive {i} (hi : m.calls[i]? = some (.give .notified)) :
      Moves m (.unlock i) { m with mutex := none, calls := m.calls.set i (.give .returned) }

theorem moves_of_next {m m' : Monitor} {l : SemStep} (h : m.next l = some m') : Moves m l m' := by
  cases l with
  | begin op => cases h; exact .begin op
  | lock i =>
      simp only [next] at h
      split at h
      · rename_i hfree
        split at h
        · rename_i hi; cases h; exact .lockEntered hi hfree
        · rename_i hi; cases h; exact .lockWoken hi hfree
        · rename_i hi; cases h; exact .lockGive hi hfree
        · cases h
      · cases h
  | test i =>
      simp only [next] at h
      split at h
      · rename_i hi
        split at h
        · rename_i hpass; cases h; exact .pass hi hpass
        · rename_i hpass; cases h; exact .sleep hi hpass
      · cases h
  | lower i =>
      simp only [next] at h
      split at h
      · rename_i hi; cases h; exact .lower hi
      · cases h
  | notify i j =>
      cases j with
      | some j =>
          simp only [next] at h
          split at h
          · rename_i hi hj; cases h; exact .wake hi hj
          · cases h
      | none =>
          simp only [next] at h
          split at h
          · rename_i hi
            split at h
            · cases h
            · rename_i hnone; cases h; exact .wakeNobody hi hnone
          · cases h
  | spurious j =>
      simp only [next] at h
      split at h
      · rename_i hj; cases h; exact .spurious hj
      · cases h
  | unlock i =>
      simp only [next] at h
      split at h
      · rename_i hi; cases h; exact .unlockTake hi
      · rename_i hi; cases h; exact .unlockGive hi
      · cases h

/-! ### Every step is a step of the permits, or none

The source has a mutex, a counter and a condition variable.  What a caller sees of them is permits:
a step takes one, gives one, or does nothing.
-/

/-- A step leaves the counter alone, or is one operation on the permits and is recorded. -/
theorem next_permits {m m' : Monitor} {l : SemStep} (h : m.next l = some m') :
    (m'.sem = m.sem ∧ m'.history = m.history) ∨
      ∃ op, m.sem.permits.next op = some m'.sem.permits ∧ m'.history = m.history ++ [op] := by
  cases moves_of_next h with
  | pass hi hpass => exact Or.inr ⟨.take, XLSemaPhore.next_take hpass, rfl⟩
  | lower hi => exact Or.inr ⟨.give, XLSemaPhore.next_give _, rfl⟩
  | begin | lockEntered | lockWoken | lockGive | sleep | wake | wakeNobody | spurious
  | unlockTake | unlockGive => exact Or.inl ⟨rfl, rfl⟩

/-- A run of the calls is a history of the permits. -/
theorem exec_permits :
    ∀ {m m' : Monitor} {ls : List SemStep}, exec next m ls = some m' →
      ∃ h, m'.history = m.history ++ h ∧
        exec Permits.next m.sem.permits h = some m'.sem.permits := by
  intro m m' ls hrun
  induction ls generalizing m with
  | nil => cases hrun; exact ⟨[], by simp, rfl⟩
  | cons l rest ih =>
      obtain ⟨u, hl, hrest⟩ := exec_cons_eq_some.mp hrun
      obtain ⟨h, hhist, hexec⟩ := ih hrest
      rcases next_permits hl with ⟨hsem, hsame⟩ | ⟨op, hop, hmore⟩
      · exact ⟨h, by rw [hhist, hsame], by rw [← hsem]; exact hexec⟩
      · refine ⟨op :: h, by rw [hhist, hmore]; simp, ?_⟩
        rw [exec_cons, hop]
        exact hexec

theorem exec_permits_ofSem {s : XLSemaPhore} {m : Monitor} {ls : List SemStep}
    (hrun : exec next (ofSem s) ls = some m) :
    exec Permits.next s.permits m.history = some m.sem.permits := by
  obtain ⟨h, hhist, hexec⟩ := exec_permits hrun
  rw [hhist]
  exact hexec

/-! ### And every history of the permits is a run of calls

For the converse the calls are made one at a time, none of which then has to wait.
-/

/-- Between calls: the mutex is free and nobody sleeps. -/
structure Quiet (m : Monitor) : Prop where
  created : m.sem.created = true
  free : m.mutex = none
  awake : SemCall.take .asleep ∉ m.calls

theorem quiet_ofSem {s : XLSemaPhore} (h : s.created = true) : Quiet (ofSem s) :=
  ⟨h, rfl, by simp [ofSem]⟩

/-- A `Take` that finds a permit, from its call to its return. -/
theorem exec_take {m : Monitor} (hm : Quiet m) (hpass : m.sem.Passes) :
    exec next m [.begin .take, .lock m.calls.length, .test m.calls.length,
        .unlock m.calls.length] =
      some { m with sem := m.sem.raise, calls := m.calls ++ [.take .returned],
                    history := m.history ++ [.take] } := by
  simp [exec_cons, next, SemCall.start, hm.created, hm.free, hpass]

/-- A `Give`, from its call to its return. -/
theorem exec_give {m : Monitor} (hm : Quiet m) :
    exec next m [.begin .give, .lock m.calls.length, .lower m.calls.length,
        .notify m.calls.length none, .unlock m.calls.length] =
      some { m with sem := m.sem.lower, calls := m.calls ++ [.give .returned],
                    history := m.history ++ [.give] } := by
  simp [exec_cons, next, SemCall.start, hm.created, hm.free, hm.awake]

/-- A history of the permits, played by one call after the other. -/
theorem exec_of_permits :
    ∀ {h : List PermitOp} {m : Monitor} {p : Permits}, Quiet m →
      exec Permits.next m.sem.permits h = some p →
      ∃ ls m', exec next m ls = some m' ∧ m'.history = m.history ++ h ∧ m'.sem.permits = p := by
  intro h
  induction h with
  | nil => intro m p _ hexec; cases hexec; exact ⟨[], m, rfl, by simp, rfl⟩
  | cons op rest ih =>
      intro m p hm hexec
      obtain ⟨q, hop, hrest⟩ := exec_cons_eq_some.mp hexec
      cases op with
      | take =>
          have hpass : m.sem.Passes := by
            rw [XLSemaPhore.passes_iff]
            by_contra hneg
            simp [Permits.next, hneg] at hop
          rw [XLSemaPhore.next_take hpass, Option.some.injEq] at hop
          rw [← hop] at hrest
          obtain ⟨ls, m', hls, hhist, hperm⟩ := ih
            (m := { m with sem := m.sem.raise, calls := m.calls ++ [.take .returned],
                           history := m.history ++ [.take] })
            ⟨hm.created, hm.free, by simpa using hm.awake⟩ hrest
          exact ⟨_, m', exec_append_some (exec_take hm hpass) hls, by simpa using hhist, hperm⟩
      | give =>
          rw [XLSemaPhore.next_give, Option.some.injEq] at hop
          rw [← hop] at hrest
          obtain ⟨ls, m', hls, hhist, hperm⟩ := ih
            (m := { m with sem := m.sem.lower, calls := m.calls ++ [.give .returned],
                           history := m.history ++ [.give] })
            ⟨hm.created, hm.free, by simpa using hm.awake⟩ hrest
          exact ⟨_, m', exec_append_some (exec_give hm) hls, by simpa using hhist, hperm⟩

/-! ### No wakeup is lost

A waiter is woken only by `notify_one` or by chance, so a permit could be there and a `Take` sleep
on.  It cannot: while somebody sleeps, every permit is spoken for by a call that is about to
notify or to look at the counter.
-/

/-- About to wake somebody, or to look at the counter. -/
def stirring : SemCall → Bool
  | .take .woken | .take .testing | .give .lowered => true
  | _ => false

/-- While somebody sleeps there are no more permits than calls that stir. -/
def Served (m : Monitor) : Prop :=
  SemCall.take .asleep ∈ m.calls → m.sem.permits.available ≤ m.calls.countP stirring

theorem served_ofSem (s : XLSemaPhore) : Served (ofSem s) := by
  intro h
  simp [ofSem] at h

/-- One call moves and does not go to sleep; permits come only with calls that stir. -/
theorem served_set {m m' : Monitor} {i : Nat} {a b : SemCall} (hm : Served m)
    (hi : m.calls[i]? = some a) (hcalls : m'.calls = m.calls.set i b) (hb : b ≠ .take .asleep)
    (hle : m'.sem.permits.available + (if stirring a then 1 else 0) ≤
      m.sem.permits.available + (if stirring b then 1 else 0)) : Served m' := by
  intro hmem
  rw [hcalls] at hmem ⊢
  have hold : SemCall.take .asleep ∈ m.calls := by
    rcases List.mem_or_eq_of_mem_set hmem with hmem | heq
    · exact hmem
    · exact absurd heq.symm hb
  have havail := hm hold
  have hcount := Calls.countP_set b stirring hi
  by_cases ha : stirring a = true
  · by_cases hb' : stirring b = true
    · simp only [ha, hb', if_true] at hle hcount
      omega
    · simp only [ha, hb', if_true, Bool.false_eq_true, if_false] at hle hcount
      omega
  · by_cases hb' : stirring b = true
    · simp only [ha, hb', if_true, Bool.false_eq_true, if_false] at hle hcount
      omega
    · simp only [ha, hb', Bool.false_eq_true, if_false] at hle hcount
      omega

theorem start_awake (created : Bool) (op : PermitOp) :
    SemCall.start created op ≠ .take .asleep := by
  cases created <;> cases op <;> decide

theorem served_step {m m' : Monitor} {l : SemStep} (hm : Served m) (h : m.next l = some m') :
    Served m' := by
  cases moves_of_next h with
  | begin op =>
      intro hmem
      have hold : SemCall.take .asleep ∈ m.calls := by
        rcases List.mem_append.mp hmem with hmem | hnew
        · exact hmem
        · exact absurd (List.mem_singleton.mp hnew).symm (start_awake _ _)
      have havail := hm hold
      rw [show (m.calls ++ [SemCall.start m.sem.created op]).countP stirring = _ from
        Calls.countP_concat _ _ _]
      show m.sem.permits.available ≤ _
      omega
  | lockEntered hi hfree =>
      exact served_set hm hi rfl (by decide) (Int.add_le_add_left (by decide) _)
  | lockWoken hi hfree | lockGive hi hfree | unlockTake hi | unlockGive hi =>
      exact served_set hm hi rfl (by decide) (Int.le_refl _)
  | pass hi hpass => exact served_set hm hi rfl (by decide) (by simp [stirring])
  | sleep hi hpass =>
      -- It goes to sleep because there is no permit.
      intro _
      rw [XLSemaPhore.passes_iff] at hpass
      show m.sem.permits.available ≤ _
      omega
  | lower hi => exact served_set hm hi rfl (by decide) (by simp [stirring])
  | wake hi hj =>
      rename_i i j
      intro _
      have havail := hm (List.mem_of_getElem? hj)
      have hne : j ≠ i := fun heq => by subst heq; rw [hi] at hj; cases hj
      have hset : (m.calls.set j (.take .woken))[i]? = some (.give .lowered) := by
        rw [List.getElem?_set_ne hne, hi]
      have hwoken := Calls.countP_set (.take .woken) stirring hj
      have hnotified := Calls.countP_set (.give .notified) stirring hset
      simp only [stirring, if_true, if_false, Bool.false_eq_true] at hwoken hnotified
      show m.sem.permits.available ≤
        ((m.calls.set j (.take .woken)).set i (.give .notified)).countP stirring
      omega
  | wakeNobody hi hnone =>
      -- Nobody sleeps, and the step puts nobody to sleep.
      intro hmem
      rcases List.mem_or_eq_of_mem_set hmem with hmem | heq
      · exact absurd hmem hnone
      · cases heq
  | spurious hj => exact served_set hm hj rfl (by decide) (Int.add_le_add_left (by decide) _)

/-- Nobody sleeps next to a permit while nobody else is on the move. -/
theorem asleep_served {s : XLSemaPhore} {m : Monitor} {ls : List SemStep}
    (hrun : exec next (ofSem s) ls = some m) (hpass : m.sem.Passes)
    (hmem : SemCall.take .asleep ∈ m.calls) : ∃ c ∈ m.calls, stirring c = true := by
  have hserved := exec_invariant (I := Served) (fun _ _ _ => served_step) (served_ofSem s) hrun
  have hle := hserved hmem
  rw [XLSemaPhore.passes_iff] at hpass
  exact List.countP_pos_iff.mp (by omega)

end Monitor

/-! ### The two branches -/

/-- The monitor after `Create(count, maxcount)` on a fresh object. -/
def createdMonitor (count maxcount : Int) : Monitor :=
  Monitor.ofSem (XLSemaPhore.new.create count maxcount)

theorem permits_createdMonitor (count maxcount : Int) :
    (createdMonitor count maxcount).sem.permits = ⟨maxcount - count, none⟩ := rfl

/-- The number of takes both branches allow right away; one of them allows no more. -/
theorem takes_separate {count maxcount : Int} (h0 : 0 ≤ count) (h1 : count ≤ maxcount) :
    ∃ ls m w, exec Monitor.next (createdMonitor count maxcount) ls = some m ∧
      exec Permits.next (createSemaphore count maxcount) m.history = some w ∧
      Along Permits.next Permits.BelowLimit (createSemaphore count maxcount) m.history ∧
      ((m.sem.Passes ↔ 0 < w.available) → maxcount = 2 * count) := by
  set n := (min count (maxcount - count)).toNat with hn
  have hcount : (n : Int) = min count (maxcount - count) := by omega
  have hcpp : exec Permits.next (createdMonitor count maxcount).sem.permits
      (List.replicate n .take) = some ⟨maxcount - count - n, none⟩ :=
    Permits.exec_replicate_take n (by rw [permits_createdMonitor]; simp only; omega)
  have hwin : exec Permits.next (createSemaphore count maxcount) (List.replicate n .take) =
      some ⟨count - n, some maxcount⟩ :=
    Permits.exec_replicate_take n (by simp only [createSemaphore]; omega)
  obtain ⟨ls, m, hls, hhist, hperm⟩ := Monitor.exec_of_permits (Monitor.quiet_ofSem rfl) hcpp
  rw [show (Monitor.ofSem (XLSemaPhore.new.create count maxcount)).history = [] from rfl,
    List.nil_append] at hhist
  rw [← hhist] at hwin
  have hbelow : Along Permits.next Permits.BelowLimit (createSemaphore count maxcount)
      m.history := by
    rw [hhist]
    exact Permits.belowLimit_takes n _
  refine ⟨ls, m, _, hls, hwin, hbelow, fun hagree => ?_⟩
  rw [XLSemaPhore.passes_iff, hperm] at hagree
  simp only at hagree
  omega

/--
A `Give` at the maximum is lost by the Windows branch and kept by the other, which then completes
one `Take` more.
-/
theorem give_at_limit_separates {count : Int} {h : List PermitOp} (h0 : 0 ≤ count)
    (hbelow : Along Permits.next Permits.BelowLimit (createSemaphore count (2 * count)) h)
    (hmax : exec Permits.next (createSemaphore count (2 * count)) h =
      some ⟨2 * count, some (2 * count)⟩) :
    ∃ ls m w, exec Monitor.next (createdMonitor count (2 * count)) ls = some m ∧
      m.history = h ++ .give :: List.replicate (2 * count).toNat .take ∧
      exec Permits.next (createSemaphore count (2 * count)) m.history = some w ∧
      m.sem.Passes ∧ ¬ 0 < w.available := by
  have hcpp : exec Permits.next ⟨count, none⟩ h = some ⟨2 * count, none⟩ :=
    (Permits.exec_limited_iff hbelow).mp hmax
  have htakes : exec Permits.next ⟨2 * count + 1, none⟩
      (List.replicate (2 * count).toNat .take) = some ⟨1, none⟩ := by
    rw [Permits.exec_replicate_take _ (by simp only; omega)]
    simp only [Option.some.injEq, Permits.mk.injEq, and_true]
    omega
  have hlost : exec Permits.next ⟨2 * count, some (2 * count)⟩
      (.give :: List.replicate (2 * count).toNat .take) = some ⟨0, some (2 * count)⟩ := by
    rw [exec_cons, show Permits.next ⟨2 * count, some (2 * count)⟩ .give =
      some ⟨2 * count, some (2 * count)⟩ by simp [Permits.next], Option.bind_some,
      Permits.exec_replicate_take _ (by simp only; omega)]
    simp only [Option.some.injEq, Permits.mk.injEq, and_true]
    omega
  have hall : exec Permits.next (createdMonitor count (2 * count)).sem.permits
      (h ++ .give :: List.replicate (2 * count).toNat .take) = some ⟨1, none⟩ := by
    rw [permits_createdMonitor, show 2 * count - count = count by omega]
    exact exec_append_some hcpp htakes
  obtain ⟨ls, m, hls, hhist, hperm⟩ := Monitor.exec_of_permits (Monitor.quiet_ofSem rfl) hall
  rw [show (Monitor.ofSem (XLSemaPhore.new.create count (2 * count))).history = [] from rfl,
    List.nil_append] at hhist
  refine ⟨ls, m, _, hls, hhist, by rw [hhist]; exact exec_append_some hmax hlost, ?_, ?_⟩
  · rw [XLSemaPhore.passes_iff, hperm]
    decide
  · exact Int.lt_irrefl 0

/--
Every history of the C++11 branch in which no `Give` is made at the maximum is a history of the
Windows branch, a `Take` completes in one when it completes in the other (and none is left asleep
then), and takes are covered by `count` and the gives — for every such run, precisely when
`maxcount = 2 * count`.
-/
theorem windows_refined_iff {count maxcount : Int} (h0 : 0 ≤ count) (h1 : count ≤ maxcount) :
    (∀ ls m, exec Monitor.next (createdMonitor count maxcount) ls = some m →
      Along Permits.next Permits.BelowLimit (createSemaphore count maxcount) m.history →
      ∃ w, exec Permits.next (createSemaphore count maxcount) m.history = some w ∧
        (m.sem.Passes ↔ 0 < w.available) ∧
        (m.sem.Passes → .take .asleep ∈ m.calls → ∃ c ∈ m.calls, Monitor.stirring c = true) ∧
        (Permits.takes m.history : Int) ≤ count + Permits.gives m.history) ↔
    maxcount = 2 * count := by
  constructor
  · intro hall
    obtain ⟨ls, m, w, hls, hw, hbelow, hsep⟩ := takes_separate h0 h1
    obtain ⟨w', hw', hagree, -⟩ := hall ls m hls hbelow
    cases hw.symm.trans hw'
    exact hsep hagree
  · rintro rfl ls m hls hbelow
    have hcpp := Monitor.exec_permits_ofSem hls
    rw [show (XLSemaPhore.new.create count (2 * count)).permits = ⟨count, none⟩ by
      simp only [XLSemaPhore.permits, XLSemaPhore.create, XLSemaPhore.new, Bool.false_eq_true,
        if_false, Permits.mk.injEq, and_true]
      omega] at hcpp
    refine ⟨⟨m.sem.permits.available, some (2 * count)⟩, ?_, m.sem.passes_iff,
      Monitor.asleep_served hls, ?_⟩
    · exact (Permits.exec_limited_iff hbelow).mpr hcpp
    · exact Permits.takes_le (s := ⟨count, none⟩) h0 hcpp

/-- After `Create(0, 1)` the first `Take` waits on Windows and passes here. -/
theorem create_zero_one_passes :
    ∃ ls m w, exec Monitor.next (createdMonitor 0 1) ls = some m ∧
      exec Permits.next (createSemaphore 0 1) m.history = some w ∧
      ¬ (m.sem.Passes ↔ 0 < w.available) :=
  ⟨[], _, _, rfl, rfl, by decide⟩

theorem windows_refined_iff_one_two :
    (∀ ls m, exec Monitor.next (createdMonitor 1 2) ls = some m →
      Along Permits.next Permits.BelowLimit (createSemaphore 1 2) m.history →
      ∃ w, exec Permits.next (createSemaphore 1 2) m.history = some w ∧
        (m.sem.Passes ↔ 0 < w.available) ∧
        (m.sem.Passes → .take .asleep ∈ m.calls → ∃ c ∈ m.calls, Monitor.stirring c = true) ∧
        (Permits.takes m.history : Int) ≤ 1 + Permits.gives m.history) ↔
    (2 : Int) = 2 * 1 :=
  windows_refined_iff (by decide) (by decide)

end ServClient
