/-
Calls in flight, counted by where they are, and the log of what they did.

The calls made on a shared object are a list, in the order they were made; a step of
call `i` replaces the entry at `i`.  How many calls are at some place changes by at
most one then, and these lemmas say how, without subtraction.

Where each call does a thing at most once, a log of it names each call at most once
(`Logged`).
-/
import Mathlib.Algebra.GroupWithZero.Nat
import Mathlib.Data.List.Basic
import Mathlib.Tactic.Common

namespace Calls

variable {α β : Type*}

theorem lt_of_getElem?_eq_some {l : List α} {i : Nat} {a : α} (h : l[i]? = some a) :
    i < l.length := by
  by_contra hge
  rw [List.getElem?_eq_none (Nat.not_lt.mp hge)] at h
  cases h

/-- A call that is there is counted. -/
theorem countP_pos {l : List α} {i : Nat} {a : α} {p : α → Bool} (h : l[i]? = some a)
    (ha : p a = true) : 0 < l.countP p :=
  List.countP_pos_iff.mpr ⟨a, List.mem_of_getElem? h, ha⟩

theorem countP_eq_zero {l : List α} {p : α → Bool}
    (h : ∀ (i : Nat) (a : α), l[i]? = some a → p a = false) : l.countP p = 0 := by
  rw [List.countP_eq_zero]
  intro a ha
  obtain ⟨i, hi⟩ := List.mem_iff_getElem?.mp ha
  simp [h i a hi]

/-- Moving one call from `a` to `b`. -/
theorem countP_set {l : List α} {i : Nat} {a : α} (b : α) (p : α → Bool) (h : l[i]? = some a) :
    (l.set i b).countP p + (if p a then 1 else 0) = l.countP p + (if p b then 1 else 0) := by
  have hi := lt_of_getElem?_eq_some h
  have hget : l[i] = a := by
    rw [List.getElem?_eq_getElem hi] at h
    exact Option.some.inj h
  rw [List.countP_set hi, hget]
  by_cases ha : p a = true
  · have hpos := countP_pos h ha
    simp only [ha, if_true]
    omega
  · simp [ha]

theorem countP_set_same {l : List α} {i : Nat} {a b : α} {p : α → Bool} (h : l[i]? = some a)
    (hab : p b = p a) : (l.set i b).countP p = l.countP p := by
  have := countP_set b p h
  rw [hab] at this
  omega

theorem countP_set_enter {l : List α} {i : Nat} {a b : α} {p : α → Bool} (h : l[i]? = some a)
    (ha : p a = false) (hb : p b = true) : (l.set i b).countP p = l.countP p + 1 := by
  have := countP_set b p h
  simpa [ha, hb] using this

theorem countP_set_leave {l : List α} {i : Nat} {a b : α} {p : α → Bool} (h : l[i]? = some a)
    (ha : p a = true) (hb : p b = false) : (l.set i b).countP p + 1 = l.countP p := by
  have := countP_set b p h
  simpa [ha, hb] using this

theorem countP_concat (l : List α) (a : α) (p : α → Bool) :
    (l ++ [a]).countP p = l.countP p + (if p a then 1 else 0) := by
  simp [List.countP_append, List.countP_cons]

/-- What is at a place after one call has moved. -/
theorem getElem?_set {l : List α} {i j : Nat} {a b c : α} (h : l[i]? = some a)
    (hj : (l.set i b)[j]? = some c) : (j = i ∧ c = b) ∨ (j ≠ i ∧ l[j]? = some c) := by
  rw [List.getElem?_set] at hj
  split at hj
  · rename_i hij
    rw [if_pos (lt_of_getElem?_eq_some h)] at hj
    cases hj
    exact Or.inl ⟨hij.symm, rfl⟩
  · rename_i hij
    exact Or.inr ⟨fun hc => hij hc.symm, hj⟩

/-- What is at a place after one more call has begun. -/
theorem getElem?_concat {l : List α} {j : Nat} {a c : α} (hj : (l ++ [a])[j]? = some c) :
    (j = l.length ∧ c = a) ∨ l[j]? = some c := by
  rcases Nat.lt_or_ge j l.length with hlt | hge
  · rw [List.getElem?_append_left hlt] at hj
    exact Or.inr hj
  · rw [List.getElem?_append_right hge] at hj
    cases hk : j - l.length with
    | zero =>
        rw [hk] at hj
        exact Or.inl ⟨by omega, by simpa using hj.symm⟩
    | succ k =>
        rw [hk] at hj
        simp at hj

/-- What was at a place and what is put there change roles. -/
theorem perm_set {l : List α} {i : Nat} {a : α} (b : α) (h : l[i]? = some a) :
    (a :: l.set i b).Perm (b :: l) := by
  induction l generalizing i with
  | nil => cases h
  | cons c rest ih =>
      cases i with
      | zero =>
          cases h
          exact List.Perm.swap b a rest
      | succ i =>
          have hrest := ih (i := i) h
          exact (List.Perm.swap c a _).trans ((hrest.cons c).trans (List.Perm.swap b c rest))

/-- Moving one call, where each call is worth something. -/
theorem sum_set {l : List α} {i : Nat} {a : α} (b : α) (f : α → Nat) (h : l[i]? = some a) :
    ((l.set i b).map f).sum + f a = (l.map f).sum + f b := by
  have hsum := ((perm_set b h).map f).sum_nat
  simp only [List.map_cons, List.sum_cons] at hsum
  omega

/-- Two places no call is at together. -/
theorem countP_or {p q : α → Bool} {l : List α} (h : ∀ a ∈ l, p a = true → q a = false) :
    l.countP (fun a => p a || q a) = l.countP p + l.countP q := by
  induction l with
  | nil => rfl
  | cons a rest ih =>
      have hrest := ih fun b hb => h b (List.mem_cons_of_mem a hb)
      have ha := h a List.mem_cons_self
      simp only [List.countP_cons, hrest]
      cases hp : p a <;> cases hq : q a <;> simp_all <;> omega

/-- Counting the calls by their numbers. -/
theorem countP_range (l : List α) (q : α → Bool) :
    (List.range l.length).countP (fun i => l[i]?.any q) = l.countP q := by
  have hget : (List.range l.length).map (fun i => l[i]?) = l.map some := by
    refine List.ext_getElem (by simp) fun i hi hi' => ?_
    simp only [List.length_map] at hi'
    simp [hi']
  calc (List.range l.length).countP (fun i => l[i]?.any q)
      = ((List.range l.length).map fun i => l[i]?).countP (Option.any q) := by
        rw [List.countP_map]
        rfl
    _ = l.countP q := by
        rw [hget, List.countP_map]
        rfl

/-- What is listed at most once is in one place. -/
theorem eq_of_count_le_one [BEq α] [LawfulBEq α] {l : List α} {i j : Nat} {a : α}
    (h : l.count a ≤ 1) (hi : l[i]? = some a) (hj : l[j]? = some a) : i = j := by
  induction l generalizing i j with
  | nil => cases hi
  | cons b rest ih =>
      rw [List.count_cons] at h
      have hlater : ∀ {k : Nat}, rest[k]? = some a → 0 < rest.count a := fun hk =>
        List.count_pos_iff.mpr (List.mem_of_getElem? hk)
      cases i with
      | zero =>
          cases j with
          | zero => rfl
          | succ j =>
              cases hi
              have := hlater hj
              simp only [beq_self_eq_true, if_true] at h
              omega
      | succ i =>
          cases j with
          | zero =>
              cases hj
              have := hlater hi
              simp only [beq_self_eq_true, if_true] at h
              omega
          | succ j =>
              rw [ih (by omega) hi hj]

/-! ### What holds of every call -/

/-- Once call `i` has moved. -/
theorem forall_set {P : Nat → α → Prop} {l : List α} {i : Nat} {a b : α} (h : l[i]? = some a)
    (hb : P i b) (hl : ∀ j c, j ≠ i → l[j]? = some c → P j c) :
    ∀ j c, (l.set i b)[j]? = some c → P j c := by
  intro j c hj
  rcases getElem?_set h hj with ⟨rfl, rfl⟩ | ⟨hne, hold⟩
  · exact hb
  · exact hl j c hne hold

/-- Once one more call has begun. -/
theorem forall_concat {P : Nat → α → Prop} {l : List α} {a : α} (ha : P l.length a)
    (hl : ∀ j c, l[j]? = some c → P j c) : ∀ j c, (l ++ [a])[j]? = some c → P j c := by
  intro j c hj
  rcases getElem?_concat hj with ⟨rfl, rfl⟩ | hold
  · exact ha
  · exact hl j c hold

/-- What call `j` has reached, it keeps when call `i` moves. -/
theorem exists_set {P : α → Prop} {l : List α} {i j : Nat} {a b : α} (hi : l[i]? = some a)
    (hab : P a → P b) (h : ∃ c, l[j]? = some c ∧ P c) : ∃ c, (l.set i b)[j]? = some c ∧ P c := by
  obtain ⟨c, hj, hc⟩ := h
  by_cases hij : i = j
  · subst hij
    rw [hi, Option.some.injEq] at hj
    subst hj
    exact ⟨b, List.getElem?_set_self (lt_of_getElem?_eq_some hi), hab hc⟩
  · exact ⟨c, by rw [List.getElem?_set_ne hij, hj], hc⟩

theorem exists_concat {P : α → Prop} {l : List α} {j : Nat} (a : α)
    (h : ∃ c, l[j]? = some c ∧ P c) : ∃ c, (l ++ [a])[j]? = some c ∧ P c := by
  obtain ⟨c, hj, hc⟩ := h
  exact ⟨c, by rw [List.getElem?_append_left (lt_of_getElem?_eq_some hj), hj], hc⟩

/-! ### Logs

Where calls write to a log when they get to some point, the log and the calls say the same: which
calls have got there, and with what.  One lemma for each way in which a call can move.
-/

/--
The log holds what the calls have done, each call at most once.  `entry c` is what a call at `c`
has done so far, `none` if it has not got there.
-/
structure Logged (entry : α → Option β) (calls : List α) (log : List (Nat × β)) : Prop where
  mem_iff : ∀ i c, calls[i]? = some c → ∀ b, (i, b) ∈ log ↔ entry c = some b
  inRange : ∀ i b, (i, b) ∈ log → i < calls.length
  once : (log.map Prod.fst).Nodup

namespace Logged

variable {entry : α → Option β} {calls : List α} {log : List (Nat × β)} {i : Nat} {a b : α}

theorem nil (entry : α → Option β) (calls : List α) (h : ∀ c ∈ calls, entry c = none) :
    Logged entry calls [] where
  mem_iff := by
    intro i c hi b
    simp [h c (List.mem_of_getElem? hi)]
  inRange := by simp
  once := by simp

/-- Counting in the log is counting among the calls. -/
theorem countP_log (h : Logged entry calls log) (q : β → Bool) :
    log.countP (fun r => q r.2) = calls.countP fun c => (entry c).any q := by
  have hnumbers : ((log.filter fun r => q r.2).map Prod.fst).length =
      (log.filter fun r => q r.2).length := List.length_map _
  rw [← countP_range calls, List.countP_eq_length_filter, List.countP_eq_length_filter,
    ← hnumbers]
  refine List.Perm.length_eq ((List.perm_ext_iff_of_nodup ?_ ?_).mpr fun i => ?_)
  · exact h.once.sublist (List.filter_sublist.map _)
  · exact List.nodup_range.filter _
  · simp only [List.mem_map, List.mem_filter, List.mem_range, Prod.exists, exists_and_right,
      exists_eq_right]
    constructor
    · rintro ⟨b, hmem, hb⟩
      have hi := h.inRange i b hmem
      have hentry := (h.mem_iff i _ (List.getElem?_eq_getElem hi) b).mp hmem
      exact ⟨hi, by rw [List.getElem?_eq_getElem hi]; simp [hentry, hb]⟩
    · rintro ⟨hi, hq⟩
      rw [List.getElem?_eq_getElem hi, Option.any_some, Option.any_eq_true] at hq
      obtain ⟨b, hb, hqb⟩ := hq
      exact ⟨b, (h.mem_iff i _ (List.getElem?_eq_getElem hi) b).mpr hb, hqb⟩

/-- A call begins. -/
theorem concat (h : Logged entry calls log) (ha : entry a = none) :
    Logged entry (calls ++ [a]) log where
  mem_iff := forall_concat (fun b => by
      rw [ha]
      exact ⟨fun hmem => absurd (h.inRange _ _ hmem) (Nat.lt_irrefl _), fun hc => by cases hc⟩)
    h.mem_iff
  inRange := by
    intro i b hmem
    have := h.inRange i b hmem
    rw [List.length_append]
    omega
  once := h.once

/-- A call moves, and does not get there by this step. -/
theorem move (h : Logged entry calls log) (hi : calls[i]? = some a) (hab : entry b = entry a) :
    Logged entry (calls.set i b) log where
  mem_iff := forall_set hi (fun c => by rw [hab]; exact h.mem_iff i a hi c)
    fun j c _ hj => h.mem_iff j c hj
  inRange := by
    intro j c hmem
    rw [List.length_set]
    exact h.inRange j c hmem
  once := h.once

/-- A call gets there. -/
theorem record (h : Logged entry calls log) (hi : calls[i]? = some a) (ha : entry a = none)
    {e : β} (hb : entry b = some e) : Logged entry (calls.set i b) (log ++ [(i, e)]) := by
  have hnew : ∀ c, (i, c) ∉ log := fun c hmem => by
    have := (h.mem_iff i a hi c).mp hmem
    rw [ha] at this
    cases this
  refine ⟨forall_set hi ?_ ?_, ?_, ?_⟩
  · intro c
    rw [hb, List.mem_append, List.mem_singleton, Prod.mk.injEq, Option.some.injEq]
    exact ⟨fun hmem => (hmem.resolve_left (hnew c)).2.symm, fun hc => Or.inr ⟨rfl, hc.symm⟩⟩
  · intro j c hne hj d
    rw [← h.mem_iff j c hj d, List.mem_append, List.mem_singleton, Prod.mk.injEq]
    exact ⟨fun hmem => hmem.resolve_right fun hc => hne hc.1, Or.inl⟩
  · intro j c hmem
    rw [List.length_set]
    rcases List.mem_append.mp hmem with hold | hlast
    · exact h.inRange j c hold
    · rw [List.mem_singleton, Prod.mk.injEq] at hlast
      rw [hlast.1]
      exact lt_of_getElem?_eq_some hi
  · rw [List.map_append, List.map_singleton, List.nodup_append]
    refine ⟨h.once, by simp, fun j hj k hk heq => ?_⟩
    rw [List.mem_singleton] at hk
    obtain ⟨⟨j', c⟩, hmem, rfl⟩ := List.mem_map.mp hj
    have hji : j' = i := heq.trans hk
    rw [hji] at hmem
    exact hnew c hmem

end Logged

end Calls
