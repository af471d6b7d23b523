/-
A row of windows, and what falls between them.

Each window opens where the last one was closed.  It is looked at up to its first time and
closed at its second, and a point on either edge is outside of it.  So a point is in one
window at most, and in none if it lies on or between the two times of one.
-/
import Mathlib.Order.Lattice
import Mathlib.Tactic.Common

namespace Windows

variable {α : Type*} [LinearOrder α] {t k : α} {w : α × α} {ws : List (α × α)}

/-- The times from `t` on do not go back. -/
def InOrder : α → List (α × α) → Prop
  | _, [] => True
  | t, w :: ws => t ≤ w.1 ∧ w.1 ≤ w.2 ∧ InOrder w.2 ws

instance InOrder.decide : ∀ (t : α) (ws : List (α × α)), Decidable (InOrder t ws)
  | _, [] => isTrue trivial
  | t, w :: ws =>
      have := InOrder.decide w.2 ws
      inferInstanceAs (Decidable (t ≤ w.1 ∧ w.1 ≤ w.2 ∧ InOrder w.2 ws))

/-- The time the last window is closed. -/
def lastTime : α → List (α × α) → α
  | t, [] => t
  | _, w :: ws => lastTime w.2 ws

/-- The number of windows a point is inside of. -/
def hits : α → List (α × α) → α → Nat
  | _, [], _ => 0
  | t, w :: ws, k => (if t < k ∧ k < w.1 then 1 else 0) + hits w.2 ws k

/-- The point is on or between the two times of a window. -/
def InGap (ws : List (α × α)) (k : α) : Prop := ∃ w ∈ ws, w.1 ≤ k ∧ k ≤ w.2

theorem InOrder.le_lastTime (h : InOrder t ws) : t ≤ lastTime t ws := by
  induction ws generalizing t with
  | nil => exact le_refl t
  | cons w rest ih => exact (h.1.trans h.2.1).trans (ih h.2.2)

/-- No window lies before the time the first one opens. -/
theorem InOrder.hits_of_le (h : InOrder t ws) (hk : k ≤ t) : hits t ws k = 0 := by
  induction ws generalizing t with
  | nil => rfl
  | cons w rest ih =>
      rw [hits, if_neg (fun hc => absurd hc.1 (not_lt.mpr hk)),
        ih h.2.2 (hk.trans (h.1.trans h.2.1))]

theorem InOrder.hits_of_lastTime_lt (h : InOrder t ws) (hk : lastTime t ws < k) :
    hits t ws k = 0 := by
  induction ws generalizing t with
  | nil => rfl
  | cons w rest ih =>
      have hw : w.1 ≤ k := (h.2.1.trans h.2.2.le_lastTime).trans (le_of_lt hk)
      rw [hits, if_neg (fun hc => absurd hc.2 (not_lt.mpr hw)), ih h.2.2 hk]

theorem InOrder.le_of_mem (h : InOrder t ws) (hw : w ∈ ws) : t ≤ w.1 ∧ w.2 ≤ lastTime t ws := by
  induction ws generalizing t with
  | nil => cases hw
  | cons v rest ih =>
      rcases List.mem_cons.mp hw with rfl | hrest
      · exact ⟨h.1, h.2.2.le_lastTime⟩
      · obtain ⟨hle, hlast⟩ := ih h.2.2 hrest
        exact ⟨(h.1.trans h.2.1).trans hle, hlast⟩

theorem InOrder.hits_of_inGap (h : InOrder t ws) (hk : InGap ws k) : hits t ws k = 0 := by
  induction ws generalizing t with
  | nil =>
      obtain ⟨w, hw, -⟩ := hk
      cases hw
  | cons v rest ih =>
      obtain ⟨w, hw, hfirst, hsecond⟩ := hk
      rcases List.mem_cons.mp hw with rfl | hrest
      · rw [hits, if_neg (fun hc => absurd hc.2 (not_lt.mpr hfirst)), h.2.2.hits_of_le hsecond]
      · have hv : v.1 ≤ k := (h.2.1.trans (h.2.2.le_of_mem hrest).1).trans hfirst
        rw [hits, if_neg (fun hc => absurd hc.2 (not_lt.mpr hv)),
          ih h.2.2 ⟨w, hrest, hfirst, hsecond⟩]

theorem InOrder.hits_of_not_inGap (h : InOrder t ws) (ht : t < k) (hk : k ≤ lastTime t ws)
    (hgap : ¬ InGap ws k) : hits t ws k = 1 := by
  induction ws generalizing t with
  | nil => exact absurd ht (not_lt.mpr hk)
  | cons w rest ih =>
      rcases lt_or_ge k w.1 with hlt | hge
      · rw [hits, if_pos ⟨ht, hlt⟩, h.2.2.hits_of_le ((le_of_lt hlt).trans h.2.1)]
      · have hpast : w.2 < k := not_le.mp fun hle => hgap ⟨w, List.mem_cons_self, hge, hle⟩
        rw [hits, if_neg (fun hc => absurd hc.2 (not_lt.mpr hge)), Nat.zero_add]
        exact ih h.2.2 hpast hk fun ⟨v, hv, hin⟩ => hgap ⟨v, List.mem_cons_of_mem _ hv, hin⟩

/-- A point after `t` is in one window up to the last time and in none after it, unless it is
between windows. -/
theorem InOrder.hits_eq_iff (h : InOrder t ws) :
    hits t ws k = (if t < k ∧ k ≤ lastTime t ws then 1 else 0) ↔ (t < k → ¬ InGap ws k) := by
  constructor
  · intro heq ht hgap
    have hnone := h.hits_of_inGap hgap
    obtain ⟨w, hw, -, hsecond⟩ := hgap
    rw [hnone, if_pos ⟨ht, hsecond.trans (h.le_of_mem hw).2⟩] at heq
    cases heq
  · intro hno
    split
    · rename_i hin
      exact h.hits_of_not_inGap hin.1 hin.2 (hno hin.1)
    · rename_i hout
      rcases le_or_gt k t with hle | hlt
      · exact h.hits_of_le hle
      · exact h.hits_of_lastTime_lt (not_le.mp fun hk => hout ⟨hlt, hk⟩)

end Windows
