/-
A sweep over an ordered set that changes under it.

The sweep stands at an element, or at the end, and goes on to the first element that is greater.
Between two moves elements come and go, and other sweeps are made.  Nothing is visited twice, since
a sweep only goes up, and what stays in the set is not passed over, since the next element is the
first one: for what a sweep has done only the order matters, and not what else has happened.
-/
import ServClient.Lib.KeyOrder
import Mathlib.Order.RelClasses

namespace Sweeps

variable {α : Type*} [LinearOrder α] {l visited held : List α} {place : Option α} {a : α}

/-- The first element, and `none` for the end. -/
def first (l : List α) : Option α := l.head?

/-- The first element that is greater. -/
def nextPlace (a : α) (l : List α) : Option α := (KeyOrder.after (· < ·) id a l).head?

/-- A linear order is one that such a list can be kept in. -/
theorem strictWeakOrder : IsStrictWeakOrder α (· < ·) := isStrictWeakOrder_of_isOrderConnected

theorem after_eq (hl : KeyOrder.Sorted (· < ·) id l) (a : α) :
    KeyOrder.after (· < ·) id a l = l.filter fun b => decide (a < b) :=
  have := strictWeakOrder (α := α)
  hl.after_eq a

/-- In front of where the sweep is. -/
def Before (b : α) (place : Option α) : Prop := ∀ a ∈ place, b < a

theorem Before.le_of_head? {b : α} (hl : KeyOrder.Sorted (· < ·) id l) (h : Before b l.head?) :
    b ∉ l := by
  intro hb
  cases l with
  | nil => cases hb
  | cons c rest =>
      have hbc : b < c := h c rfl
      rcases List.mem_cons.mp hb with rfl | hb
      · exact lt_irrefl b hbc
      · exact (List.pairwise_cons.mp hl).1 b hb hbc

/-- What a sweep has done by the time it is at `place`, where `held` have been in the set. -/
structure Swept (place : Option α) (visited held : List α) : Prop where
  increasing : visited.Pairwise (· < ·)
  before : ∀ b ∈ visited, Before b place
  all : ∀ b ∈ held, Before b place → b ∈ visited

namespace Swept

theorem start (hl : KeyOrder.Sorted (· < ·) id l) : Swept (first l) [] l where
  increasing := List.Pairwise.nil
  before := fun b hb => by cases hb
  all := fun b hb hbefore => absurd hb (Before.le_of_head? hl hbefore)

/-- The element is visited, and the sweep goes on in what is the set by now. -/
theorem goOn (h : Swept (some a) visited held) (hl : KeyOrder.Sorted (· < ·) id l)
    (hheld : ∀ b ∈ held, b ∈ l) : Swept (nextPlace a l) (visited ++ [a]) held where
  increasing := by
    refine List.pairwise_append.mpr ⟨h.increasing, List.pairwise_singleton _ _, fun b hb c hc => ?_⟩
    rw [List.mem_singleton.mp hc]
    exact h.before b hb a rfl
  before := by
    intro b hb c hc
    have hac : a < c := by
      have hmem := List.mem_of_mem_head? hc
      rw [after_eq hl] at hmem
      exact of_decide_eq_true (List.mem_filter.mp hmem).2
    rcases List.mem_append.mp hb with hb | hb
    · exact (h.before b hb a rfl).trans hac
    · rwa [List.mem_singleton.mp hb]
  all := by
    intro b hb hbefore
    rcases lt_trichotomy b a with hba | rfl | hab
    · exact List.mem_append_left _ (h.all b hb fun c hc => by cases hc; exact hba)
    · exact List.mem_append_right _ (List.mem_singleton.mpr rfl)
    · have hafter : b ∈ KeyOrder.after (· < ·) id a l := by
        rw [after_eq hl]
        exact List.mem_filter.mpr ⟨hheld b hb, decide_eq_true hab⟩
      have hsorted : KeyOrder.Sorted (· < ·) id (KeyOrder.after (· < ·) id a l) := by
        rw [after_eq hl]
        exact hl.filter _
      exact absurd hafter (Before.le_of_head? hsorted hbefore)

theorem of_held (h : Swept place visited held) {held' : List α} (hless : ∀ b ∈ held', b ∈ held) :
    Swept place visited held' :=
  ⟨h.increasing, h.before, fun b hb => h.all b (hless b hb)⟩

/-- At the end nothing that was held is left out. -/
theorem complete (h : Swept none visited held) : ∀ b ∈ held, b ∈ visited :=
  fun b hb => h.all b hb fun a ha => by cases ha

end Swept

end Sweeps
