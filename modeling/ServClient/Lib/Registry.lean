/-
A registry, as its users see it.

Some keys are open, and each open key has the messages posted to it since it was opened.
Closing a key that is not open, and posting to one, do nothing; a message to all goes to
every open key once.
-/
import Mathlib.Logic.Function.Basic

/-- The messages posted to each key, `none` where it is not open. -/
def Registry (κ μ : Type*) : Type _ := κ → Option (List μ)

namespace Registry

variable {κ μ : Type*}

/-- A name is opened or closed, or a message posted to one name or to all that are open. -/
inductive Op (κ μ : Type*)
  | opened (k : κ)
  | closed (k : κ)
  | post (k : κ) (m : μ)
  | postAll (m : μ)

/-- No name is open. -/
def empty : Registry κ μ := fun _ => none

/-- The name is open. -/
def IsOpen (r : Registry κ μ) (k : κ) : Prop := (r k).isSome = true

section

variable [DecidableEq κ]

/-- One operation; a name that is opened again starts over. -/
def next (r : Registry κ μ) : Op κ μ → Registry κ μ
  | .opened k => Function.update r k (some [])
  | .closed k => Function.update r k none
  | .post k m => Function.update r k ((r k).map (· ++ [m]))
  | .postAll m => fun k => (r k).map (· ++ [m])

variable {r : Registry κ μ} {k j : κ} {m : μ}

@[simp] theorem opened_self : r.next (.opened k) k = some [] := Function.update_self ..

theorem opened_of_ne (h : j ≠ k) : r.next (.opened k) j = r j := Function.update_of_ne h ..

@[simp] theorem closed_self : r.next (.closed k) k = none := Function.update_self ..

@[simp] theorem post_self : r.next (.post k m) k = (r k).map (· ++ [m]) := Function.update_self ..

theorem post_of_ne (h : j ≠ k) : r.next (.post k m) j = r j := Function.update_of_ne h ..

@[simp] theorem postAll_apply : r.next (.postAll m) j = (r j).map (· ++ [m]) := rfl

/-- Closing a key that is not open does nothing. -/
theorem closed_of_none (h : r k = none) : r.next (.closed k) = r := by
  rw [next, ← h]
  exact Function.update_eq_self k r

/-- Nor does posting to one. -/
theorem post_of_none (h : r k = none) : r.next (.post k m) = r := by
  rw [next, h, Option.map_none, ← h]
  exact Function.update_eq_self k r

end

end Registry
