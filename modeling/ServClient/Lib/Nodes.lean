/-
A linked list as its iterators see it.

Each node has an identity and keeps it while other nodes come and go.  An iterator is
the identity of a node, or `none` for the end.  Using an iterator whose node has been
erased is a fault, so each operation here says whether it is one.

Where nodes are only linked at the back and erased at the front the identities run
without a gap (`Numbered`), and an iterator is a position.
-/
import Mathlib.Data.List.Basic
import Mathlib.Tactic.Common

/-- A node of a linked list. -/
structure Node (α : Type*) where
  id : Nat
  data : α
deriving DecidableEq, Repr

namespace Node

variable {α : Type*} {nodes : List (Node α)} {first i : Nat}

/-- What the iterator points to; `none` is a fault. -/
def deref (nodes : List (Node α)) (it : Option Nat) : Option α :=
  it.bind fun id => (nodes.find? fun n => n.id = id).map Node.data

/-- The iterator after that of node `id`; `none` is a fault. -/
def succ : List (Node α) → Nat → Option (Option Nat)
  | [], _ => none
  | n :: rest, id => if n.id = id then some (rest.head?.map Node.id) else succ rest id

/-- `++it`. -/
def advance (nodes : List (Node α)) (it : Option Nat) : Option (Option Nat) :=
  it.bind (succ nodes)

/-- The nodes left once those before the iterator are erased; `none` is a fault. -/
def eraseBefore (nodes : List (Node α)) : Option Nat → Option (List (Node α))
  | none => some []
  | some id => if nodes.any (fun n => n.id = id) then some (nodes.dropWhile fun n => n.id ≠ id)
      else none

/-! ### Nodes numbered without a gap -/

/-- The identities are `first`, `first + 1` and so on. -/
def Numbered : Nat → List (Node α) → Prop
  | _, [] => True
  | first, n :: rest => n.id = first ∧ Numbered (first + 1) rest

theorem Numbered.concat (h : Numbered first nodes) (x : α) :
    Numbered first (nodes ++ [⟨first + nodes.length, x⟩]) := by
  induction nodes generalizing first with
  | nil => exact ⟨rfl, trivial⟩
  | cons n rest ih =>
      refine ⟨h.1, ?_⟩
      have hrest := ih h.2
      rwa [List.length_cons, show first + (rest.length + 1) = first + 1 + rest.length by omega]

theorem Numbered.drop (h : Numbered first nodes) : Numbered (first + i) (nodes.drop i) := by
  induction nodes generalizing first i with
  | nil => rw [List.drop_nil]; exact trivial
  | cons n rest ih =>
      cases i with
      | zero => exact h
      | succ i =>
          have hrest := ih (i := i) h.2
          rwa [show first + 1 + i = first + (i + 1) by omega] at hrest

theorem Numbered.deref (h : Numbered first nodes) :
    Node.deref nodes (some (first + i)) = (nodes.map Node.data)[i]? := by
  induction nodes generalizing first i with
  | nil => rfl
  | cons n rest ih =>
      cases i with
      | zero => simp [Node.deref, List.find?_cons, h.1]
      | succ i =>
          have hrest := ih (i := i) h.2
          have hne : n.id ≠ first + (i + 1) := by rw [h.1]; omega
          rw [show first + 1 + i = first + (i + 1) by omega] at hrest
          simpa [Node.deref, List.find?_cons, hne] using hrest

/-- The iterator goes on to the next node, or to the end. -/
theorem Numbered.advance (h : Numbered first nodes) (hi : i < nodes.length) :
    Node.advance nodes (some (first + i)) =
      some (if i + 1 < nodes.length then some (first + i + 1) else none) := by
  induction nodes generalizing first i with
  | nil => exact absurd hi (Nat.not_lt_zero i)
  | cons n rest ih =>
      cases i with
      | zero =>
          rw [Nat.add_zero, Node.advance, Option.bind_some, succ, if_pos h.1]
          cases rest with
          | nil => rfl
          | cons m rest => simp [h.2.1]
      | succ i =>
          have hrest := ih h.2 (Nat.lt_of_succ_lt_succ hi)
          have hne : n.id ≠ first + (i + 1) := by rw [h.1]; omega
          rw [show first + 1 + i = first + (i + 1) by omega] at hrest
          rw [Node.advance, Option.bind_some, succ, if_neg hne]
          simpa [Node.advance] using hrest

theorem Numbered.eraseBefore (h : Numbered first nodes) (hi : i < nodes.length) :
    Node.eraseBefore nodes (some (first + i)) = some (nodes.drop i) := by
  induction nodes generalizing first i with
  | nil => exact absurd hi (Nat.not_lt_zero i)
  | cons n rest ih =>
      cases i with
      | zero => simp [Node.eraseBefore, h.1]
      | succ i =>
          have hrest := ih h.2 (Nat.lt_of_succ_lt_succ hi)
          have hne : n.id ≠ first + (i + 1) := by rw [h.1]; omega
          rw [show first + 1 + i = first + (i + 1) by omega] at hrest
          simpa [Node.eraseBefore, hne] using hrest

end Node
