/-
Bounded first-in first-out buffers.

`offer` appends when there is room and changes nothing when there is none; `poll`
takes the oldest item, and is not possible on an empty buffer.
-/
import ServClient.Lib.Runs

open Runs

/-- A buffer of bounded size. -/
structure Fifo (α : Type*) where
  items : List α
  /-- The number of items it has room for. -/
  capacity : Nat
deriving DecidableEq, Repr

/-- A call of it. -/
inductive FifoOp (α : Type*)
  | offer (a : α)
  | poll
deriving DecidableEq, Repr

namespace Fifo

variable {α : Type*}

/-- Room for one more. -/
def HasRoom (f : Fifo α) : Prop := f.items.length < f.capacity

instance (f : Fifo α) : Decidable f.HasRoom := inferInstanceAs (Decidable (_ < _))

/-- An item is put in at the back, if there is room. -/
def offer (f : Fifo α) (a : α) : Fifo α × Bool :=
  if f.HasRoom then ({ f with items := f.items ++ [a] }, true) else (f, false)

/-- The first item is taken out, if there is one. -/
def poll (f : Fifo α) : Option (Fifo α × α) :=
  match f.items with
  | [] => none
  | a :: rest => some ({ f with items := rest }, a)

/-- One operation of a history. -/
def next (f : Fifo α) : FifoOp α → Option (Fifo α)
  | .offer a => some (f.offer a).1
  | .poll => f.poll.map Prod.fst

theorem offer_room {f : Fifo α} (h : f.HasRoom) (a : α) :
    f.offer a = ({ f with items := f.items ++ [a] }, true) := if_pos h

theorem offer_full {f : Fifo α} (h : ¬ f.HasRoom) (a : α) : f.offer a = (f, false) := if_neg h

theorem poll_eq_some {f f' : Fifo α} {a : α} :
    f.poll = some (f', a) ↔ f.items = a :: f'.items ∧ f'.capacity = f.capacity := by
  obtain ⟨items, capacity⟩ := f
  obtain ⟨items', capacity'⟩ := f'
  cases items with
  | nil => simp [poll]
  | cons b rest =>
      simp only [poll, Option.some.injEq, Prod.mk.injEq, Fifo.mk.injEq, List.cons.injEq]
      constructor
      · rintro ⟨⟨rfl, rfl⟩, rfl⟩
        exact ⟨⟨rfl, rfl⟩, rfl⟩
      · rintro ⟨⟨rfl, rfl⟩, rfl⟩
        exact ⟨⟨rfl, rfl⟩, rfl⟩

theorem poll_eq_none {f : Fifo α} : f.poll = none ↔ f.items = [] := by
  unfold poll
  split <;> simp_all

end Fifo
