/-
A sequence with cursors on it.

A cursor is at an element, and its place is the number of elements before it.  Where there are
no elements it is nowhere, and it goes to the first one that is put in.  When its element is
taken out it goes to the one before, or else to the one behind.

An implementation does not count.  It gives the elements keys and keeps with a cursor the key of
its element, so that it has to look at a cursor only where its own element goes.  `place` is the
place of a key, and the lemmas about it say that the cursors move as they should.
-/
import Mathlib.Data.List.Nodup
import Mathlib.Logic.Function.Basic
import Mathlib.Tactic.Common

/-- Where a cursor can be sent. -/
inductive CursorMove
  | toFront
  | toBack
  | forward
  | backward
deriving DecidableEq, Repr

/-- What a cursor can be asked. -/
inductive CursorQuery
  | value
  | hasNext
  | hasPrevious
  | atFirst
  | atEnd
deriving DecidableEq, Repr

/-- A call on the sequence, or on one of the cursors. -/
inductive CursorCall (ι α : Type*)
  | pushBack (x : α)
  | pushFront (x : α)
  | popFront
  | popBack
  | front
  | back
  | take (k : Nat)
  | clear
  | newCursor (i : ι)
  | dropCursor (i : ι)
  | move (i : ι) (m : CursorMove)
  /-- The element at the cursor is taken out. -/
  | takeAt (i : ι)
  | ask (i : ι) (q : CursorQuery)

/-- A sequence with any number of cursors, each with its own name. -/
structure Cursors (ι α : Type*) where
  items : List α
  /-- The place of each cursor there is; a cursor that is nowhere has none. -/
  cursors : ι → Option (Option Nat)

namespace Cursors

variable {ι κ α : Type*}

/-! ### Places

A cursor is a place in a sequence, or nowhere.  Each change of the sequence moves every cursor in
the one way that leaves it at its element, or at a neighbour of the one it has lost.
-/

/-- Where a cursor is when an element has been put in behind the others. -/
def afterPushBack (p : Option Nat) : Option Nat := some (p.getD 0)

/-- Where a cursor is when an element has come in front: one further, or at that element. -/
def afterPushFront (p : Option Nat) : Option Nat := some (p.elim 0 (· + 1))

/-- Where a cursor is when element `k` of `length` has been taken out. -/
def afterTake (k length : Nat) (p : Option Nat) : Option Nat :=
  p.bind fun i =>
    if i < k then some i
    else if k < i then some (i - 1)
    else if 0 < k then some (k - 1)
    else if 1 < length then some 0
    else none

/-- The first place, if there is one. -/
def firstPlace (length : Nat) : Option Nat := if length = 0 then none else some 0

/-- The place of the last element. -/
def lastPlace (length : Nat) : Option Nat := if length = 0 then none else some (length - 1)

/-- A move past an end does nothing. -/
def moved (length : Nat) (p : Option Nat) : CursorMove → Option Nat
  | .toFront => firstPlace length
  | .toBack => lastPlace length
  | .forward => p.map fun i => if i + 1 < length then i + 1 else i
  | .backward => p.map fun i => i - 1

/-! ### Calls -/

/-- All cursors move. -/
def each (f : Option Nat → Option Nat) (c : Cursors ι α) : ι → Option (Option Nat) :=
  fun i => (c.cursors i).map f

/-- The element at a place is taken out, and the cursors step aside. -/
def takeOut (c : Cursors ι α) (k : Nat) : Cursors ι α where
  items := c.items.eraseIdx k
  cursors := c.each (afterTake k c.items.length)

/-- One cursor changes, comes or goes. -/
def update [DecidableEq ι] (c : Cursors ι α) (i : ι)
    (f : Option (Option Nat) → Option (Option Nat)) : Cursors ι α :=
  { c with cursors := Function.update c.cursors i (f (c.cursors i)) }

/-- What a cursor answers: an element or a flag. -/
def answer (items : List α) (p : Option Nat) : CursorQuery → Option α ⊕ Bool
  | .value => .inl (p.bind fun i => items[i]?)
  | .hasNext => .inr (p.any fun i => i + 1 < items.length)
  | .hasPrevious => .inr (p.any fun i => 0 < i)
  | .atFirst => .inr (p.any fun i => i = 0)
  | .atEnd => .inr (p.any fun i => i + 1 = items.length)

/-- What a call makes of the sequence and of its cursors, and what it answers. -/
def call [DecidableEq ι] (c : Cursors ι α) :
    CursorCall ι α → Cursors ι α × List (Option α ⊕ Bool)
  | .pushBack x => ({ items := c.items ++ [x], cursors := c.each afterPushBack }, [])
  | .pushFront x => ({ items := x :: c.items, cursors := c.each afterPushFront }, [])
  | .popFront => (c.takeOut 0, [.inl c.items.head?])
  | .popBack => (c.takeOut (c.items.length - 1), [.inl c.items.getLast?])
  | .front => (c, [.inl c.items.head?])
  | .back => (c, [.inl c.items.getLast?])
  | .take k => (c.takeOut k, [])
  | .clear => ({ items := [], cursors := c.each fun _ => none }, [])
  | .newCursor i => (c.update i fun _ => some (firstPlace c.items.length), [])
  | .dropCursor i => (c.update i fun _ => none, [])
  | .move i m => (c.update i (Option.map fun p => moved c.items.length p m), [])
  | .takeAt i =>
      match c.cursors i with
      | some (some k) => (c.takeOut k, [])
      | _ => (c, [])
  | .ask i q => (c, ((c.cursors i).map fun p => answer c.items p q).toList)

/-! ### Cursors that keep the key of their element

In a program a cursor holds a key, not a place.  As long as the keys are distinct the one determines
the other, and changes of the sequence move places the way the calls above do.
-/

variable [DecidableEq κ] {keys l r : List κ} {k : κ} {p : Option κ}

/-- The place of a key. -/
def place (keys : List κ) (p : Option κ) : Option Nat := p.map keys.idxOf

/-- The key is one of these, or there are none. -/
def Marks (keys : List κ) : Option κ → Prop
  | none => keys = []
  | some k => k ∈ keys

@[simp] theorem place_none : place keys none = none := rfl

@[simp] theorem place_some : place keys (some k) = some (keys.idxOf k) := rfl

theorem place_head : place keys keys.head? = firstPlace keys.length := by
  cases keys with
  | nil => rfl
  | cons k rest => simp [firstPlace]

theorem place_getLast (h : keys.Nodup) : place keys keys.getLast? = lastPlace keys.length := by
  rcases List.eq_nil_or_concat keys with rfl | ⟨l, k, rfl⟩
  · rfl
  · rw [List.concat_eq_append] at h ⊢
    have hk : k ∉ l := fun hmem => (List.nodup_append.mp h).2.2 k hmem k (by simp) rfl
    simp [lastPlace, List.idxOf_append_of_notMem hk]

/-- A key behind the others moves no cursor but those that are nowhere. -/
theorem place_concat (hp : Marks keys p) :
    place (keys ++ [k]) (if p.isNone then some k else p) = afterPushBack (place keys p) := by
  cases p with
  | none =>
      obtain rfl : keys = [] := hp
      simp [afterPushBack]
  | some a => simp [afterPushBack, List.idxOf_append_of_mem (show a ∈ keys from hp)]

/-- A key before the others moves each of them on by one. -/
theorem place_cons (hk : k ∉ keys) (hp : Marks keys p) :
    place (k :: keys) (if p.isNone then some k else p) = afterPushFront (place keys p) := by
  cases p with
  | none => simp [afterPushFront]
  | some a =>
      have hne : k ≠ a := fun heq => hk (heq ▸ hp)
      simp [afterPushFront, List.idxOf_cons_ne _ hne]

/-- Taking a key out moves those behind it, and those at it to a neighbour. -/
theorem place_erase (h : (l ++ k :: r).Nodup) (hp : Marks (l ++ k :: r) p) :
    place (l ++ r) (if p = some k then l.getLast?.or r.head? else p) =
      afterTake l.length (l ++ k :: r).length (place (l ++ k :: r) p) := by
  obtain ⟨hl, hr, hdisj⟩ := List.nodup_append.mp h
  have hkl : k ∉ l := fun hmem => hdisj k hmem k List.mem_cons_self rfl
  have hidx : (l ++ k :: r).idxOf k = l.length := by simp [List.idxOf_append_of_notMem hkl]
  cases p with
  | none => exact absurd (show l ++ k :: r = [] from hp) (by simp)
  | some a =>
      by_cases ha : a = k
      · subst ha
        rw [if_pos rfl, place_some, hidx, afterTake, Option.bind_some, if_neg (Nat.lt_irrefl _),
          if_neg (Nat.lt_irrefl _)]
        rcases List.eq_nil_or_concat l with rfl | ⟨l, b, rfl⟩
        · cases r with
          | nil => rfl
          | cons b r => simp
        · rw [List.concat_eq_append] at hl ⊢
          have hb : b ∉ l := fun hmem => (List.nodup_append.mp hl).2.2 b hmem b (by simp) rfl
          simp [List.idxOf_append_of_notMem hb]
      · rw [if_neg fun heq => ha (Option.some.inj heq), place_some, place_some, afterTake,
          Option.bind_some]
        by_cases hal : a ∈ l
        · rw [List.idxOf_append_of_mem hal, List.idxOf_append_of_mem hal,
            if_pos (List.idxOf_lt_length_of_mem hal)]
        · rw [List.idxOf_append_of_notMem hal, List.idxOf_append_of_notMem hal,
            List.idxOf_cons_ne _ (Ne.symm ha), if_neg (by omega), if_pos (by omega)]
          congr 1

end Cursors
