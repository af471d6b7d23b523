/-
The iterators of a list stay at its nodes.

`call_spec` says that a call of the list takes every iterator along.  What is left are the
calls of the iterators themselves: a move goes to a neighbour that is in the list, because it
is not made at the end it would lead over, and `DeleteThis` is a `Delete` of a node that is in
the list, or of null.
-/
import ServClient.Proofs.LinkedList

namespace ServClient

open Cell

namespace LinkedList

variable {α : Type} {s t : LinkedList α} {seq l r : List (Nat × α)} {o : LinkedListItr}

/-- The list has this shape, and every iterator is at one of its nodes. -/
structure Watched (s : LinkedList α) (seq : List (Nat × α)) : Prop where
  shape : Shape s seq
  points : ∀ o ∈ s.obsList, Points seq o

theorem Shape.points_head (h : Shape s seq) (address : Nat) : Points seq ⟨address, s.head⟩ := by
  rw [h.head]
  cases hfirst : first seq with
  | none => exact first_eq_none.mp hfirst
  | some a => exact mem_of_first hfirst

theorem Shape.points_tail (h : Shape s seq) (address : Nat) : Points seq ⟨address, s.tail⟩ := by
  rw [h.tail]
  cases hlast : last seq with
  | none => exact last_eq_none.mp hlast
  | some a => exact mem_of_last hlast

/-! ### Moves -/

/-- Away from the last node there is a next one. -/
theorem forward_spec (h : Shape s seq) (ho : Points seq o) :
    ∃ p, o.forward s = some p ∧ Points seq p := by
  rw [LinkedListItr.forward]
  split
  · exact ⟨o, rfl, ho⟩
  · rename_i hguard
    obtain ⟨address, itr⟩ := o
    cases itr with
    | none => exact absurd rfl hguard
    | some a =>
        obtain ⟨c, hc, rfl⟩ := List.mem_map.mp (show a ∈ addresses seq from ho)
        obtain ⟨l, r, rfl⟩ := List.append_of_mem hc
        refine ⟨⟨address, first r⟩, by rw [node, Option.bind_some, h.lookup]; rfl, ?_⟩
        cases hr : first r with
        | none =>
            rw [first_eq_none.mp hr] at h
            have htail : s.tail = some c.1 := h.tail.trans (last_concat l c)
            exact absurd (by simp [isEnd, htail]) hguard
        | some b =>
            show b ∈ addresses (l ++ c :: r)
            rw [addresses_append, addresses_cons]
            exact List.mem_append_right _ (List.mem_cons_of_mem _ (mem_of_first hr))

/-- Away from the first node there is a previous one. -/
theorem backward_spec (h : Shape s seq) (ho : Points seq o) :
    ∃ p, o.backward s = some p ∧ Points seq p := by
  rw [LinkedListItr.backward]
  split
  · exact ⟨o, rfl, ho⟩
  · rename_i hguard
    obtain ⟨address, itr⟩ := o
    cases itr with
    | none => exact absurd rfl hguard
    | some a =>
        obtain ⟨c, hc, rfl⟩ := List.mem_map.mp (show a ∈ addresses seq from ho)
        obtain ⟨l, r, rfl⟩ := List.append_of_mem hc
        refine ⟨⟨address, last l⟩, by rw [node, Option.bind_some, h.lookup]; rfl, ?_⟩
        cases hl : last l with
        | none =>
            rw [last_eq_none.mp hl] at h
            have hhead : s.head = some c.1 := h.head
            exact absurd (by simp [isBegin, hhead]) hguard
        | some b =>
            show b ∈ addresses (l ++ c :: r)
            rw [addresses_append]
            exact List.mem_append_left _ (mem_of_last hl)

theorem move_spec (h : Shape s seq) (ho : Points seq o) (m : ItrMove) :
    ∃ p, o.move s m = some p ∧ Points seq p := by
  cases m with
  | setToFront => exact ⟨_, rfl, h.points_head o.address⟩
  | setToBack => exact ⟨_, rfl, h.points_tail o.address⟩
  | reset => exact ⟨_, rfl, h.points_head o.address⟩
  | forward => exact forward_spec h ho
  | backward => exact backward_spec h ho

theorem mapM_forall {β : Type} {f : β → Option β} {P : β → Prop} {bs : List β}
    (h : ∀ b ∈ bs, ∃ c, f b = some c ∧ P c) : ∃ cs, bs.mapM f = some cs ∧ ∀ c ∈ cs, P c := by
  induction bs with
  | nil => exact ⟨[], rfl, fun c hc => absurd hc List.not_mem_nil⟩
  | cons b rest ih =>
      obtain ⟨c, hc, hP⟩ := h b List.mem_cons_self
      obtain ⟨cs, hcs, hPs⟩ := ih fun d hd => h d (List.mem_cons_of_mem b hd)
      refine ⟨c :: cs, by rw [List.mapM_cons, hc, hcs]; rfl, fun d hd => ?_⟩
      rcases List.mem_cons.mp hd with rfl | hd
      · exact hP
      · exact hPs d hd

/-! ### One step -/

theorem Watched.new : Watched (new : LinkedList α) [] :=
  ⟨Shape.new, fun _ ho => absurd ho List.not_mem_nil⟩

theorem Watched.call (h : Watched s seq) {c : ListCall α} (hallows : s.allows c = true) :
    ∃ t seq', s.next (.list c) = some t ∧ Watched t seq' := by
  obtain ⟨t, ht, hshape, hfollowed, -⟩ := call_spec h.shape hallows
  exact ⟨t, _, by rw [next, ht]; rfl, hshape, hfollowed h.points⟩

theorem Watched.newItr (h : Watched s seq) (address : Nat) : Watched (s.newItr address) seq where
  shape := h.shape.withObservers _
  points := fun o ho => by
    rcases (List.mem_orderedInsert _).mp ho with rfl | ho
    · exact h.shape.points_head address
    · exact h.points o ho

theorem Watched.destroyItr (h : Watched s seq) (address : Nat) :
    Watched (s.destroyItr address) seq where
  shape := h.shape.withObservers _
  points := fun o ho => h.points o (List.mem_filter.mp ho).1

theorem Watched.moveItr (h : Watched s seq) (address : Nat) (m : ItrMove) :
    ∃ t, s.moveItr address m = some t ∧ Watched t seq := by
  have hmove : ∀ o ∈ s.obsList, ∃ p,
      (if o.address = address then o.move s m else some o) = some p ∧ Points seq p := by
    intro o ho
    split
    · exact move_spec h.shape (h.points o ho) m
    · exact ⟨o, rfl, h.points o ho⟩
  obtain ⟨obs, hobs, hpoints⟩ := mapM_forall hmove
  exact ⟨{ s with obsList := obs }, by rw [LinkedList.moveItr, hobs]; rfl,
    h.shape.withObservers obs, hpoints⟩

theorem Watched.deleteThis (h : Watched s seq) {address : Nat}
    (hallows : (s.findItr address).isSome) :
    ∃ t seq', s.deleteThis address = some t ∧ Watched t seq' := by
  obtain ⟨o, ho⟩ := Option.isSome_iff_exists.mp hallows
  have hpoints := h.points o (List.mem_of_find?_eq_some ho)
  rw [LinkedList.deleteThis, ho]
  obtain ⟨address, itr⟩ := o
  cases itr with
  | none => exact ⟨s, seq, rfl, h⟩
  | some a =>
      obtain ⟨t, ht, hshape, hfollowed, -⟩ := delete_spec h.shape hpoints
      exact ⟨t, _, ht, hshape, hfollowed h.points⟩

/-- A step that is allowed can be made, and the iterators are at nodes of the list again. -/
theorem Watched.next (h : Watched s seq) {l : ListStep α} (hallows : s.allowsStep l = true) :
    ∃ t seq', s.next l = some t ∧ Watched t seq' := by
  cases l with
  | list c => exact h.call hallows
  | newItr address => exact ⟨_, seq, rfl, h.newItr address⟩
  | destroyItr address => exact ⟨_, seq, rfl, h.destroyItr address⟩
  | move address m =>
      obtain ⟨t, ht, hwatched⟩ := h.moveItr address m
      exact ⟨t, seq, ht, hwatched⟩
  | deleteThis address => exact h.deleteThis hallows

/-! ### Every run -/

theorem Watched.exec {steps : List (ListStep α)} (h : Watched s seq)
    (hallows : Runs.Along LinkedList.next (fun s l => s.allowsStep l = true) s steps) :
    ∃ t seq', Runs.exec LinkedList.next s steps = some t ∧ Watched t seq' := by
  induction steps generalizing s seq with
  | nil => exact ⟨s, seq, rfl, h⟩
  | cons l rest ih =>
      obtain ⟨u, seq₁, hu, hwatched⟩ := h.next hallows.1
      obtain ⟨t, seq₂, ht, hend⟩ := ih hwatched (hallows.2 u hu)
      exact ⟨t, seq₂, Runs.exec_cons_eq_some.mpr ⟨u, hu, ht⟩, hend⟩

/-- Every iterator is at a node met from `mHead` on, which is not free; and it is null if and
only if there is none. -/
def Valid (s : LinkedList α) : Prop :=
  ∃ nodes, Reached (fun a => (s.heap.lookup a).map Cell.next) s.head nodes ∧
    ∀ o ∈ s.obsList, (o.itr = none ↔ nodes = []) ∧
      ∀ a, o.itr = some a → a ∈ nodes ∧ a ∈ s.heap

theorem Watched.valid (h : Watched s seq) : Valid s := by
  refine ⟨addresses seq, h.shape.represents.forward, fun o ho => ?_⟩
  have hpoints := h.points o ho
  obtain ⟨address, itr⟩ := o
  cases itr with
  | none =>
      have hnil : seq = [] := hpoints
      exact ⟨iff_of_true rfl (by rw [hnil]; rfl), nofun⟩
  | some a =>
      have hmem : a ∈ addresses seq := hpoints
      refine ⟨iff_of_false nofun (List.ne_nil_of_mem hmem), fun b hb => ?_⟩
      cases hb
      exact ⟨hmem, h.shape.mem_heap hmem⟩

/-- Whatever is done with a list and with the iterators on it, nothing goes wrong, and the
iterators are valid at the end of it. -/
theorem iterators_valid (steps : List (ListStep α))
    (hallows : Runs.Along LinkedList.next (fun s l => s.allowsStep l = true) .new steps) :
    ∃ t, Runs.exec LinkedList.next .new steps = some t ∧ Valid t := by
  obtain ⟨t, seq, ht, hwatched⟩ := Watched.exec Watched.new hallows
  exact ⟨t, ht, hwatched.valid⟩

/-- Two iterators; the one at the last node deletes it, and the other one the rest. -/
theorem iterators_valid_twoIterators :
    ∃ t, Runs.exec LinkedList.next .new [.newItr 7, .list (.insertAtBack 'a' 1),
        .list (.insertAtBack 'b' 2), .newItr 8, .move 8 .setToBack, .deleteThis 8,
        .deleteThis 7] = some t ∧ Valid t :=
  iterators_valid _ (by decide)

end LinkedList

end ServClient
