/-
A `LinkedList` with its iterators is a sequence with cursors.

The nodes' addresses are the keys of the elements, and an iterator keeps one.  It is told of a
removal while the node is still linked, so the neighbour it goes to is the one its cursor goes to.

What could spoil this is `mElements`: `operator++` and `operator--` do nothing when `Size` is
zero, and `Delete` does not count.  `Delete` leaves the count too high, never too low, so where it
is zero there are no nodes either.  But it is an `int`, and it only stays too high while no node
is put in at `INT_MAX`.
-/
import ServClient.Lib.Cursors
import ServClient.Proofs.ListSize

namespace ServClient

open Cell Cursors Runs

namespace LinkedList

variable {α : Type} {s t : LinkedList α} {seq seq' l r : List (Nat × α)} {o : LinkedListItr}

/-- What the list and its iterators stand for. -/
def cursors (s : LinkedList α) : Cursors Nat α where
  items := s.nodes.filterMap fun a => (s.heap.lookup a).map Cell.data
  cursors := fun address => (s.findItr address).map fun o => place s.nodes o.itr

/-- The move of a cursor that a move of an iterator is. -/
def moveLabel : ItrMove → CursorMove
  | .setToFront | .reset => .toFront
  | .setToBack => .toBack
  | .forward => .forward
  | .backward => .backward

/-- And the question to a cursor that a question to an iterator is. -/
def queryLabel : ItrQuery → CursorQuery
  | .value => .value
  | .hasNext => .hasNext
  | .hasPrevious => .hasPrevious
  | .atFirst => .atFirst
  | .atEnd => .atEnd

/-- What a use of the list stands for.  A node is given by its address. -/
def label (s : LinkedList α) : ListUse α → CursorCall Nat α
  | .step (.list (.insertAtBack data _)) => .pushBack data
  | .step (.list (.insertAtFront data _)) => .pushFront data
  | .step (.list .removeFromFront) => .popFront
  | .step (.list .removeFromBack) => .popBack
  | .step (.list .front) => .front
  | .step (.list .back) => .back
  | .step (.list (.delete node)) => .take (s.nodes.idxOf node)
  | .step (.list .clear) => .clear
  | .step (.newItr address) => .newCursor address
  | .step (.destroyItr address) => .dropCursor address
  | .step (.move address m) => .move address (moveLabel m)
  | .step (.deleteThis address) => .takeAt address
  | .ask address q => .ask address (queryLabel q)

/-- A use that raises `mElements`. -/
def puts : ListUse α → Bool
  | .step l => inserts (.step l)
  | .ask _ _ => false

/-- What a run stands for: the uses, each as it is where it is made. -/
def labels : LinkedList α → List (ListUse α) → List (CursorCall Nat α)
  | _, [] => []
  | s, l :: rest => s.label l :: (s.use l).elim [] fun r => labels r.1 rest

/-! ### Keys and places

The iterators hold addresses of nodes.  An address has one place in the list, so what an iterator
holds is a cursor of the sequence.
-/

theorem first_eq_head? (cells : List (Nat × α)) : first cells = (addresses cells).head? := by
  rw [first, addresses, List.head?_map]

theorem last_eq_getLast? (cells : List (Nat × α)) : last cells = (addresses cells).getLast? := by
  rw [last, addresses, List.getLast?_map]

theorem length_addresses (cells : List (Nat × α)) : (addresses cells).length = cells.length :=
  List.length_map _

theorem Points.marks (h : Points seq o) : Marks (addresses seq) o.itr := by
  obtain ⟨address, itr⟩ := o
  cases itr with
  | none => exact congrArg addresses (show seq = [] from h)
  | some a => exact h

/-- The place of a node is the number of nodes before it. -/
theorem idxOf_middle {c : Nat × α} (h : (addresses (l ++ c :: r)).Nodup) :
    (addresses (l ++ c :: r)).idxOf c.1 = l.length := by
  have hc := (nodup_middle h).1
  rw [addresses_append, List.mem_append, not_or] at hc
  rw [addresses_append, addresses_cons, List.idxOf_append_of_notMem hc.1, List.idxOf_cons_self,
    length_addresses, Nat.add_zero]

theorem place_middle {c : Nat × α} (h : (addresses (l ++ c :: r)).Nodup) :
    place (addresses (l ++ c :: r)) (some c.1) = some l.length :=
  congrArg some (idxOf_middle h)

/-- A node of the list is somewhere in the middle. -/
theorem exists_middle {a : Nat} (h : a ∈ addresses seq) :
    ∃ l c r, seq = l ++ c :: r ∧ c.1 = a := by
  obtain ⟨c, hc, rfl⟩ := List.mem_map.mp h
  obtain ⟨l, r, rfl⟩ := List.append_of_mem hc
  exact ⟨l, c, r, rfl, rfl⟩

theorem Shape.items (h : Shape s seq) :
    s.nodes.filterMap (fun a => (s.heap.lookup a).map Cell.data) = seq.map Prod.snd := by
  rw [h.nodes_eq, addresses, List.filterMap_map, ← List.filterMap_eq_map]
  refine List.filterMap_congr fun c hc => ?_
  exact h.represents.data c hc

theorem Shape.cursors_eq (h : Shape s seq) : s.cursors =
    { items := seq.map Prod.snd
      cursors := fun address => (s.findItr address).map fun o => place (addresses seq) o.itr } := by
  rw [cursors, h.items, h.nodes_eq]

/-- The iterators, each with its address, have been told of something. -/
theorem findItr_map {g : LinkedListItr → LinkedListItr} (hobs : t.obsList = s.obsList.map g)
    (hg : ∀ o, (g o).address = o.address) (address : Nat) :
    t.findItr address = (s.findItr address).map g := by
  rw [findItr, hobs, List.find?_map, findItr]
  congr 2
  funext o
  simp only [Function.comp, hg]

/-- The cursors go where the iterators go. -/
theorem Watched.each (h : Watched s seq) (hshape : Shape t seq')
    {g : LinkedListItr → LinkedListItr} (hobs : t.obsList = s.obsList.map g)
    (hg : ∀ o, (g o).address = o.address) {f : Option Nat → Option Nat}
    (hplace : ∀ o, Points seq o → place (addresses seq') (g o).itr =
      f (place (addresses seq) o.itr)) : t.cursors.cursors = s.cursors.each f := by
  rw [hshape.cursors_eq, h.shape.cursors_eq]
  funext address
  dsimp only [Cursors.each]
  rw [findItr_map hobs hg, Option.map_map, Option.map_map]
  cases ho : s.findItr address with
  | none => rfl
  | some o => exact congrArg some (hplace o (h.points o (List.mem_of_find?_eq_some ho)))

theorem arrive_address (node : Option Nat) (o : LinkedListItr) :
    (arrive node o).address = o.address := by
  unfold arrive
  split <;> rfl

theorem leave_address (node : Nat) (p : Option Nat) (o : LinkedListItr) :
    (leave node p o).address = o.address := by
  unfold leave
  split <;> rfl

theorem arrive_itr (node : Option Nat) (o : LinkedListItr) :
    (arrive node o).itr = if o.itr.isNone then node else o.itr := by
  unfold arrive
  split <;> rfl

theorem leave_itr (node : Nat) (p : Option Nat) (o : LinkedListItr) :
    (leave node p o).itr = if o.itr = some node then p else o.itr := by
  unfold leave
  split <;> rfl

/-! ### Calls of the list -/

theorem Watched.pushBack (h : Watched s seq) {data : α} {k : Nat}
    (hshape : Shape t (seq ++ [(k, data)])) (hobs : t.obsList = s.obsList.map (arrive (some k))) :
    t.cursors =
      { items := s.cursors.items ++ [data], cursors := s.cursors.each afterPushBack } := by
  have hcursors := h.each hshape hobs (arrive_address _) (f := afterPushBack) fun o ho => by
    rw [arrive_itr, addresses_append]
    exact place_concat ho.marks
  rw [← hcursors, hshape.cursors_eq, h.shape.cursors_eq, List.map_append]
  rfl

theorem Watched.pushFront (h : Watched s seq) {data : α} {k : Nat}
    (hshape : Shape t ((k, data) :: seq)) (hobs : t.obsList = s.obsList.map (arrive (some k))) :
    t.cursors = { items := data :: s.cursors.items, cursors := s.cursors.each afterPushFront } := by
  have hk : k ∉ addresses seq := (List.nodup_cons.mp hshape.nodup).1
  have hcursors := h.each hshape hobs (arrive_address _) (f := afterPushFront) fun o ho => by
    rw [arrive_itr, addresses_cons]
    exact place_cons hk ho.marks
  rw [← hcursors, hshape.cursors_eq, h.shape.cursors_eq, List.map_cons]

/-- A node has been taken out, at whatever place. -/
theorem Watched.takeOut {c : Nat × α} (h : Watched s (l ++ c :: r)) (hshape : Shape t (l ++ r))
    (hobs : t.obsList = s.obsList.map (leave c.1 ((last l).or (first r)))) :
    t.cursors = s.cursors.takeOut l.length := by
  have hlength : s.cursors.items.length = (addresses l ++ c.1 :: addresses r).length := by
    rw [h.shape.cursors_eq]
    simp [length_addresses]
  have hcursors := h.each hshape hobs (leave_address _ _)
    (f := afterTake l.length s.cursors.items.length) fun o ho => by
      have hmarks := ho.marks
      have hnodup := h.shape.nodup
      rw [addresses_append, addresses_cons] at hmarks hnodup
      rw [leave_itr, addresses_append, addresses_append, addresses_cons, last_eq_getLast?,
        first_eq_head?, place_erase hnodup hmarks, hlength, length_addresses]
  rw [Cursors.takeOut, ← hcursors, hshape.cursors_eq, h.shape.cursors_eq]
  simp [List.eraseIdx_append_of_length_le]

theorem Watched.cleared (h : Watched s seq) (hshape : Shape t [])
    (hobs : t.obsList = s.obsList.map fun o => { o with itr := none }) :
    t.cursors = { items := [], cursors := s.cursors.each fun _ => none } := by
  have hcursors := h.each hshape hobs (fun _ => rfl) (f := fun _ => none) fun o _ => rfl
  rw [← hcursors, hshape.cursors_eq]
  rfl

/-- Nothing is taken out of an empty list. -/
theorem Watched.takeOut_nil (h : Watched s []) (k : Nat) : s.cursors.takeOut k = s.cursors := by
  rw [h.shape.cursors_eq, Cursors.takeOut]
  congr 1
  funext address
  dsimp only [Cursors.each]
  rw [Option.map_map]
  cases ho : s.findItr address with
  | none => rfl
  | some o =>
      have hpoints := h.points o (List.mem_of_find?_eq_some ho)
      obtain ⟨b, itr⟩ := o
      cases itr with
      | none => rfl
      | some a => exact absurd (show a ∈ addresses [] from hpoints) List.not_mem_nil

theorem Shape.length_items (h : Shape s seq) : s.cursors.items.length = seq.length := by
  rw [h.cursors_eq, List.length_map]

theorem Watched.call_cursors (h : Watched s seq) {c : ListCall α} (hallows : s.allows c = true) :
    ∃ t, s.call c = some (t, (c.denote seq).2) ∧
      s.cursors.call (s.label (.step (.list c))) = (t.cursors, (c.denote seq).2.map .inl) := by
  have hitems : s.cursors.items = seq.map Prod.snd := by rw [h.shape.cursors_eq]
  cases c with
  | insertAtBack data k =>
      obtain ⟨t, ht, hshape, hobs, -⟩ := insertAtBack_eq h.shape data (k := k)
        (by simpa [allows] using hallows)
      exact ⟨t, by rw [LinkedList.call, ht]; rfl, by rw [h.pushBack hshape hobs]; rfl⟩
  | insertAtFront data k =>
      obtain ⟨t, ht, hshape, hobs, -⟩ := insertAtFront_eq h.shape data (k := k)
        (by simpa [allows] using hallows)
      exact ⟨t, by rw [LinkedList.call, ht]; rfl, by rw [h.pushFront hshape hobs]; rfl⟩
  | removeFromFront =>
      cases seq with
      | nil =>
          refine ⟨s, by rw [LinkedList.call, removeFromFront_nil h.shape]; rfl, ?_⟩
          rw [label, Cursors.call, h.takeOut_nil, hitems]
          rfl
      | cons c r =>
          obtain ⟨t, ht, hshape, hobs, -⟩ := removeFromFront_eq h.shape
          refine ⟨t, by rw [LinkedList.call, ht]; rfl, ?_⟩
          rw [Watched.takeOut (l := []) h hshape hobs, label, Cursors.call, hitems]
          rfl
  | removeFromBack =>
      rcases List.eq_nil_or_concat seq with rfl | ⟨l, c, rfl⟩
      · refine ⟨s, by rw [LinkedList.call, removeFromBack_nil h.shape]; rfl, ?_⟩
        rw [label, Cursors.call, h.takeOut_nil, hitems]
        rfl
      · rw [List.concat_eq_append] at h hitems ⊢
        obtain ⟨t, ht, hshape, hobs, -⟩ := removeFromBack_eq h.shape
        have hlength : s.cursors.items.length - 1 = l.length := by
          rw [h.shape.length_items, List.length_append, List.length_singleton]
          omega
        have htaken := Watched.takeOut (r := []) h (by rwa [List.append_nil])
          (hobs.trans (by rw [first_nil, Option.or_none]))
        refine ⟨t, by rw [LinkedList.call, ht]; simp [ListCall.denote], ?_⟩
        rw [htaken, label, Cursors.call, hlength, hitems]
        simp [ListCall.denote]
  | front =>
      refine ⟨s, by rw [LinkedList.call, front_eq h.shape]; rfl, ?_⟩
      rw [label, Cursors.call, hitems, List.head?_map]
      rfl
  | back =>
      refine ⟨s, by rw [LinkedList.call, back_eq h.shape]; rfl, ?_⟩
      rw [label, Cursors.call, hitems, List.getLast?_map]
      rfl
  | delete k =>
      have hk : k ∈ addresses seq := by
        rw [allows, h.shape.nodes_eq] at hallows
        exact of_decide_eq_true hallows
      obtain ⟨l, c, r, rfl, rfl⟩ := exists_middle hk
      obtain ⟨t, ht, hshape, hobs, -⟩ := delete_eq h.shape
      refine ⟨t, by rw [LinkedList.call, ht]; rfl, ?_⟩
      rw [h.takeOut hshape hobs, label, h.shape.nodes_eq, idxOf_middle h.shape.nodup]
      rfl
  | clear =>
      obtain ⟨t, ht, hshape, hobs, -⟩ := clear_eq h.shape
      refine ⟨t, by rw [LinkedList.call, ht]; rfl, ?_⟩
      rw [h.cleared hshape hobs]
      rfl

/-! ### Calls of an iterator

`operator++` and `operator--` test `mElements` before they move.  All they need of it is that it is
not below the number of nodes.
-/

theorem isBegin_iff {a : Nat} : s.isBegin (some a) = true ↔ s.head = some a := by
  simp only [isBegin, Option.isSome_some, Bool.and_true, Bool.and_eq_true, decide_eq_true_eq]
  exact ⟨fun h => h.2.symm, fun h => ⟨by rw [h]; rfl, h.symm⟩⟩

theorem isEnd_iff {a : Nat} : s.isEnd (some a) = true ↔ s.tail = some a := by
  simp only [isEnd, Option.isSome_some, Bool.and_true, Bool.and_eq_true, decide_eq_true_eq]
  exact ⟨fun h => h.2.symm, fun h => ⟨by rw [h]; rfl, h.symm⟩⟩

theorem Shape.isBegin_middle {c : Nat × α} (h : Shape s (l ++ c :: r)) :
    s.isBegin (some c.1) = true ↔ l = [] := by
  rw [isBegin_iff, h.head]
  cases l with
  | nil => simp
  | cons d l => simpa using (not_mem_parts h.nodup).1

theorem Shape.isEnd_middle {c : Nat × α} (h : Shape s (l ++ c :: r)) :
    s.isEnd (some c.1) = true ↔ r = [] := by
  rw [isEnd_iff, h.tail]
  rcases List.eq_nil_or_concat r with rfl | ⟨r, d, rfl⟩
  · simp
  · rw [List.concat_eq_append] at h ⊢
    have hne := (not_mem_parts h.nodup).2.2.2
    rw [last_concat] at hne
    rw [← List.cons_append, ← List.append_assoc, last_concat]
    exact iff_of_false hne (by simp)

theorem Shape.size_ne {c : Nat × α} (hcount : ((l ++ c :: r).length : Int) ≤ s.elements) :
    s.size ≠ 0 := by
  rw [List.length_append, List.length_cons] at hcount
  show s.elements ≠ 0
  omega

theorem Shape.forward_place (h : Shape s seq) (hcount : (seq.length : Int) ≤ s.elements)
    (ho : Points seq o) {p : LinkedListItr} (hp : o.forward s = some p) :
    p.address = o.address ∧ place (addresses seq) p.itr =
      Cursors.moved seq.length (place (addresses seq) o.itr) .forward := by
  obtain ⟨address, itr⟩ := o
  cases itr with
  | none =>
      cases hp
      exact ⟨rfl, rfl⟩
  | some a =>
      obtain ⟨l, c, r, rfl, rfl⟩ := exists_middle ho
      have hsize := Shape.size_ne hcount
      have hend := h.isEnd_middle
      rw [LinkedListItr.forward] at hp
      rw [place_middle h.nodup]
      cases r with
      | nil =>
          rw [if_pos (by simp [hend.mpr rfl])] at hp
          cases hp
          exact ⟨rfl, by rw [place_middle h.nodup]; simp [Cursors.moved]⟩
      | cons d r =>
          rw [if_neg (by simp [hsize, mt hend.mp]), node, Option.bind_some, h.lookup] at hp
          cases hp
          refine ⟨rfl, ?_⟩
          have hthere := place_middle (l := l ++ [c]) (c := d) (r := r) (by simpa using h.nodup)
          rw [List.append_assoc, List.singleton_append] at hthere
          exact hthere.trans (by simp [Cursors.moved])

theorem Shape.backward_place (h : Shape s seq) (hcount : (seq.length : Int) ≤ s.elements)
    (ho : Points seq o) {p : LinkedListItr} (hp : o.backward s = some p) :
    p.address = o.address ∧ place (addresses seq) p.itr =
      Cursors.moved seq.length (place (addresses seq) o.itr) .backward := by
  obtain ⟨address, itr⟩ := o
  cases itr with
  | none =>
      cases hp
      exact ⟨rfl, rfl⟩
  | some a =>
      obtain ⟨l, c, r, rfl, rfl⟩ := exists_middle ho
      have hsize := Shape.size_ne hcount
      have hbegin := h.isBegin_middle
      rw [LinkedListItr.backward] at hp
      rw [place_middle h.nodup]
      rcases List.eq_nil_or_concat l with rfl | ⟨l, d, rfl⟩
      · rw [if_pos (by simp [hbegin.mpr rfl])] at hp
        cases hp
        exact ⟨rfl, by rw [place_middle h.nodup]; simp [Cursors.moved]⟩
      · rw [List.concat_eq_append] at *
        rw [if_neg (by simp [hsize, mt hbegin.mp]), node, Option.bind_some, h.lookup] at hp
        cases hp
        refine ⟨rfl, ?_⟩
        have hthere := place_middle (l := l) (c := d) (r := c :: r) (by simpa using h.nodup)
        rw [List.append_assoc, List.singleton_append, last_concat]
        exact hthere.trans (by simp [Cursors.moved])

/-- Where a move takes an iterator; `mElements` is not below the number of nodes. -/
theorem Shape.move_place (h : Shape s seq) (hcount : (seq.length : Int) ≤ s.elements)
    (ho : Points seq o) (m : ItrMove) {p : LinkedListItr} (hp : o.move s m = some p) :
    p.address = o.address ∧ place (addresses seq) p.itr =
      Cursors.moved seq.length (place (addresses seq) o.itr) (moveLabel m) := by
  cases m with
  | setToFront | reset =>
      cases hp
      refine ⟨rfl, ?_⟩
      rw [h.head, first_eq_head?, place_head, length_addresses]
      rfl
  | setToBack =>
      cases hp
      refine ⟨rfl, ?_⟩
      rw [h.tail, last_eq_getLast?, place_getLast h.nodup, length_addresses]
      rfl
  | forward => exact h.forward_place hcount ho hp
  | backward => exact h.backward_place hcount ho hp

theorem isSome_first : (first r).isSome = decide (0 < r.length) := by
  cases r <;> simp

theorem isSome_last : (last l).isSome = decide (0 < l.length) := by
  rcases List.eq_nil_or_concat l with rfl | ⟨l, d, rfl⟩ <;> simp

/-- And what it answers where it is. -/
theorem Shape.answer_place (h : Shape s seq) (ho : Points seq o) (q : ItrQuery) :
    o.answer s q = some (Cursors.answer (seq.map Prod.snd) (place (addresses seq) o.itr)
      (queryLabel q)) := by
  obtain ⟨address, itr⟩ := o
  cases itr with
  | none => cases q <;> rfl
  | some a =>
      obtain ⟨l, c, r, rfl, rfl⟩ := exists_middle ho
      have hnode : s.node (some c.1) =
          some { data := c.2, next := first r, previous := last l } := h.lookup
      rw [place_middle h.nodup]
      cases q with
      | value =>
          simp [LinkedListItr.answer, LinkedListItr.value, hnode, queryLabel, Cursors.answer]
      | hasNext =>
          simp [LinkedListItr.answer, LinkedListItr.hasNext, hnode, queryLabel, Cursors.answer,
            isSome_first]
      | hasPrevious =>
          simp [LinkedListItr.answer, LinkedListItr.hasPrevious, hnode, queryLabel,
            Cursors.answer, isSome_last]
      | atFirst =>
          have hbegin : s.isBegin (some c.1) = decide (l = []) := by
            rw [Bool.eq_iff_iff, h.isBegin_middle, decide_eq_true_eq]
          simp [LinkedListItr.answer, LinkedListItr.atFirst, queryLabel, Cursors.answer, hbegin]
      | atEnd =>
          have hend : s.isEnd (some c.1) = decide (r = []) := by
            rw [Bool.eq_iff_iff, h.isEnd_middle, decide_eq_true_eq]
          simp [LinkedListItr.answer, LinkedListItr.atEnd, queryLabel, Cursors.answer, hend]

/-! ### Iterators that come, move and go -/

theorem move_address {m : ItrMove} {p : LinkedListItr} (hp : o.move s m = some p) :
    p.address = o.address := by
  cases m with
  | setToFront | setToBack | reset => cases hp; rfl
  | forward | backward =>
      simp only [LinkedListItr.move, LinkedListItr.forward, LinkedListItr.backward] at hp
      split at hp
      · cases hp; rfl
      · obtain ⟨n, -, rfl⟩ := Option.map_eq_some_iff.mp hp
        rfl

theorem Watched.moved (h : Watched s seq) (hcount : (seq.length : Int) ≤ s.elements)
    {address : Nat} {m : ItrMove} (ht : s.moveItr address m = some t) :
    t.cursors = s.cursors.update address
      (Option.map fun p => Cursors.moved s.cursors.items.length p (moveLabel m)) := by
  let g (o : LinkedListItr) : LinkedListItr :=
    if o.address = address then (o.move s m).getD o else o
  have hg : ∀ o, (g o).address = o.address := by
    intro o
    show (ite _ _ _ : LinkedListItr).address = _
    split
    · cases hp : o.move s m with
      | none => rfl
      | some p => exact move_address hp
    · rfl
  have hobs : s.obsList.mapM (fun o => if o.address = address then o.move s m else some o) =
      some (s.obsList.map g) := by
    refine mapM_eq_map fun o ho => ?_
    show _ = some (ite _ _ _)
    split
    · obtain ⟨p, hp, -⟩ := move_spec h.shape (h.points o ho) m
      rw [hp, Option.getD_some]
    · rfl
  rw [LinkedList.moveItr, hobs] at ht
  cases ht
  have hshape := h.shape.withObservers (s.obsList.map g)
  rw [h.shape.length_items, hshape.cursors_eq, h.shape.cursors_eq, Cursors.update]
  congr 1
  funext b
  rw [findItr_map rfl hg, Option.map_map]
  dsimp only
  by_cases hb : b = address
  · subst hb
    rw [Function.update_self, Option.map_map]
    cases ho : s.findItr b with
    | none => rfl
    | some o =>
        have hpoints := h.points o (List.mem_of_find?_eq_some ho)
        have hkey : o.address = b := by simpa using List.find?_some ho
        obtain ⟨p, hp, -⟩ := move_spec h.shape hpoints m
        have hplace := (h.shape.move_place hcount hpoints m hp).2
        simp only [Option.map_some, Function.comp, Option.some.injEq]
        rw [← hplace, show g o = p by simp [g, hkey, hp]]
  · rw [Function.update_of_ne hb]
    cases ho : s.findItr b with
    | none => rfl
    | some o =>
        have hkey : o.address = b := by simpa using List.find?_some ho
        simp [g, hkey, hb]

theorem findItr_newItr {address : Nat} (hnone : s.findItr address = none) (b : Nat) :
    (s.newItr address).findItr b =
      if b = address then some ⟨address, s.head⟩ else s.findItr b := by
  rw [findItr, newItr]
  dsimp only
  rw [List.orderedInsert_eq_take_drop, List.find?_append, List.find?_cons]
  have hsplit := List.takeWhile_append_dropWhile
    (p := fun o : LinkedListItr => decide ¬ (⟨address, s.head⟩ : LinkedListItr).address ≤ o.address)
    (l := s.obsList)
  by_cases hb : b = address
  · subst hb
    have hfront : (s.obsList.takeWhile
        fun o => decide ¬ (⟨b, s.head⟩ : LinkedListItr).address ≤ o.address).find?
          (fun o => decide (o.address = b)) = none := by
      rw [findItr, List.find?_eq_none] at hnone
      rw [List.find?_eq_none]
      exact fun o ho => hnone o (List.takeWhile_subset _ ho)
    rw [hfront]
    simp
  · have hne : decide (address = b) = false := decide_eq_false (Ne.symm hb)
    rw [if_neg hb, hne, findItr]
    conv_rhs => rw [← hsplit]
    rw [List.find?_append]

theorem findItr_destroyItr (address b : Nat) :
    (s.destroyItr address).findItr b = if b = address then none else s.findItr b := by
  rw [findItr, destroyItr]
  dsimp only
  rw [List.find?_filter]
  split
  · rename_i hb
    rw [List.find?_eq_none]
    intro o _
    simp [hb]
  · rename_i hb
    rw [findItr]
    congr 1
    funext o
    by_cases ho : o.address = b
    · simp [ho, hb]
    · simp [ho]

theorem Watched.newItr_cursors (h : Watched s seq) {address : Nat}
    (hnone : s.findItr address = none) :
    (s.newItr address).cursors =
      s.cursors.update address fun _ => some (firstPlace s.cursors.items.length) := by
  have hshape := (h.newItr address).shape
  rw [h.shape.length_items, hshape.cursors_eq, h.shape.cursors_eq, Cursors.update]
  congr 1
  funext b
  rw [findItr_newItr hnone, Function.update_apply]
  split
  · rw [Option.map_some, h.shape.head, first_eq_head?, place_head, length_addresses]
  · rfl

theorem Watched.destroyItr_cursors (h : Watched s seq) (address : Nat) :
    (s.destroyItr address).cursors = s.cursors.update address fun _ => none := by
  rw [(h.destroyItr address).shape.cursors_eq, h.shape.cursors_eq, Cursors.update]
  congr 1
  funext b
  rw [findItr_destroyItr, Function.update_apply]
  split <;> rfl

/-! ### Every use

One use of the list or of an iterator, of whatever kind, keeps `Tracked` and answers what the
cursors answer.
-/

/-- `mElements` is not below the number of nodes. -/
theorem tally_le {elements : Int} (h : (seq.length : Int) ≤ elements) (c : ListCall α) :
    ((c.denote seq).1.length : Int) ≤ tally seq elements c := by
  cases c with
  | insertAtBack | insertAtFront => simpa [tally, ListCall.denote] using h
  | removeFromFront | removeFromBack =>
      cases seq with
      | nil => simpa [tally, ListCall.denote] using h
      | cons c r =>
          simp only [tally, ListCall.denote, List.length_cons, List.length_tail,
            List.length_dropLast, List.isEmpty_cons, Bool.false_eq_true, if_false] at h ⊢
          omega
  | front | back => exact h
  | delete k =>
      have := List.length_eraseP_le (p := fun c : Nat × α => decide (c.1 = k)) (l := seq)
      simp only [tally, ListCall.denote]
      omega
  | clear => simp [tally, ListCall.denote]

/-- And it has not overflowed, where it found room to be raised. -/
theorem tally_fits {elements : Int} (h : elements ≤ intMax) {c : ListCall α}
    (hroom : inserts (.step (.list c)) = true → elements < intMax) :
    tally seq elements c ≤ intMax := by
  cases c with
  | insertAtBack | insertAtFront =>
      have := hroom rfl
      simp only [tally]
      omega
  | removeFromFront | removeFromBack =>
      simp only [tally]
      split <;> omega
  | front | back | delete => exact h
  | clear => exact show (0 : Int) ≤ intMax by decide

/-- A list with its iterators at nodes, and `mElements` high enough and an `int`. -/
structure Tracked (s : LinkedList α) (seq : List (Nat × α)) : Prop where
  watched : Watched s seq
  count : (seq.length : Int) ≤ s.elements
  fits : s.elements ≤ intMax

theorem Tracked.size (h : Tracked s seq) : 0 ≤ s.size ∧ s.size ≤ intMax :=
  ⟨Int.le_trans (Int.natCast_nonneg _) h.count, h.fits⟩

theorem Tracked.call (h : Tracked s seq) {c : ListCall α} (hallows : s.allows c = true)
    (hroom : inserts (.step (.list c)) = true → s.size < intMax) :
    ∃ t answers, s.use (.step (.list c)) = some (t, answers) ∧ Tracked t (c.denote seq).1 ∧
      s.cursors.call (s.label (.step (.list c))) = (t.cursors, answers) := by
  obtain ⟨t, ht, hcursors⟩ := h.watched.call_cursors hallows
  obtain ⟨u, hu, hshape, hfollowed, helements⟩ := call_spec h.watched.shape hallows
  cases ht.symm.trans hu
  refine ⟨t, _, by rw [LinkedList.use, ht]; rfl,
    ⟨⟨hshape, hfollowed h.watched.points⟩, ?_, ?_⟩, hcursors⟩
  · rw [helements]
    exact tally_le h.count c
  · rw [helements]
    exact tally_fits h.fits hroom

theorem Tracked.deleteThis (h : Tracked s seq) {address : Nat}
    (hallows : (s.findItr address).isSome = true) :
    ∃ t seq', s.deleteThis address = some t ∧ Tracked t seq' ∧
      s.cursors.call (.takeAt address) = (t.cursors, []) := by
  obtain ⟨o, ho⟩ := Option.isSome_iff_exists.mp hallows
  have hpoints := h.watched.points o (List.mem_of_find?_eq_some ho)
  have hcursor : s.cursors.cursors address = some (place (addresses seq) o.itr) := by
    rw [h.watched.shape.cursors_eq]
    dsimp only
    rw [ho]
    rfl
  rw [LinkedList.deleteThis, ho]
  obtain ⟨b, itr⟩ := o
  cases itr with
  | none => exact ⟨s, seq, rfl, h, by rw [Cursors.call, hcursor]; rfl⟩
  | some a =>
      obtain ⟨l, c, r, rfl, rfl⟩ := exists_middle hpoints
      obtain ⟨t, ht, hshape, hobs, helements⟩ := delete_eq h.watched.shape
      obtain ⟨u, hu, -, hfollowed, -⟩ := delete_spec h.watched.shape (k := c.1) (by simp)
      cases ht.symm.trans hu
      have hwatched : Watched t (l ++ r) :=
        ⟨hshape, followed_of_map hobs (fun p hp => hp.leave_neighbour) h.watched.points⟩
      refine ⟨t, l ++ r, ht, ⟨hwatched, ?_, helements ▸ h.fits⟩, ?_⟩
      · have := h.count
        rw [helements]
        simp only [List.length_append, List.length_cons] at this ⊢
        omega
      · rw [Cursors.call, hcursor, place_middle h.watched.shape.nodup,
          h.watched.takeOut hshape hobs]

theorem Tracked.use (h : Tracked s seq) {l : ListUse α} (hallows : s.allowsUse l = true)
    (hroom : puts l = true → s.size < intMax) :
    ∃ t seq' answers, s.use l = some (t, answers) ∧ Tracked t seq' ∧
      s.cursors.call (s.label l) = (t.cursors, answers) := by
  cases l with
  | step l =>
      cases l with
      | list c =>
          obtain ⟨t, answers, ht, htracked, hcall⟩ := h.call hallows hroom
          exact ⟨t, _, answers, ht, htracked, hcall⟩
      | newItr address =>
          refine ⟨_, seq, [], rfl, ⟨h.watched.newItr address, h.count, h.fits⟩, ?_⟩
          rw [h.watched.newItr_cursors (Option.isNone_iff_eq_none.mp hallows)]
          rfl
      | destroyItr address =>
          refine ⟨_, seq, [], rfl, ⟨h.watched.destroyItr address, h.count, h.fits⟩, ?_⟩
          rw [h.watched.destroyItr_cursors]
          rfl
      | move address m =>
          obtain ⟨t, ht, hwatched⟩ := h.watched.moveItr address m
          have hcursors := h.watched.moved h.count ht
          obtain ⟨obs, -, rfl⟩ := Option.map_eq_some_iff.mp
            (show (Option.map (fun obs => { s with obsList := obs }) _) = some t from by
              rw [LinkedList.moveItr] at ht
              simpa [Option.bind_eq_bind, Option.map_eq_bind] using ht)
          refine ⟨_, seq, [], ?_, ⟨hwatched, h.count, h.fits⟩, by rw [hcursors]; rfl⟩
          show (s.moveItr address m).map (·, []) = _
          rw [ht]
          rfl
      | deleteThis address =>
          obtain ⟨t, seq', ht, htracked, hcall⟩ := h.deleteThis hallows
          refine ⟨t, seq', [], ?_, htracked, hcall⟩
          show (s.deleteThis address).map (·, []) = _
          rw [ht]
          rfl
  | ask address q =>
      obtain ⟨o, ho⟩ := Option.isSome_iff_exists.mp hallows
      have hanswer := h.watched.shape.answer_place
        (h.watched.points o (List.mem_of_find?_eq_some ho)) q
      refine ⟨s, seq, [Cursors.answer (seq.map Prod.snd) (place (addresses seq) o.itr)
        (queryLabel q)], ?_, h, ?_⟩
      · rw [LinkedList.use, ho, Option.bind_eq_bind, Option.bind_some, hanswer]
        rfl
      · rw [label, Cursors.call, h.watched.shape.cursors_eq]
        dsimp only
        rw [ho]
        rfl

/-! ### Every run -/

theorem Tracked.exec {uses : List (ListUse α)} {answers : List (Option α ⊕ Bool)}
    (h : Tracked s seq)
    (hallows : Along useNext (fun r l => r.1.allowsUse l = true) (s, answers) uses)
    (hroom : Along useNext (fun r l => puts l = true → r.1.size < intMax) (s, answers) uses) :
    ∃ t, exec useNext (s, answers) uses =
        some (t, answers ++ (callAll Cursors.call s.cursors (labels s uses)).2.flatten) ∧
      t.cursors = (callAll Cursors.call s.cursors (labels s uses)).1 ∧
      0 ≤ t.size ∧ t.size ≤ intMax := by
  induction uses generalizing s seq answers with
  | nil => exact ⟨s, by simp [labels, callAll], rfl, h.size⟩
  | cons l rest ih =>
      obtain ⟨u, seq₁, now, hu, htracked, hcall⟩ := h.use hallows.1 hroom.1
      have hnext : useNext (s, answers) l = some (u, answers ++ now) := by
        rw [useNext, hu]
        rfl
      obtain ⟨t, ht, hcursors⟩ := ih htracked (hallows.2 _ hnext) (hroom.2 _ hnext)
      rw [labels, hu, Option.elim_some, callAll, hcall]
      refine ⟨t, exec_cons_eq_some.mpr ⟨_, hnext, ?_⟩, hcursors⟩
      rw [ht, List.flatten_cons, List.append_assoc]

/--
Whatever is done with a list and its iterators, if every node that is put in finds `Size()` below
`INT_MAX`: nothing goes wrong, each iterator is where the cursor of a sequence would be, at the
element the cursor would be at, every answer of the list and of the iterators is the one the
sequence and its cursors give, and `mElements` does not overflow.
-/
theorem iterators_are_cursors (uses : List (ListUse α))
    (hallows : Along useNext (fun r l => r.1.allowsUse l = true) (.new, []) uses)
    (hroom : Along useNext (fun r l => puts l = true → r.1.size < intMax) (.new, []) uses) :
    ∃ t, exec useNext (.new, []) uses =
        some (t, (callAll Cursors.call ⟨[], fun _ => none⟩ (labels .new uses)).2.flatten) ∧
      t.cursors = (callAll Cursors.call ⟨[], fun _ => none⟩ (labels .new uses)).1 ∧
      0 ≤ t.size ∧ t.size ≤ intMax :=
  Tracked.exec (s := .new)
    ⟨Watched.new, Int.le_refl _, show (0 : Int) ≤ intMax by decide⟩ hallows hroom

/-- Two iterators, and a deletion under one of them that `mElements` does not notice. -/
theorem iterators_are_cursors_twoIterators :
    ∃ t : LinkedList Char, exec useNext (.new, []) [.step (.newItr 7),
        .step (.list (.insertAtBack 'a' 1)), .step (.list (.insertAtFront 'b' 2)),
        .step (.newItr 8), .step (.deleteThis 7), .ask 7 .value, .ask 8 .hasPrevious,
        .step (.move 8 .backward), .ask 8 .value] =
          some (t, [.inl (some 'b'), .inr false, .inl (some 'b')]) :=
  (iterators_are_cursors _ (by decide) (by decide)).imp fun _ h => h.1

end LinkedList

end ServClient
