/-
A `LinkedList` is the double-ended sequence its calls denote.

The invariant is `Shape`: the nodes on the heap are exactly those of the sequence, chained
from null to null, with `mHead` and `mTail` at its two ends.  Every operation that changes
the list puts one node in or takes one out, and so comes down to `Shape.insert` or
`Shape.unlink`; the iterators it notifies in between only look at a node that is still there.
-/
import ServClient.LinkedList
import ServClient.Lib.Runs

namespace ServClient

open Cell

namespace LinkedList

variable {α : Type} {s t : LinkedList α} {seq l r : List (Nat × α)}

/-- The list holds this sequence of nodes and nothing else. -/
structure Shape (s : LinkedList α) (seq : List (Nat × α)) : Prop where
  nodup : (addresses seq).Nodup
  head : s.head = first seq
  tail : s.tail = last seq
  chain : Chain (fun a => s.heap.lookup a) none seq none
  only : ∀ a, a ∈ s.heap → a ∈ addresses seq

/-! ### Nodes

The heap holds the nodes of the list and no others.  `Shape` says so; each operation below is shown
to take a shape to a shape.
-/

theorem modify_eq {a : Nat} {n : LListNode α} {f : LListNode α → LListNode α}
    (h : s.heap.lookup a = some n) :
    s.modify (some a) f = some { s with heap := s.heap.insert a (f n) } := by
  rw [modify, Option.bind_eq_bind, Option.bind_some, h]
  rfl

theorem free_eq {a : Nat} (h : a ∈ s.heap) :
    s.free (some a) = some { s with heap := s.heap.erase a } := if_pos h

theorem Shape.lookup {c : Nat × α} (h : Shape s (l ++ c :: r)) :
    s.heap.lookup c.1 = some { data := c.2, next := first r, previous := last l } :=
  h.chain.get_middle

theorem Shape.mem_heap (h : Shape s seq) {a : Nat} (ha : a ∈ addresses seq) : a ∈ s.heap := by
  obtain ⟨c, hc, rfl⟩ := List.mem_map.mp ha
  obtain ⟨l, r, rfl⟩ := List.append_of_mem hc
  rw [← AList.lookup_isSome, h.lookup]
  rfl

/-- The iterators are not part of it. -/
theorem Shape.withObservers (h : Shape s seq) (obs : List LinkedListItr) :
    Shape { s with obsList := obs } seq :=
  ⟨h.nodup, h.head, h.tail, h.chain, h.only⟩

theorem Shape.new : Shape (new : LinkedList α) [] where
  nodup := List.nodup_nil
  head := rfl
  tail := rfl
  chain := trivial
  only := fun a ha => absurd ha (AList.notMem_empty a)

/-- A node more. -/
theorem Shape.insert {k : Nat} {x : α} (h : Shape s (l ++ r)) (hk : k ∉ addresses (l ++ r))
    (hhead : t.head = first (l ++ (k, x) :: r)) (htail : t.tail = last (l ++ (k, x) :: r))
    (hnew : t.heap.lookup k = some { data := x, next := first r, previous := last l })
    (hleft : ∀ j, last l = some j →
      t.heap.lookup j = (s.heap.lookup j).map fun n => { n with next := some k })
    (hright : ∀ j, first r = some j →
      t.heap.lookup j = (s.heap.lookup j).map fun n => { n with previous := some k })
    (hsame : ∀ j ∈ addresses (l ++ r), last l ≠ some j → first r ≠ some j →
      t.heap.lookup j = s.heap.lookup j)
    (honly : ∀ a, a ∈ t.heap → a = k ∨ a ∈ s.heap) : Shape t (l ++ (k, x) :: r) where
  nodup := by
    have hperm : (addresses (l ++ (k, x) :: r)).Perm (k :: addresses (l ++ r)) := by
      rw [addresses_append, addresses_cons, addresses_append]
      exact List.perm_middle
    exact hperm.nodup_iff.mpr (List.nodup_cons.mpr ⟨hk, h.nodup⟩)
  head := hhead
  tail := htail
  chain := h.chain.insert h.nodup hnew hleft hright hsame
  only := fun a ha => by
    rw [addresses_append, addresses_cons]
    rcases honly a ha with rfl | ha
    · simp
    · have := h.only a ha
      rw [addresses_append] at this
      rcases List.mem_append.mp this with hl | hr
      · exact List.mem_append_left _ hl
      · exact List.mem_append_right _ (List.mem_cons_of_mem _ hr)

theorem nodup_middle {c : Nat × α} (h : (addresses (l ++ c :: r)).Nodup) :
    c.1 ∉ addresses (l ++ r) ∧ (addresses (l ++ r)).Nodup := by
  have hperm : (addresses (l ++ c :: r)).Perm (c.1 :: addresses (l ++ r)) := by
    rw [addresses_append, addresses_cons, addresses_append]
    exact List.perm_middle
  exact List.nodup_cons.mp (hperm.nodup_iff.mp h)

/-- A node less. -/
theorem Shape.unlink {c : Nat × α} (h : Shape s (l ++ c :: r))
    (hhead : t.head = first (l ++ r)) (htail : t.tail = last (l ++ r))
    (hleft : ∀ j, last l = some j →
      t.heap.lookup j = (s.heap.lookup j).map fun n => { n with next := first r })
    (hright : ∀ j, first r = some j →
      t.heap.lookup j = (s.heap.lookup j).map fun n => { n with previous := last l })
    (hsame : ∀ j ∈ addresses (l ++ r), last l ≠ some j → first r ≠ some j →
      t.heap.lookup j = s.heap.lookup j)
    (honly : ∀ a, a ∈ t.heap → a ≠ c.1 ∧ a ∈ s.heap) : Shape t (l ++ r) where
  nodup := (nodup_middle h.nodup).2
  head := hhead
  tail := htail
  chain := h.chain.unlink (nodup_middle h.nodup).2 hleft hright hsame
  only := fun a ha => by
    obtain ⟨hne, ha⟩ := honly a ha
    have := h.only a ha
    rw [addresses_append, addresses_cons] at this
    rw [addresses_append]
    rcases List.mem_append.mp this with hl | hr
    · exact List.mem_append_left _ hl
    · exact List.mem_append_right _ ((List.mem_cons.mp hr).resolve_left hne)

/-! ### Notification -/

theorem mapM_eq_map {β : Type} {f : β → Option β} {g : β → β} {bs : List β}
    (h : ∀ b ∈ bs, f b = some (g b)) : bs.mapM f = some (bs.map g) := by
  induction bs with
  | nil => rfl
  | cons b rest ih =>
      rw [List.mapM_cons, h b List.mem_cons_self, ih fun c hc => h c (List.mem_cons_of_mem b hc)]
      rfl

theorem callListener_eq {event : LinkedListEvents} {node : Option Nat}
    {g : LinkedListItr → LinkedListItr} (h : ∀ o, o.notify s event node = some (g o)) :
    s.callListener event node = some { s with obsList := s.obsList.map g } := by
  rw [callListener, mapM_eq_map fun o _ => h o]
  rfl

/-! ### Notification of one iterator

An iterator is told of every change.  It need not move unless it stands at the node that goes, or
nowhere while the first node comes.
-/

/-- An iterator that points nowhere goes to a new node. -/
def arrive (node : Option Nat) (o : LinkedListItr) : LinkedListItr :=
  if o.itr.isNone then { o with itr := node } else o

/-- An iterator at a node that goes away moves to `p`. -/
def leave (node : Nat) (p : Option Nat) (o : LinkedListItr) : LinkedListItr :=
  if o.itr = some node then { o with itr := p } else o

theorem ite_isSome_none (p : Option Nat) : (if p.isSome then p else none) = p := by
  cases p <;> rfl

theorem ite_isSome_or (p q : Option Nat) :
    (if p.isSome then p else if q.isSome then q else none) = p.or q := by
  cases p <;> cases q <;> rfl

/-- The three notifications of a removal differ in where an iterator at the node goes. -/
theorem moveOff_eq {a : Nat} {n : LListNode α} (h : s.heap.lookup a = some n)
    (target : LListNode α → Option Nat) (o : LinkedListItr) :
    (if o.itr = some a then do
        let n ← s.node o.itr
        return { o with itr := target n }
      else some o) = some (leave a (target n) o) := by
  rw [leave]
  split
  · rename_i hitr
    rw [hitr, node, Option.bind_some, h]
    rfl
  · rfl

theorem notify_deleteNodeFront {a : Nat} {n : LListNode α} (h : s.heap.lookup a = some n)
    (o : LinkedListItr) :
    o.notify s .deleteNodeFront (some a) = some (leave a n.next o) := by
  have hmove := moveOff_eq h (fun n => if n.next.isSome then n.next else none) o
  rwa [ite_isSome_none] at hmove

theorem notify_deleteNodeBack {a : Nat} {n : LListNode α} (h : s.heap.lookup a = some n)
    (o : LinkedListItr) :
    o.notify s .deleteNodeBack (some a) = some (leave a n.previous o) := by
  have hmove := moveOff_eq h (fun n => if n.previous.isSome then n.previous else none) o
  rwa [ite_isSome_none] at hmove

theorem notify_deleteNode {a : Nat} {n : LListNode α} (h : s.heap.lookup a = some n)
    (o : LinkedListItr) :
    o.notify s .deleteNode (some a) = some (leave a (n.previous.or n.next) o) := by
  have hmove := moveOff_eq h (fun n => if n.previous.isSome then n.previous
    else if n.next.isSome then n.next else none) o
  rwa [ite_isSome_or] at hmove

/-! ### Putting a node in -/

theorem listen_addNodeBack {k : Nat} (h : s.tail = some k) :
    s.callListener .addNodeBack (some k) =
      some { s with obsList := s.obsList.map (arrive (some k)) } :=
  callListener_eq fun o => by
    rw [LinkedListItr.notify, h]
    rfl

theorem listen_addNodeFront {k : Nat} (h : s.head = some k) :
    s.callListener .addNodeFront (some k) =
      some { s with obsList := s.obsList.map (arrive (some k)) } :=
  callListener_eq fun o => by
    rw [LinkedListItr.notify, h]
    rfl

/-- The first node of all. -/
theorem Shape.single (h : Shape s []) {k : Nat} {data : α} (hhead : t.head = some k)
    (htail : t.tail = some k)
    (hheap : t.heap = s.heap.insert k { data := data, next := none, previous := none }) :
    Shape t [(k, data)] := by
  refine Shape.insert (s := s) (l := []) (r := []) h List.not_mem_nil hhead htail ?_ nofun nofun
    nofun fun a ha => ?_
  · rw [hheap]
    exact AList.lookup_insert _
  · rw [hheap] at ha
    exact (AList.mem_insert _).mp ha

/-- What is on the heap after a new node and its neighbour were written to. -/
theorem mem_rewired {heap : AList fun _ : Nat => LListNode α} {a k c : Nat}
    {m n o : LListNode α} (hc : c ∈ heap)
    (ha : a ∈ ((heap.insert k m).insert c n).insert k o) : a = k ∨ a ∈ heap := by
  simp only [AList.mem_insert] at ha
  rcases ha with rfl | rfl | rfl | ha
  · exact Or.inl rfl
  · exact Or.inr hc
  · exact Or.inl rfl
  · exact Or.inr ha

theorem insertAtBack_eq (h : Shape s seq) (data : α) {k : Nat} (hk : k ∉ s.heap) :
    ∃ t, s.insertAtBack data k = some t ∧ Shape t (seq ++ [(k, data)]) ∧
      t.obsList = s.obsList.map (arrive (some k)) ∧ t.elements = s.elements + 1 := by
  have hnew : k ∉ addresses seq := fun hmem => hk (h.mem_heap hmem)
  rcases List.eq_nil_or_concat seq with rfl | ⟨l, c, rfl⟩
  · have htail : s.tail = none := h.tail
    refine ⟨{ s with
      heap := s.heap.insert k { data := data, next := none, previous := none }
      head := some k
      tail := some k
      elements := s.elements + 1
      obsList := s.obsList.map (arrive (some k)) }, ?_, h.single rfl rfl rfl, rfl, rfl⟩
    simp [insertAtBack, alloc, htail, listen_addNodeBack]
  · rw [List.concat_eq_append] at h hnew ⊢
    have hlook : s.heap.lookup c.1 = some { data := c.2, next := none, previous := last l } :=
      h.lookup
    have hne : c.1 ≠ k := fun heq => hnew (by simp [heq])
    have htail : s.tail = some c.1 := h.tail.trans (last_concat l c)
    refine ⟨{ s with
      heap := ((s.heap.insert k { data := data, next := none, previous := none }).insert c.1
        { data := c.2, next := some k, previous := last l }).insert k
          { data := data, next := none, previous := some c.1 }
      tail := some k
      elements := s.elements + 1
      obsList := s.obsList.map (arrive (some k)) }, ?_, ?_, rfl, rfl⟩
    · simp [insertAtBack, alloc, htail, setNext, setPrevious, modify, node, hlook, hne, hne.symm,
        listen_addNodeBack, AList.lookup_insert, AList.lookup_insert_ne]
    · refine Shape.insert (s := s) (l := l ++ [c]) (r := []) (by simpa using h)
        (by simpa using hnew) (by simp [h.head]) (by simp) (by simp [AList.lookup_insert])
        (fun j hj => ?_) nofun (fun j hj hlast _ => ?_)
        fun a ha => mem_rewired (h.mem_heap (by simp)) ha
      · rw [last_concat] at hj
        cases hj
        rw [hlook]
        exact (AList.lookup_insert_ne hne).trans (AList.lookup_insert _)
      · have hjk : j ≠ k := fun heq => hnew (by simpa [heq] using hj)
        have hjc : j ≠ c.1 := fun heq => hlast (by rw [last_concat, heq])
        exact (AList.lookup_insert_ne hjk).trans ((AList.lookup_insert_ne hjc).trans
          (AList.lookup_insert_ne hjk))

theorem insertAtFront_eq (h : Shape s seq) (data : α) {k : Nat} (hk : k ∉ s.heap) :
    ∃ t, s.insertAtFront data k = some t ∧ Shape t ((k, data) :: seq) ∧
      t.obsList = s.obsList.map (arrive (some k)) ∧ t.elements = s.elements + 1 := by
  have hnew : k ∉ addresses seq := fun hmem => hk (h.mem_heap hmem)
  cases seq with
  | nil =>
      have hhead : s.head = none := h.head
      refine ⟨{ s with
        heap := s.heap.insert k { data := data, next := none, previous := none }
        head := some k
        tail := some k
        elements := s.elements + 1
        obsList := s.obsList.map (arrive (some k)) }, ?_, h.single rfl rfl rfl, rfl, rfl⟩
      simp [insertAtFront, alloc, hhead, listen_addNodeFront]
  | cons c r =>
      have hlook : s.heap.lookup c.1 = some { data := c.2, next := first r, previous := none } :=
        Shape.lookup (l := []) h
      have hne : c.1 ≠ k := fun heq => hnew (by simp [heq])
      have hhead : s.head = some c.1 := h.head
      refine ⟨{ s with
        heap := ((s.heap.insert k { data := data, next := none, previous := none }).insert c.1
          { data := c.2, next := first r, previous := some k }).insert k
            { data := data, next := some c.1, previous := none }
        head := some k
        elements := s.elements + 1
        obsList := s.obsList.map (arrive (some k)) }, ?_, ?_, rfl, rfl⟩
      · simp [insertAtFront, alloc, hhead, setNext, setPrevious, modify, node, hlook, hne,
          hne.symm, listen_addNodeFront, AList.lookup_insert, AList.lookup_insert_ne]
      · refine Shape.insert (s := s) (l := []) (r := c :: r) h hnew rfl (by simp [h.tail])
          (by simp [AList.lookup_insert]) nofun (fun j hj => ?_) (fun j hj _ hfirst => ?_)
          fun a ha => mem_rewired (h.mem_heap (by simp)) ha
        · cases hj
          rw [hlook]
          exact (AList.lookup_insert_ne hne).trans (AList.lookup_insert _)
        · have hjk : j ≠ k := fun heq => hnew (by simpa [heq] using hj)
          have hjc : j ≠ c.1 := fun heq => hfirst (by rw [heq]; rfl)
          exact (AList.lookup_insert_ne hjk).trans ((AList.lookup_insert_ne hjc).trans
            (AList.lookup_insert_ne hjk))

/-! ### Taking a node out

Removal at either end and `Delete` do the same with the neighbours and differ in which pointers of
the list they look at.
-/

/-- The heap after the node behind `p`, if there is one, was written to. -/
def redirect (heap : AList fun _ : Nat => LListNode α) (p : Option Nat)
    (f : LListNode α → LListNode α) : AList fun _ : Nat => LListNode α :=
  match p with
  | none => heap
  | some a =>
      match heap.lookup a with
      | none => heap
      | some n => heap.insert a (f n)

theorem redirect_some {heap : AList fun _ : Nat => LListNode α} {a : Nat} {n : LListNode α}
    (h : heap.lookup a = some n) (f : LListNode α → LListNode α) :
    redirect heap (some a) f = heap.insert a (f n) := by rw [redirect, h]

theorem redirect_free {heap : AList fun _ : Nat => LListNode α} {a : Nat}
    (h : heap.lookup a = none) (f : LListNode α → LListNode α) :
    redirect heap (some a) f = heap := by rw [redirect, h]

theorem lookup_redirect (heap : AList fun _ : Nat => LListNode α) (p : Option Nat)
    (f : LListNode α → LListNode α) (j : Nat) :
    (redirect heap p f).lookup j =
      if p = some j then (heap.lookup j).map f else heap.lookup j := by
  cases p with
  | none => rfl
  | some a =>
      by_cases haj : a = j
      · subst haj
        rw [if_pos rfl]
        cases hlook : heap.lookup a with
        | none => rw [redirect_free hlook, hlook]; rfl
        | some n => rw [redirect_some hlook, AList.lookup_insert]; rfl
      · rw [if_neg fun h => haj (Option.some.inj h)]
        cases hlook : heap.lookup a with
        | none => rw [redirect_free hlook]
        | some n => rw [redirect_some hlook, AList.lookup_insert_ne fun h => haj h.symm]

theorem mem_redirect {heap : AList fun _ : Nat => LListNode α} {p : Option Nat}
    {f : LListNode α → LListNode α} {j : Nat} : j ∈ redirect heap p f ↔ j ∈ heap := by
  rw [← AList.lookup_isSome, ← AList.lookup_isSome, lookup_redirect]
  split
  · rw [Option.isSome_map]
  · rfl

/-- `if(p) { p->... }`. -/
theorem ite_modify {p : Option Nat} {f : LListNode α → LListNode α}
    (hp : ∀ a, p = some a → a ∈ s.heap) :
    (if p.isSome = true then s.modify p f else some s) =
      some { s with heap := redirect s.heap p f } := by
  cases p with
  | none => rfl
  | some a =>
      obtain ⟨n, hn⟩ := Option.isSome_iff_exists.mp (AList.lookup_isSome.mpr (hp a rfl))
      rw [Option.isSome_some, if_pos rfl, modify_eq hn, redirect_some hn]

theorem not_mem_parts {c : Nat × α} (h : (addresses (l ++ c :: r)).Nodup) :
    first l ≠ some c.1 ∧ last l ≠ some c.1 ∧ first r ≠ some c.1 ∧ last r ≠ some c.1 := by
  have hc := (nodup_middle h).1
  rw [addresses_append] at hc
  exact ⟨fun hf => hc (List.mem_append_left _ (mem_of_first hf)),
    fun hf => hc (List.mem_append_left _ (mem_of_last hf)),
    fun hf => hc (List.mem_append_right _ (mem_of_first hf)),
    fun hf => hc (List.mem_append_right _ (mem_of_last hf))⟩

theorem last_ne_first {j : Nat} (h : (addresses (l ++ r)).Nodup) (hl : last l = some j) :
    first r ≠ some j := by
  rw [addresses_append] at h
  exact fun hr => (List.nodup_append.mp h).2.2 j (mem_of_last hl) j (mem_of_first hr) rfl

/-- The two neighbours of a node redirected past it, and the node freed. -/
theorem Shape.unlinked {c : Nat × α} (h : Shape s (l ++ c :: r)) (hhead : t.head = first (l ++ r))
    (htail : t.tail = last (l ++ r))
    (hheap : t.heap = (redirect (redirect s.heap (first r) fun n => { n with previous := last l })
      (last l) fun n => { n with next := first r }).erase c.1) : Shape t (l ++ r) := by
  have hnodup := (nodup_middle h.nodup).2
  have hne := not_mem_parts h.nodup
  have hlook (j : Nat) (hj : j ≠ c.1) : t.heap.lookup j =
      (redirect (redirect s.heap (first r) fun n => { n with previous := last l })
        (last l) fun n => { n with next := first r }).lookup j := by
    rw [hheap, AList.lookup_erase_ne hj]
  refine h.unlink hhead htail (fun j hj => ?_) (fun j hj => ?_) (fun j hj hl hr => ?_)
    fun a ha => ?_
  · have hjc : j ≠ c.1 := fun heq => hne.2.1 (by rw [hj, heq])
    rw [hlook j hjc, lookup_redirect, if_pos hj, lookup_redirect, if_neg (last_ne_first hnodup hj)]
  · have hjc : j ≠ c.1 := fun heq => hne.2.2.1 (by rw [hj, heq])
    rw [hlook j hjc, lookup_redirect, if_neg fun hl => last_ne_first hnodup hl hj,
      lookup_redirect, if_pos hj]
  · have hjc : j ≠ c.1 := fun heq => (nodup_middle h.nodup).1 (heq ▸ hj)
    rw [hlook j hjc, lookup_redirect, if_neg hl, lookup_redirect, if_neg hr]
  · rw [hheap, AList.mem_erase, mem_redirect, mem_redirect] at ha
    exact ha

theorem removeFromFront_nil (h : Shape s []) : s.removeFromFront = some (s, none) := by
  rw [removeFromFront, h.head]
  rfl

theorem removeFromBack_nil (h : Shape s []) : s.removeFromBack = some (s, none) := by
  rw [removeFromBack, h.tail]
  rfl

/-- `mTail` moves to null if its node was the only one. -/
theorem Shape.tail_or_null {c : Nat × α} (h : Shape s (c :: r)) (htail : t.tail = s.tail) :
    (if t.tail = some c.1 then { t with tail := none } else t) = { t with tail := last r } := by
  have hne := (not_mem_parts (l := []) h.nodup).2.2.2
  rw [htail, h.tail, last_cons]
  cases hr : last r with
  | none => simp
  | some d =>
      have hd : d ≠ c.1 := fun heq => hne (by rw [hr, heq])
      rw [Option.some_or, if_neg fun heq => hd (Option.some.inj heq), ← hr]
      have : t.tail = last r := by rw [htail, h.tail, last_cons, hr, Option.some_or]
      rw [← this]

/-- `mHead` likewise. -/
theorem Shape.head_or_null {c : Nat × α} (h : Shape s (l ++ [c])) (hhead : t.head = s.head) :
    (if t.head = some c.1 then { t with head := none } else t) = { t with head := first l } := by
  have hne := (not_mem_parts (r := []) h.nodup).1
  rw [hhead, h.head, first_append]
  cases hl : first l with
  | none => simp
  | some d =>
      have hd : d ≠ c.1 := fun heq => hne (by rw [hl, heq])
      rw [Option.some_or, if_neg fun heq => hd (Option.some.inj heq), ← hl]
      have : t.head = first l := by rw [hhead, h.head, first_append, hl, Option.some_or]
      rw [← this]

theorem removeFromFront_eq {c : Nat × α} (h : Shape s (c :: r)) :
    ∃ t, s.removeFromFront = some (t, some c.2) ∧ Shape t r ∧
      t.obsList = s.obsList.map (leave c.1 (first r)) ∧ t.elements = s.elements - 1 := by
  have hlook : s.heap.lookup c.1 = some { data := c.2, next := first r, previous := none } :=
    Shape.lookup (l := []) h
  have hhead : s.head = some c.1 := h.head
  have hne := (not_mem_parts (l := []) h.nodup).2.2.1
  let heap := redirect s.heap (first r) fun n => { n with previous := none }
  have hredirect : (if (first r).isSome = true then
      ({ s with head := first r } : LinkedList α).setPrevious (first r) none
      else some { s with head := first r }) = some { s with head := first r, heap := heap } :=
    ite_modify fun a ha => h.mem_heap (List.mem_cons_of_mem _ (mem_of_first ha))
  have htail := h.tail_or_null (t := { s with head := first r, heap := heap }) rfl
  have hnode : heap.lookup c.1 = some { data := c.2, next := first r, previous := none } := by
    rw [lookup_redirect, if_neg hne, hlook]
  have hlisten : ({ s with head := first r, heap := heap, tail := last r } :
      LinkedList α).callListener .deleteNodeFront (some c.1) = some { s with
        head := first r
        heap := heap
        tail := last r
        obsList := s.obsList.map (leave c.1 (first r)) } :=
    callListener_eq (notify_deleteNodeFront (n := ⟨c.2, first r, none⟩) hnode)
  have hmem : c.1 ∈ heap := mem_redirect.mpr (h.mem_heap List.mem_cons_self)
  refine ⟨{ s with
    heap := heap.erase c.1
    head := first r
    tail := last r
    elements := s.elements - 1
    obsList := s.obsList.map (leave c.1 (first r)) }, ?_,
    Shape.unlinked (l := []) h rfl rfl rfl, rfl, rfl⟩
  rw [removeFromFront, hhead]
  simp only [Option.isNone_some, Bool.false_eq_true, if_false, node, Option.bind_eq_bind,
    Option.bind_some, hlook]
  rw [hredirect, Option.bind_some, htail, hlisten, Option.bind_some, free_eq hmem]
  rfl

theorem removeFromBack_eq {c : Nat × α} (h : Shape s (l ++ [c])) :
    ∃ t, s.removeFromBack = some (t, some c.2) ∧ Shape t l ∧
      t.obsList = s.obsList.map (leave c.1 (last l)) ∧ t.elements = s.elements - 1 := by
  have hlook : s.heap.lookup c.1 = some { data := c.2, next := none, previous := last l } :=
    h.lookup
  have htail : s.tail = some c.1 := h.tail.trans (last_concat l c)
  have hne := (not_mem_parts (r := []) h.nodup).2.1
  let heap := redirect s.heap (last l) fun n => { n with next := none }
  have hredirect : (if (last l).isSome = true then
      ({ s with tail := last l } : LinkedList α).setNext (last l) none
      else some { s with tail := last l }) = some { s with tail := last l, heap := heap } :=
    ite_modify fun a ha => h.mem_heap (by
      rw [addresses_append]
      exact List.mem_append_left _ (mem_of_last ha))
  have hhead := h.head_or_null (t := { s with tail := last l, heap := heap }) rfl
  have hnode : heap.lookup c.1 = some { data := c.2, next := none, previous := last l } := by
    rw [lookup_redirect, if_neg hne, hlook]
  have hlisten : ({ s with tail := last l, heap := heap, head := first l } :
      LinkedList α).callListener .deleteNodeBack (some c.1) = some { s with
        tail := last l
        heap := heap
        head := first l
        obsList := s.obsList.map (leave c.1 (last l)) } :=
    callListener_eq (notify_deleteNodeBack (n := ⟨c.2, none, last l⟩) hnode)
  have hmem : c.1 ∈ heap := mem_redirect.mpr (h.mem_heap (by simp))
  refine ⟨{ s with
    heap := heap.erase c.1
    head := first l
    tail := last l
    elements := s.elements - 1
    obsList := s.obsList.map (leave c.1 (last l)) }, ?_, ?_, rfl, rfl⟩
  · rw [removeFromBack, htail]
    simp only [Option.isNone_some, Bool.false_eq_true, if_false, node, Option.bind_eq_bind,
      Option.bind_some, hlook]
    rw [hredirect, Option.bind_some, hhead, hlisten, Option.bind_some, free_eq hmem]
    rfl
  · have hshape := Shape.unlinked (t := { s with
      heap := heap.erase c.1
      head := first l
      tail := last l
      elements := s.elements - 1
      obsList := s.obsList.map (leave c.1 (last l)) }) (l := l) (r := []) h (by simp) (by simp) rfl
    simpa using hshape

/-- `Delete` moves `mHead` off its node. -/
theorem Shape.delete_head {c : Nat × α} (h : Shape s (l ++ c :: r)) :
    (if some c.1 = s.head then (s.node s.head).map fun n => { s with head := n.next }
      else some s) = some { s with head := first (l ++ r) } := by
  cases l with
  | nil =>
      have hhead : s.head = some c.1 := h.head
      have hlook : s.heap.lookup c.1 = some { data := c.2, next := first r, previous := none } :=
        Shape.lookup (l := []) h
      rw [hhead, if_pos rfl, node, Option.bind_some, hlook]
      rfl
  | cons d l =>
      have hhead : s.head = some d.1 := h.head
      have hne := (not_mem_parts h.nodup).1
      rw [hhead, if_neg fun heq => hne heq.symm, first_append, first_cons, Option.some_or,
        ← hhead]

/-- And `mTail`. -/
theorem Shape.delete_tail {c : Nat × α} (h : Shape s (l ++ c :: r)) (hheap : t.heap = s.heap)
    (htail : t.tail = s.tail) :
    (if some c.1 = t.tail then (t.node t.tail).map fun n => { t with tail := n.previous }
      else some t) = some { t with tail := last (l ++ r) } := by
  rcases List.eq_nil_or_concat r with rfl | ⟨r, d, rfl⟩
  · have hlast : t.tail = some c.1 := htail.trans (h.tail.trans (last_concat l c))
    have hlook : s.heap.lookup c.1 = some { data := c.2, next := none, previous := last l } :=
      h.lookup
    rw [hlast, if_pos rfl, node, Option.bind_some, hheap, hlook, List.append_nil]
    rfl
  · rw [List.concat_eq_append] at h ⊢
    have hlast : t.tail = some d.1 := by
      rw [htail, h.tail]
      simp
    have hne := (not_mem_parts h.nodup).2.2.2
    rw [last_concat] at hne
    rw [hlast, if_neg fun heq => hne heq.symm, ← List.append_assoc, last_concat, ← hlast]

theorem delete_eq {c : Nat × α} (h : Shape s (l ++ c :: r)) :
    ∃ t, s.delete (some c.1) = some t ∧ Shape t (l ++ r) ∧
      t.obsList = s.obsList.map (leave c.1 ((last l).or (first r))) ∧
      t.elements = s.elements := by
  have hlook := h.lookup
  have hne := not_mem_parts h.nodup
  let s₁ : LinkedList α := { s with
    head := first (l ++ r)
    tail := last (l ++ r)
    obsList := s.obsList.map (leave c.1 ((last l).or (first r))) }
  let heap₁ := redirect s.heap (first r) fun n => { n with previous := last l }
  let heap₂ := redirect heap₁ (last l) fun n => { n with next := first r }
  have htail := h.delete_tail (t := { s with head := first (l ++ r) }) rfl rfl
  have hlisten : ({ s with head := first (l ++ r), tail := last (l ++ r) } :
      LinkedList α).callListener .deleteNode (some c.1) = some s₁ :=
    callListener_eq (notify_deleteNode (n := ⟨c.2, first r, last l⟩) hlook)
  have hright : (if (first r).isSome = true then s₁.setPrevious (first r) (last l) else some s₁) =
      some { s₁ with heap := heap₁ } :=
    ite_modify fun a ha => h.mem_heap (by
      rw [addresses_append, addresses_cons]
      exact List.mem_append_right _ (List.mem_cons_of_mem _ (mem_of_first ha)))
  have hleft : (if (last l).isSome = true then
      ({ s₁ with heap := heap₁ } : LinkedList α).setNext (last l) (first r)
      else some { s₁ with heap := heap₁ }) = some { s₁ with heap := heap₂ } :=
    ite_modify fun a ha => mem_redirect.mpr (h.mem_heap (by
      rw [addresses_append]
      exact List.mem_append_left _ (mem_of_last ha)))
  have hmem : c.1 ∈ heap₂ := mem_redirect.mpr (mem_redirect.mpr (h.mem_heap (by simp)))
  refine ⟨{ s₁ with heap := heap₂.erase c.1 }, ?_, h.unlinked rfl rfl rfl, rfl, rfl⟩
  have hnode : s₁.node (some c.1) = some { data := c.2, next := first r, previous := last l } :=
    hlook
  rw [delete, Option.isNone_some, if_neg Bool.false_ne_true, h.delete_head]
  simp only [Option.bind_eq_bind, Option.bind_some, htail, hlisten, hnode, hright, hleft]
  exact free_eq hmem

/-! ### Clearing -/

theorem Shape.length_le (h : Shape s seq) : seq.length ≤ s.heap.keys.length := by
  have hsub : addresses seq ⊆ s.heap.keys := fun a ha => AList.mem_keys.mp (h.mem_heap ha)
  have := (List.subperm_of_subset h.nodup hsub).length_le
  rwa [addresses, List.length_map] at this

/--
The loop frees the nodes from the front on.  The links back are not looked at, so it does not
matter that the first of them leads to a node that is freed already.
-/
theorem clearNodes_eq {rounds : Nat} {before : Option Nat} (hlen : seq.length ≤ rounds)
    (hnodup : (addresses seq).Nodup) (hhead : s.head = first seq)
    (hchain : Chain (fun a => s.heap.lookup a) before seq none) :
    ∃ t, clearNodes rounds s s.head = some t ∧
      (∀ a, a ∈ t.heap → a ∈ s.heap ∧ a ∉ addresses seq) ∧ t.obsList = s.obsList := by
  induction seq generalizing s rounds before with
  | nil =>
      rw [hhead]
      refine ⟨s, ?_, fun a ha => ⟨ha, List.not_mem_nil⟩, rfl⟩
      cases rounds <;> rfl
  | cons c rest ih =>
      obtain ⟨hlook, hrest⟩ := hchain
      dsimp only at hlook
      obtain ⟨hc, hnodup⟩ := List.nodup_cons.mp hnodup
      cases rounds with
      | zero => cases hlen
      | succ rounds =>
          have hmem : c.1 ∈ s.heap := AList.lookup_isSome.mp (by rw [hlook]; rfl)
          obtain ⟨t, ht, honly, hobs⟩ := ih (s := { s with
              head := (first rest).or none
              heap := s.heap.erase c.1 }) (Nat.le_of_succ_le_succ hlen) hnodup
            (Option.or_none) (hrest.congr fun k hk =>
              AList.lookup_erase_ne fun heq => hc (heq ▸ hk))
          refine ⟨t, ?_, fun a ha => ?_, hobs⟩
          · rw [hhead, first_cons, clearNodes, hhead, first_cons, node, Option.bind_some, hlook]
            simp only [Option.bind_eq_bind, Option.bind_some]
            rw [free_eq (s := { s with head := (first rest).or none }) hmem, Option.bind_some]
            exact ht
          · obtain ⟨hheap, hnot⟩ := honly a ha
            obtain ⟨hne, hheap⟩ := AList.mem_erase.mp hheap
            exact ⟨hheap, fun hin => (List.mem_cons.mp hin).elim hne hnot⟩

theorem clear_eq (h : Shape s seq) :
    ∃ t, s.clear = some t ∧ Shape t [] ∧
      t.obsList = s.obsList.map (fun o => { o with itr := none }) ∧ t.elements = 0 := by
  obtain ⟨t, ht, honly, hobs⟩ := clearNodes_eq h.length_le h.nodup h.head h.chain
  refine ⟨{ t with
    head := none
    tail := none
    elements := 0
    obsList := t.obsList.map fun o => { o with itr := none } }, ?_, ?_, by rw [← hobs], rfl⟩
  · rw [clear, ht]
    exact callListener_eq fun o => rfl
  · exact ⟨List.nodup_nil, rfl, rfl, trivial, fun a ha =>
      absurd (h.only a (honly a ha).1) (honly a ha).2⟩

/-! ### Looking at the ends -/

theorem front_eq (h : Shape s seq) : s.front = some (seq.head?.map Prod.snd) := by
  rw [front, h.head]
  cases seq with
  | nil => rfl
  | cons c rest =>
      have hlook := Shape.lookup (l := []) h
      rw [first_cons, Option.isNone_some, if_neg Bool.false_ne_true, node, Option.bind_some,
        hlook]
      rfl

theorem back_eq (h : Shape s seq) : s.back = some (seq.getLast?.map Prod.snd) := by
  rw [back, h.tail]
  rcases List.eq_nil_or_concat seq with rfl | ⟨l, c, rfl⟩
  · rfl
  · rw [List.concat_eq_append] at h ⊢
    have hlook := h.lookup
    rw [last_concat, Option.isNone_some, if_neg Bool.false_ne_true, node, Option.bind_some,
      hlook, List.getLast?_concat]
    rfl

theorem Shape.nodes_eq (h : Shape s seq) : s.nodes = addresses seq := by
  have hreached := h.chain.reached_next
  rw [← h.head] at hreached
  exact hreached.walk_eq (by rw [addresses, List.length_map]; exact h.length_le)

/-! ### Iterators at nodes of the list -/

/-- The iterator is at a node of the sequence, or nowhere if there is none. -/
def Points (seq : List (Nat × α)) (o : LinkedListItr) : Prop :=
  match o.itr with
  | none => seq = []
  | some a => a ∈ addresses seq

theorem Points.arrive {seq' : List (Nat × α)} {o : LinkedListItr} {k : Nat} (h : Points seq o)
    (hk : k ∈ addresses seq') (hsub : ∀ a ∈ addresses seq, a ∈ addresses seq') :
    Points seq' (arrive (some k) o) := by
  obtain ⟨address, itr⟩ := o
  cases itr with
  | none => exact hk
  | some a => exact hsub a h

theorem Points.leave {c : Nat × α} {o : LinkedListItr} {p : Option Nat}
    (h : Points (l ++ c :: r) o) (hp : ∀ a, p = some a → a ∈ addresses (l ++ r))
    (hnone : p = none → l ++ r = []) : Points (l ++ r) (leave c.1 p o) := by
  obtain ⟨address, itr⟩ := o
  cases itr with
  | none => exact absurd (show l ++ c :: r = [] from h) (by simp)
  | some a =>
      rw [LinkedList.leave]
      by_cases ha : a = c.1
      · rw [if_pos (congrArg some ha)]
        cases p with
        | none => exact hnone rfl
        | some b => exact hp b rfl
      · rw [if_neg fun heq => ha (Option.some.inj heq)]
        have hmem : a ∈ addresses (l ++ c :: r) := h
        rw [addresses_append, addresses_cons] at hmem
        show a ∈ addresses (l ++ r)
        rw [addresses_append]
        rcases List.mem_append.mp hmem with hl | hr
        · exact List.mem_append_left _ hl
        · exact List.mem_append_right _ ((List.mem_cons.mp hr).resolve_left ha)

/-- The neighbour an iterator moves to. -/
theorem Points.leave_neighbour {c : Nat × α} {o : LinkedListItr} (h : Points (l ++ c :: r) o) :
    Points (l ++ r) (LinkedList.leave c.1 ((last l).or (first r)) o) := by
  refine h.leave (fun a ha => ?_) fun hnone => ?_
  · rw [addresses_append]
    cases hl : last l with
    | none =>
        rw [hl, Option.none_or] at ha
        exact List.mem_append_right _ (mem_of_first ha)
    | some b =>
        rw [hl, Option.some_or] at ha
        cases ha
        exact List.mem_append_left _ (mem_of_last hl)
  · obtain ⟨hl, hr⟩ := Option.or_eq_none_iff.mp hnone
    rw [last_eq_none.mp hl, first_eq_none.mp hr]
    rfl

/-! ### One call -/

/-- The iterators of `s` have followed its change to `t`. -/
def Followed (s t : LinkedList α) (seq seq' : List (Nat × α)) : Prop :=
  (∀ o ∈ s.obsList, Points seq o) → ∀ o ∈ t.obsList, Points seq' o

theorem followed_of_map {seq' : List (Nat × α)} {g : LinkedListItr → LinkedListItr}
    (hobs : t.obsList = s.obsList.map g) (h : ∀ o, Points seq o → Points seq' (g o)) :
    Followed s t seq seq' := by
  intro hs o ho
  rw [hobs] at ho
  obtain ⟨p, hp, rfl⟩ := List.mem_map.mp ho
  exact h p (hs p hp)

theorem delete_spec (h : Shape s seq) {k : Nat} (hk : k ∈ addresses seq) :
    ∃ t, s.delete (some k) = some t ∧ Shape t (seq.eraseP fun c => c.1 = k) ∧
      Followed s t seq (seq.eraseP fun c => c.1 = k) ∧ t.elements = s.elements := by
  obtain ⟨c, hc, rfl⟩ := List.mem_map.mp hk
  obtain ⟨d, l, r, -, hd, rfl, herase⟩ :=
    List.exists_of_eraseP (p := fun d => decide (d.1 = c.1)) hc (by simp)
  have hkey : d.1 = c.1 := by simpa using hd
  obtain ⟨t, ht, hshape, hobs, helements⟩ := delete_eq h
  rw [hkey] at ht
  exact ⟨t, ht, by rw [herase]; exact hshape,
    by rw [herase]; exact followed_of_map hobs fun o ho => ho.leave_neighbour, helements⟩

/-- What a call makes of `mElements`. -/
def tally (seq : List (Nat × α)) (elements : Int) : ListCall α → Int
  | .insertAtBack _ _ | .insertAtFront _ _ => elements + 1
  | .removeFromFront | .removeFromBack => if seq.isEmpty then elements else elements - 1
  | .front | .back | .delete _ => elements
  | .clear => 0

/-- Every call that is allowed does to the list what it denotes, and takes the iterators
along. -/
theorem call_spec (h : Shape s seq) {c : ListCall α} (hallows : s.allows c = true) :
    ∃ t, s.call c = some (t, (c.denote seq).2) ∧ Shape t (c.denote seq).1 ∧
      Followed s t seq (c.denote seq).1 ∧ t.elements = tally seq s.elements c := by
  cases c with
  | insertAtBack data k =>
      obtain ⟨t, ht, hshape, hobs, helements⟩ := insertAtBack_eq h data (k := k)
        (by simpa [allows] using hallows)
      exact ⟨t, by rw [call, ht]; rfl, hshape, followed_of_map hobs fun o ho =>
        ho.arrive (by simp [ListCall.denote]) fun a ha => by simp [ListCall.denote, ha],
        helements⟩
  | insertAtFront data k =>
      obtain ⟨t, ht, hshape, hobs, helements⟩ := insertAtFront_eq h data (k := k)
        (by simpa [allows] using hallows)
      exact ⟨t, by rw [call, ht]; rfl, hshape, followed_of_map hobs fun o ho =>
        ho.arrive (by simp [ListCall.denote]) fun a ha => by simp [ListCall.denote, ha],
        helements⟩
  | removeFromFront =>
      cases seq with
      | nil => exact ⟨s, by rw [call, removeFromFront_nil h]; rfl, h, id, rfl⟩
      | cons c r =>
          obtain ⟨t, ht, hshape, hobs, helements⟩ := removeFromFront_eq h
          exact ⟨t, by rw [call, ht]; rfl, hshape, followed_of_map hobs fun o ho =>
            Points.leave_neighbour (l := []) ho, helements⟩
  | removeFromBack =>
      rcases List.eq_nil_or_concat seq with rfl | ⟨l, c, rfl⟩
      · exact ⟨s, by rw [call, removeFromBack_nil h]; rfl, h, id, rfl⟩
      · rw [List.concat_eq_append] at h ⊢
        obtain ⟨t, ht, hshape, hobs, helements⟩ := removeFromBack_eq h
        refine ⟨t, by rw [call, ht]; simp [ListCall.denote],
          by simpa [ListCall.denote] using hshape, ?_, by simpa [tally] using helements⟩
        refine followed_of_map hobs fun o ho => ?_
        have hleave := Points.leave_neighbour (r := []) ho
        simpa [ListCall.denote] using hleave
  | front => exact ⟨s, by rw [call, front_eq h]; rfl, h, id, rfl⟩
  | back => exact ⟨s, by rw [call, back_eq h]; rfl, h, id, rfl⟩
  | delete k =>
      have hk : k ∈ addresses seq := by
        rw [allows, h.nodes_eq] at hallows
        exact of_decide_eq_true hallows
      obtain ⟨t, ht, hshape, hfollowed, helements⟩ := delete_spec h hk
      exact ⟨t, by rw [call, ht]; rfl, hshape, hfollowed, helements⟩
  | clear =>
      obtain ⟨t, ht, hshape, hobs, helements⟩ := clear_eq h
      exact ⟨t, by rw [call, ht]; rfl, hshape, followed_of_map hobs fun o _ => rfl, helements⟩

/-! ### What the pointers lead to -/

/-- The list holds this sequence. -/
structure Represents (s : LinkedList α) (seq : List (Nat × α)) : Prop where
  /-- From `mHead`, `Next` leads to its nodes in order. -/
  forward : Reached (fun a => (s.heap.lookup a).map Cell.next) s.head (addresses seq)
  /-- From `mTail`, `Previous` leads to them in the opposite order. -/
  backward : Reached (fun a => (s.heap.lookup a).map Cell.previous) s.tail (addresses seq).reverse
  /-- Each holds its element, and none is free. -/
  data : ∀ c ∈ seq, (s.heap.lookup c.1).map Cell.data = some c.2
  head_null : s.head = none ↔ seq = []
  tail_null : s.tail = none ↔ seq = []

theorem Shape.represents (h : Shape s seq) : Represents s seq where
  forward := by
    rw [h.head]
    exact h.chain.reached_next
  backward := by
    rw [h.tail]
    exact h.chain.reached_previous
  data := fun c hc => by
    obtain ⟨l, r, rfl⟩ := List.append_of_mem hc
    rw [h.lookup]
    rfl
  head_null := by rw [h.head, first_eq_none]
  tail_null := by rw [h.tail, last_eq_none]

/-- No node that has been freed is met from either end. -/
theorem Represents.live (h : Represents s seq) {a : Nat} (ha : a ∈ addresses seq) :
    a ∈ s.heap := by
  have hsome := h.forward.exists_of_mem ha
  rw [Option.isSome_map] at hsome
  exact AList.lookup_isSome.mp hsome

/-- A list holds one sequence only. -/
theorem Represents.unique {seq' : List (Nat × α)} (h : Represents s seq)
    (h' : Represents s seq') : seq = seq' := by
  have haddresses := h.forward.unique h'.forward
  refine List.ext_getElem (by simpa [addresses] using congrArg List.length haddresses) ?_
  intro i hi hi'
  have hkey : (seq[i]).1 = (seq'[i]).1 := by
    have := congrArg (fun ks => ks[i]?) haddresses
    simpa [addresses, hi, hi'] using this
  have hdata := h.data _ (List.getElem_mem hi)
  rw [hkey, h'.data _ (List.getElem_mem hi')] at hdata
  exact Prod.ext hkey (Option.some.inj hdata).symm

end LinkedList

namespace ListRun

open LinkedList

variable {α : Type} {r : ListRun α} {seq : List (Nat × α)}

/-- Calls that are allowed when they are made do what they denote. -/
theorem exec_denotes {calls : List (ListCall α)} (h : Shape r.list seq)
    (hallows : Runs.Along ListRun.next (fun r c => r.list.allows c = true) r calls) :
    ∃ t, Runs.exec ListRun.next r calls = some t ∧
      Shape t.list (ListCall.denoteAll seq calls).1 ∧
      t.results = r.results ++ (ListCall.denoteAll seq calls).2 := by
  induction calls generalizing r seq with
  | nil => exact ⟨r, rfl, h, (List.append_nil _).symm⟩
  | cons c rest ih =>
      obtain ⟨list, hcall, hshape, -⟩ := call_spec h hallows.1
      have hnext : r.next c =
          some { list := list, results := r.results ++ (c.denote seq).2 } := by
        rw [ListRun.next, hcall]
        rfl
      obtain ⟨t, ht, hend, hresults⟩ := ih hshape (hallows.2 _ hnext)
      refine ⟨t, Runs.exec_cons_eq_some.mpr ⟨_, hnext, ht⟩, hend, ?_⟩
      rw [hresults, List.append_assoc]
      rfl

/--
Whatever calls are made on an empty list, they do not go wrong, they answer what the calls of
a double-ended sequence answer, and the list then holds that sequence.
-/
theorem represents_denoted (calls : List (ListCall α))
    (hallows : Runs.Along ListRun.next (fun r c => r.list.allows c = true) .new calls) :
    ∃ t, Runs.exec ListRun.next .new calls = some t ∧
      Represents t.list (ListCall.denoteAll [] calls).1 ∧
      t.results = (ListCall.denoteAll [] calls).2 := by
  obtain ⟨t, ht, hshape, hresults⟩ := exec_denotes (r := .new) Shape.new hallows
  exact ⟨t, ht, hshape.represents, hresults⟩

/-- Two nodes, of which the first is deleted, and one removal too many. -/
theorem represents_denoted_fiveCalls :
    ∃ t, Runs.exec ListRun.next .new [.insertAtBack 'a' 1, .insertAtFront 'b' 2, .delete 2,
        .removeFromBack, .removeFromFront] = some t ∧
      Represents t.list [] ∧ t.results = [some 'a', none] :=
  represents_denoted _ (by decide)

end ListRun

end ServClient
