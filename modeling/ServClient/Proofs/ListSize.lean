/-
Whether `Size` is the number of nodes.

`mElements` goes along with every insertion and every removal from an end, and `Clear` starts it
over.  `Delete` takes its node out and leaves `mElements` alone, and so does `DeleteThis`, which
calls it: from then on `Size` counts a node too many.
-/
import ServClient.Events
import ServClient.Proofs.ListIterators

namespace ServClient

open Cell Runs

namespace LinkedList

variable {α : Type} {s t : LinkedList α} {seq : List (Nat × α)} {l : ListChange α}

/-- `Size()` is the number of nodes met from `mHead` on, and `mElements` has not overflowed. -/
def Counted (s : LinkedList α) : Prop :=
  ∃ nodes, Reached (fun a => (s.heap.lookup a).map Cell.next) s.head nodes ∧
    s.size = nodes.length ∧ s.size ≤ intMax

/-- A node is taken out by `Delete`. -/
def Deletes (s : LinkedList α) : ListChange α → Prop
  | .step (.list (.delete _)) => True
  | .step (.deleteThis address) => ∃ o, s.findItr address = some o ∧ o.itr.isSome = true
  | _ => False

/-- A node is put in. -/
def inserts : ListChange α → Bool
  | .step (.list (.insertAtBack _ _)) | .step (.list (.insertAtFront _ _)) => true
  | _ => false

/-- No node is taken out by `Delete`, and one that is put in finds less than `INT_MAX`. -/
structure KeepsCount (s : LinkedList α) (l : ListChange α) : Prop where
  deletes : ¬ Deletes s l
  fits : inserts l = true → s.size < intMax

/-! ### One call

`Delete` frees a node and leaves `mElements` as it is; every other call counts right.  So
`mElements` is the number of nodes and of the deletions so far.
-/

/-- But for `Delete`, the tally of a call is the length of what it denotes. -/
theorem tally_eq (c : ListCall α) (hc : ∀ k, c ≠ .delete k) :
    tally seq seq.length c = (c.denote seq).1.length := by
  cases c with
  | insertAtBack data k => simp [tally, ListCall.denote]
  | insertAtFront data k => simp [tally, ListCall.denote]
  | removeFromFront => cases seq <;> simp [tally, ListCall.denote]
  | removeFromBack => cases seq <;> simp [tally, ListCall.denote]
  | front | back | clear => rfl
  | delete k => exact absurd rfl (hc k)

/-- `Delete` takes one node out. -/
theorem length_eraseP_key {k : Nat} (hk : k ∈ addresses seq) :
    (seq.eraseP fun c => c.1 = k).length + 1 = seq.length := by
  obtain ⟨c, hc, rfl⟩ := List.mem_map.mp hk
  have hlength := List.length_eraseP_of_mem (p := fun d => decide (d.1 = c.1)) hc (by simp)
  have hpos := List.length_pos_of_mem hc
  omega

/-- A list whose iterators are at its nodes, and which counts these. -/
structure Tallied (s : LinkedList α) (seq : List (Nat × α)) : Prop where
  watched : Watched s seq
  counts : s.elements = seq.length

/-- After a step that takes no node out by `Delete` the count is right, and else it is one too
high; and only an insertion makes it higher. -/
structure Changes (s : LinkedList α) (l : ListChange α) (t : LinkedList α)
    (seq : List (Nat × α)) : Prop where
  watched : Watched t seq
  kept : ¬ Deletes s l → t.elements = seq.length
  drifts : Deletes s l → t.elements = seq.length + 1
  grows : if inserts l = true then t.elements = s.elements + 1 else t.elements ≤ s.elements

/-- A step that leaves the nodes and `mElements` alone. -/
theorem Tallied.same (h : Tallied s seq) (hwatched : Watched t seq)
    (helements : t.elements = s.elements) (hl : ¬ Deletes s l) (hins : inserts l = false) :
    Changes s l t seq where
  watched := hwatched
  kept := fun _ => helements.trans h.counts
  drifts := fun hdel => absurd hdel hl
  grows := by
    rw [hins, if_neg Bool.false_ne_true]
    exact Int.le_of_eq helements

theorem Tallied.delete (h : Tallied s seq) {k : Nat} (hk : k ∈ addresses seq)
    (ht : s.delete (some k) = some t) (hl : Deletes s l) (hins : inserts l = false) :
    ∃ seq', Changes s l t seq' := by
  obtain ⟨u, hu, hshape, hfollowed, helements⟩ := delete_spec h.watched.shape hk
  obtain rfl : u = t := Option.some.inj (hu.symm.trans ht)
  refine ⟨_, ⟨hshape, hfollowed h.watched.points⟩, fun hno => absurd hl hno, fun _ => ?_, ?_⟩
  · have hlength := length_eraseP_key hk
    rw [helements, h.counts]
    omega
  · rw [hins, if_neg Bool.false_ne_true]
    exact Int.le_of_eq helements

theorem Tallied.call (h : Tallied s seq) {c : ListCall α} (hallows : s.allows c = true)
    (ht : s.next (.list c) = some t) : ∃ seq', Changes s (.step (.list c)) t seq' := by
  obtain ⟨u, hu, hshape, hfollowed, helements⟩ := call_spec h.watched.shape hallows
  obtain rfl : u = t := by
    rw [next, hu] at ht
    exact Option.some.inj ht
  have hwatched : Watched u (c.denote seq).1 := ⟨hshape, hfollowed h.watched.points⟩
  by_cases hdelete : ∃ k, c = .delete k
  · obtain ⟨k, rfl⟩ := hdelete
    have hk : k ∈ addresses seq := by
      rw [allows, h.watched.shape.nodes_eq] at hallows
      exact of_decide_eq_true hallows
    have hlength := length_eraseP_key hk
    refine ⟨_, hwatched, fun hno => absurd trivial hno, fun _ => ?_, Int.le_of_eq helements⟩
    rw [helements, h.counts]
    simp only [tally, ListCall.denote]
    omega
  · have hc : ∀ k, c ≠ .delete k := fun k hk => hdelete ⟨k, hk⟩
    rw [h.counts, tally_eq c hc] at helements
    refine ⟨_, hwatched, fun _ => helements, fun hdel => ?_, ?_⟩
    · cases c with
      | delete k => exact absurd rfl (hc k)
      | insertAtBack | insertAtFront | removeFromFront | removeFromBack | front | back | clear =>
          cases hdel
    · rw [helements, h.counts]
      cases c with
      | insertAtBack data k => simp [inserts, ListCall.denote]
      | insertAtFront data k => simp [inserts, ListCall.denote]
      | removeFromFront | removeFromBack => simp [inserts, ListCall.denote]
      | front | back => exact Int.le_refl _
      | clear => exact Int.ofNat_le.mpr (Nat.zero_le _)
      | delete k => exact absurd rfl (hc k)

/-- What any step does. -/
theorem Tallied.change (h : Tallied s seq) (hs : s.change l = some t) :
    ∃ seq', Changes s l t seq' := by
  cases l with
  | deleteNull =>
      cases hs
      exact ⟨seq, h.same h.watched rfl id rfl⟩
  | step l =>
      simp only [LinkedList.change] at hs
      split at hs
      · rename_i hallows
        cases l with
        | list c => exact h.call hallows hs
        | newItr address =>
            cases hs
            exact ⟨seq, h.same (h.watched.newItr address) rfl id rfl⟩
        | destroyItr address =>
            cases hs
            exact ⟨seq, h.same (h.watched.destroyItr address) rfl id rfl⟩
        | move address m =>
            obtain ⟨u, hu, hwatched⟩ := h.watched.moveItr address m
            obtain rfl : u = t := Option.some.inj (hu.symm.trans hs)
            refine ⟨seq, h.same hwatched ?_ id rfl⟩
            simp only [LinkedList.moveItr, Option.bind_eq_bind, Option.bind_eq_some_iff] at hu
            obtain ⟨obs, -, hu⟩ := hu
            cases hu
            rfl
        | deleteThis address =>
            obtain ⟨o, ho⟩ := Option.isSome_iff_exists.mp hallows
            have hpoints := h.watched.points o (List.mem_of_find?_eq_some ho)
            have ht : s.delete o.itr = some t := by
              rw [← hs, LinkedList.next, LinkedList.deleteThis, ho]
            cases hitr : o.itr with
            | none =>
                rw [hitr] at ht
                cases ht
                refine ⟨seq, h.same h.watched rfl (fun hdel => ?_) rfl⟩
                obtain ⟨p, hp, hsome⟩ := hdel
                cases ho.symm.trans hp
                rw [hitr] at hsome
                cases hsome
            | some k =>
                rw [hitr] at ht
                have hk : k ∈ addresses seq := by
                  rw [Points, hitr] at hpoints
                  exact hpoints
                exact h.delete hk ht ⟨o, ho, by rw [hitr]; rfl⟩ rfl
      · cases hs

/-! ### Every run -/

theorem Watched.counted_iff (h : Watched s seq) :
    Counted s ↔ s.elements = seq.length ∧ s.elements ≤ intMax := by
  have hreached := h.shape.represents.forward
  have hlength : (addresses seq).length = seq.length := List.length_map ..
  constructor
  · rintro ⟨nodes, hnodes, hsize, hfits⟩
    rw [hnodes.unique hreached, hlength] at hsize
    exact ⟨hsize, hfits⟩
  · rintro ⟨hsize, hfits⟩
    exact ⟨_, hreached, by rw [hlength]; exact hsize, hfits⟩

/--
Through any sequence of calls of a list and of the iterators on it `Size()` is the number of nodes
if and only if no node is taken out by `Delete`, and none is put into a list of `INT_MAX` nodes.
-/
theorem size_counts_iff {ls : List (ListChange α)} (hrun : exec change new ls = some t) :
    Throughout change Counted (new : LinkedList α) ls ↔ Along change KeepsCount new ls := by
  refine throughout_iff_along (I := fun s => ∃ seq, Tallied s seq ∧ s.elements ≤ intMax)
    (fun s hs => ?_) (fun s l t hs hl hstep => ?_) (fun s l t hs hl hstep hcounted => ?_)
    ⟨[], ⟨Watched.new, rfl⟩, show (0 : Int) ≤ intMax by decide⟩ hrun
  · obtain ⟨seq, h, hfits⟩ := hs
    exact h.watched.counted_iff.mpr ⟨h.counts, hfits⟩
  · obtain ⟨seq, h, hfits⟩ := hs
    obtain ⟨seq', hchange⟩ := h.change hstep
    refine ⟨seq', ⟨hchange.watched, hchange.kept hl.deletes⟩, ?_⟩
    have hgrows := hchange.grows
    split at hgrows
    · rename_i hins
      have hroom : s.elements < intMax := hl.fits hins
      omega
    · omega
  · obtain ⟨seq, h, hfits⟩ := hs
    obtain ⟨seq', hchange⟩ := h.change hstep
    obtain ⟨hcounts, hbound⟩ := hchange.watched.counted_iff.mp hcounted
    refine hl ⟨fun hdel => ?_, fun hins => ?_⟩
    · have hdrift := hchange.drifts hdel
      omega
    · have hgrows := hchange.grows
      rw [if_pos hins] at hgrows
      show s.elements < intMax
      omega

/-- Two nodes, an iterator, a removal, `Clear`, and `Delete` of null. -/
theorem size_counts_iff_noDelete :
    Throughout change Counted (new : LinkedList Char) [.step (.newItr 7),
        .step (.list (.insertAtBack 'a' 1)), .step (.list (.insertAtFront 'b' 2)),
        .step (.list .removeFromBack), .deleteNull, .step (.list .clear)] ↔
      Along change KeepsCount new [.step (.newItr 7), .step (.list (.insertAtBack 'a' 1)),
        .step (.list (.insertAtFront 'b' 2)), .step (.list .removeFromBack), .deleteNull,
        .step (.list .clear)] := by
  obtain ⟨t, ht⟩ := Option.isSome_iff_exists.mp (show (exec change (new : LinkedList Char)
    [.step (.newItr 7), .step (.list (.insertAtBack 'a' 1)),
      .step (.list (.insertAtFront 'b' 2)), .step (.list .removeFromBack), .deleteNull,
      .step (.list .clear)]).isSome = true by decide)
  exact size_counts_iff ht

/-- A node is put in and deleted: there is none, and `Size()` is 1. -/
theorem deleted_node_counted : ∃ t : LinkedList Char,
    exec change new [.step (.list (.insertAtBack 'a' 1)), .step (.list (.delete 1))] = some t ∧
      t.head = none ∧ t.size = 1 ∧ ¬ Counted t := by
  refine ⟨_, rfl, rfl, rfl, ?_⟩
  rintro ⟨nodes, hnodes, hsize, -⟩
  cases nodes with
  | nil => cases hsize
  | cons a rest => cases hnodes.1

end LinkedList

end ServClient
