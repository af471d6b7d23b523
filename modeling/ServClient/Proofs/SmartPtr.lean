/-
Who owns an adopted object.

A handle that is copied or assigned from hands its object on, so as long as no object is lost
the objects the handles own are those that were adopted and not deleted yet, each once.
`XLSmartArrayPtr` loses none.  `XLSmartPtr` loses the object of a handle that another one is
assigned to: its `operator =` puts the new pointer over the old one.
-/
import ServClient.SmartPtr
import ServClient.Lib.Calls

namespace ServClient

open Runs Ledger

namespace TransferPtrs

variable {T : Type} {h h' : TransferPtrs T} {i j : Nat} {p q : Option T}

/-! ### Handles -/

theorem ptr_eq_some (hp : h.ptr i = some p) : h.handles[i]? = some (some p) := by
  rw [ptr, Option.join_eq_some_iff] at hp
  exact hp

theorem ptr_setPtr (hp : h.ptr i = some p) : (h.setPtr i q).ptr i = some q := by
  have hlt := Calls.lt_of_getElem?_eq_some (ptr_eq_some hp)
  rw [ptr, setPtr, List.getElem?_set_self hlt]
  rfl

theorem ptr_setPtr_ne (hne : i ≠ j) : (h.setPtr i q).ptr j = h.ptr j := by
  rw [ptr, setPtr, List.getElem?_set_ne hne, ptr]

theorem deletePtr_handles (form : DeleteForm) (h : TransferPtrs T) (p : Option T) :
    (h.deletePtr form p).handles = h.handles := by
  cases p <;> rfl

theorem ptr_deletePtr (form : DeleteForm) (h : TransferPtrs T) (p : Option T) (i : Nat) :
    (h.deletePtr form p).ptr i = h.ptr i := by
  rw [ptr, deletePtr_handles, ptr]

/-- What `Clear` leaves: the object is deleted, and the handle is empty. -/
theorem clear_eq (hp : h.ptr i = some p) :
    XLSmartArrayPtr.clear h i p = (h.deletePtr .deleteArray p).setPtr i none := by
  cases p with
  | some data => rfl
  | none =>
      have hlt := Calls.lt_of_getElem?_eq_some (ptr_eq_some hp)
      have hget : h.handles[i] = some none :=
        Option.some.inj ((List.getElem?_eq_getElem hlt).symm.trans (ptr_eq_some hp))
      have hsame : h.handles.set i (some none) = h.handles := by
        rw [← hget, List.set_getElem_self]
      rw [XLSmartArrayPtr.clear, if_neg (by simp), deletePtr, setPtr, hsame]

theorem ptr_clear (hp : h.ptr i = some p) : (XLSmartArrayPtr.clear h i p).ptr i = some none := by
  rw [clear_eq hp]
  exact ptr_setPtr ((ptr_deletePtr .deleteArray h p i).trans hp)

theorem ptr_clear_ne (hp : h.ptr i = some p) (hne : i ≠ j) :
    (XLSmartArrayPtr.clear h i p).ptr j = h.ptr j := by
  rw [clear_eq hp, ptr_setPtr_ne hne, ptr_deletePtr]

/-! ### Who owns what -/

/-- The objects the handles own. -/
def owned (h : TransferPtrs T) : List T := h.handles.filterMap Option.join

variable [DecidableEq T]

/-- The objects that were adopted and not deleted yet. -/
def alive (h : TransferPtrs T) : List T := held TransferCall.entry h.log

/-- Every object that is alive is owned by one handle, and none is alive when all handles are
destroyed. -/
structure Owned (h : TransferPtrs T) : Prop where
  once : ∀ data ∈ h.alive, h.handles.count (some (some data)) = 1
  settled : (∀ p ∈ h.handles, p = none) → Settled TransferCall.entry h.log

/-- The handles own what is alive, and nothing twice. -/
structure Kept (h : TransferPtrs T) : Prop where
  sound : Sound TransferCall.entry h.log
  counts : ∀ data, h.owned.count data = h.alive.count data
  once : ∀ data, h.alive.count data ≤ 1

theorem count_handles (h : TransferPtrs T) (data : T) :
    h.handles.count (some (some data)) = h.owned.count data := by
  rw [owned]
  induction h.handles with
  | nil => rfl
  | cons a rest ih =>
      rcases a with _ | _ | d
      · simp [ih]
      · simp [ih]
      · simp [List.count_cons, ih]

theorem owned_of_kept (hkept : Kept h) : Owned h where
  once := by
    intro data halive
    have hpos := List.count_pos_iff.mpr halive
    have hle := hkept.once data
    have howned := hkept.counts data
    rw [count_handles]
    omega
  settled := by
    intro hgone
    have hnone : h.owned = [] := by
      rw [owned, List.filterMap_eq_nil_iff]
      intro p hp
      rw [hgone p hp]
      rfl
    refine settled_iff.mpr ⟨hkept.sound, List.eq_nil_iff_forall_not_mem.mpr fun data => ?_⟩
    refine List.count_eq_zero.mp ?_
    have howned := hkept.counts data
    rw [hnone, List.count_nil] at howned
    exact howned.symm

/-! ### What the operations do to who owns what -/

/-- One handle changes what it holds. -/
theorem count_set {a b : Option (Option T)} (ha : h.handles[i]? = some a) (data : T) :
    ((h.handles.set i b).filterMap Option.join).count data + a.join.toList.count data =
      h.owned.count data + b.join.toList.count data := by
  have hperm := ((Calls.perm_set b ha).filterMap Option.join).count_eq data
  have hcons (c : Option (Option T)) (l : List (Option (Option T))) :
      ((c :: l).filterMap Option.join).count data =
        c.join.toList.count data + (l.filterMap Option.join).count data := by
    rcases c with _ | _ | d
    · simp
    · simp
    · simp [List.count_cons]
      omega
  rw [hcons, hcons] at hperm
  rw [owned]
  omega

theorem owned_setPtr (hp : h.ptr i = some p) (data : T) :
    (h.setPtr i q).owned.count data + p.toList.count data =
      h.owned.count data + q.toList.count data :=
  count_set (ptr_eq_some hp) data

theorem owned_retire (hp : h.ptr i = some p) (data : T) :
    (h.retire i).owned.count data + p.toList.count data = h.owned.count data := by
  have hset := count_set (b := none) (ptr_eq_some hp) data
  rw [Option.join_none, Option.toList_none, List.count_nil, Nat.add_zero] at hset
  exact hset

theorem owned_push (data : T) :
    (h.push p).owned.count data = h.owned.count data + p.toList.count data := by
  rw [owned, push, List.filterMap_append, List.count_append, owned]
  cases p <;> rfl

/-- An object that is handed on is owned as often as before. -/
theorem owned_assign (hne : i ≠ j) (hp : h.ptr i = some p) (hq : h.ptr j = some q) (data : T) :
    ((h.setPtr i q).setPtr j none).owned.count data + p.toList.count data =
      h.owned.count data := by
  have hfirst := owned_setPtr (q := q) hp data
  have hsecond := owned_setPtr (h := h.setPtr i q) (q := none)
    ((ptr_setPtr_ne hne).trans hq) data
  simp only [Option.toList_none, List.count_nil] at hsecond
  omega

theorem owned_copy (hq : h.ptr j = some q) (data : T) :
    (h.copy j q).owned.count data = h.owned.count data := by
  have hfirst := owned_setPtr (q := none) hq data
  simp only [Option.toList_none, List.count_nil] at hfirst
  rw [copy, owned_push]
  omega

/-! ### What they do to what is alive -/

theorem alive_construct {data : T} (h : TransferPtrs T) :
    (h.construct (some data)).alive = data :: h.alive := by
  have htake : (TransferCall.adopted data).entry = .take data := rfl
  rw [alive, construct, Option.toList_some, List.map_singleton, held_concat, add_take htake, alive]

theorem alive_delete (form : DeleteForm) {data : T} (h : TransferPtrs T) :
    (h.deletePtr form (some data)).alive = h.alive.erase data := by
  have hgive : (TransferCall.deleted form data).entry = .give data := rfl
  rw [alive, deletePtr, held_concat, add_give hgive, alive]

/-- An object that was not adopted before is not alive. -/
theorem not_alive_of_fresh {data : T} (hfresh : h.isFresh (some data) = true) :
    data ∉ h.alive := fun halive => by
  obtain ⟨e, he, htake⟩ := exists_take_of_held halive
  cases e with
  | adopted d =>
      cases htake
      exact of_decide_eq_true hfresh he
  | deleted form d => cases htake

theorem kept_empty : Kept (empty : TransferPtrs T) where
  sound := sound_nil
  counts := fun _ => rfl
  once := fun _ => Nat.zero_le 1

/-! ### Each operation keeps the objects -/

/-- Objects are handed on, and nothing is deleted. -/
theorem Kept.transfer (hkept : Kept h) (hlog : h'.log = h.log)
    (howned : ∀ data, h'.owned.count data = h.owned.count data) : Kept h' where
  sound := hlog ▸ hkept.sound
  counts := fun data => by
    rw [howned, hkept.counts, alive, alive, hlog]
  once := fun data => by
    have hle := hkept.once data
    rw [alive] at hle ⊢
    rw [hlog]
    exact hle

/-- A handle disposes of what it owns. -/
theorem Kept.dispose (hkept : Kept h) (hp : h.ptr i = some p) {form : DeleteForm}
    (hlog : h'.log = (h.deletePtr form p).log)
    (howned : ∀ data, h'.owned.count data + p.toList.count data = h.owned.count data) :
    Kept h' := by
  cases p with
  | none => exact hkept.transfer hlog fun data => by simpa using howned data
  | some d =>
      have hretire := owned_retire hp d
      rw [Option.toList_some, List.count_singleton_self] at hretire
      have hcount := hkept.counts d
      have halive : d ∈ h.alive := List.count_pos_iff.mp (by omega)
      have hafter : h'.alive = h.alive.erase d := by
        rw [← alive_delete form h, alive, alive, hlog]
      refine ⟨?_, fun data => ?_, fun data => ?_⟩
      · rw [hlog]
        refine sound_concat.mpr ⟨hkept.sound, fun e hgive => ?_⟩
        cases hgive
        exact halive
      · have hthis := howned data
        have hcounts := hkept.counts data
        rw [hafter]
        by_cases hd : data = d
        · subst hd
          rw [Option.toList_some, List.count_singleton_self] at hthis
          rw [List.count_erase_self]
          omega
        · have hnone : (some d).toList.count data = 0 :=
            List.count_eq_zero.mpr (by simpa using hd)
          rw [List.count_erase_of_ne hd]
          omega
      · have hle := hkept.once data
        rw [hafter]
        exact Nat.le_trans (List.erase_sublist.count_le data) hle

theorem Kept.construct (hkept : Kept h) {data : Option T} (hfresh : h.isFresh data = true) :
    Kept (h.construct data) := by
  cases data with
  | none =>
      refine hkept.transfer (List.append_nil _) fun d => ?_
      exact owned_push d
  | some data =>
      have hnot := List.count_eq_zero.mpr (not_alive_of_fresh hfresh)
      have hcount (d : T) : (data :: h.alive).count d =
          h.alive.count d + (some data).toList.count d := by
        rw [List.count_cons, Option.toList_some, List.count_singleton]
      refine ⟨?_, fun d => ?_, fun d => ?_⟩
      · refine sound_concat.mpr ⟨hkept.sound, fun e hgive => ?_⟩
        cases hgive
      · rw [alive_construct, hcount, ← hkept.counts]
        exact owned_push d
      · have hle := hkept.once d
        rw [alive_construct, hcount, Option.toList_some, List.count_singleton]
        split
        · rename_i hd
          have hzero : h.alive.count d = 0 := eq_of_beq hd ▸ hnot
          omega
        · exact hle

theorem Kept.copy (hkept : Kept h) (hq : h.ptr j = some q) : Kept (h.copy j q) :=
  hkept.transfer rfl fun data => owned_copy hq data

/-! ### `XLSmartPtr`

Its `operator=` takes over without a `delete`.  An object that is overwritten is owned by nobody
after that.
-/

theorem Kept.destroySmart (hkept : Kept h) (hp : h.ptr i = some p) :
    Kept (XLSmartPtr.destroy h i p) := by
  refine hkept.dispose hp rfl fun data => ?_
  rw [← owned_retire hp data, owned, XLSmartPtr.destroy, retire, deletePtr_handles, owned, retire]

/-- Assignment onto a handle that owns nothing, or onto itself. -/
theorem Kept.assignSmart (hkept : Kept h) (hp : h.ptr i = some p) (hq : h.ptr j = some q)
    (hempty : i = j ∨ p = none) : Kept (XLSmartPtr.assign h i j q) := by
  rw [XLSmartPtr.assign]
  split
  · exact hkept
  · rename_i hne
    refine hkept.transfer rfl fun data => ?_
    have hassign := owned_assign hne hp hq data
    rw [hempty.resolve_left hne, Option.toList_none, List.count_nil] at hassign
    exact hassign

/-- Assignment onto another handle that owns an object: no handle owns it any more. -/
theorem not_owned_assignSmart (hkept : Kept h) {data : T} (hp : h.ptr i = some (some data))
    (hq : h.ptr j = some q) (hne : i ≠ j) : ¬ Owned (XLSmartPtr.assign h i j q) := by
  intro howned
  have hassign := owned_assign hne hp hq data
  rw [Option.toList_some, List.count_singleton_self] at hassign
  have hcount := hkept.counts data
  have hle := hkept.once data
  have halive : data ∈ h.alive := List.count_pos_iff.mp (by omega)
  have heq : XLSmartPtr.assign h i j q = (h.setPtr i q).setPtr j none := if_neg hne
  have honce := howned.once data (by rw [heq]; exact halive)
  rw [count_handles, heq] at honce
  omega

/-- An assignment is onto a handle that owns nothing, or onto itself. -/
def Empties (h : TransferPtrs T) : TransferStep T → Prop
  | .assign i j => i = j ∨ h.ptr i = some none
  | .construct _ | .copy _ | .clear _ | .destroy _ => True

theorem kept_nextSmart {l : TransferStep T} (hkept : Kept h) (hl : Empties h l)
    (hs : h.nextSmart l = some h') : Kept h' := by
  cases l with
  | construct data =>
      simp only [nextSmart] at hs
      split at hs
      · rename_i hfresh
        cases hs
        exact hkept.construct hfresh
      · cases hs
  | copy j =>
      obtain ⟨q, hq, rfl⟩ := Option.map_eq_some_iff.mp hs
      exact hkept.copy hq
  | assign i j =>
      obtain ⟨p, hp, hs⟩ := Option.bind_eq_some_iff.mp hs
      obtain ⟨q, hq, hs⟩ := Option.bind_eq_some_iff.mp hs
      cases hs
      refine hkept.assignSmart hp hq (hl.imp_right fun hnone => ?_)
      exact Option.some.inj (hp.symm.trans hnone)
  | clear i => cases hs
  | destroy i =>
      obtain ⟨p, hp, rfl⟩ := Option.map_eq_some_iff.mp hs
      exact hkept.destroySmart hp

/-! ### `XLSmartArrayPtr` -/

theorem Kept.clear (hkept : Kept h) (hp : h.ptr i = some p) :
    Kept (XLSmartArrayPtr.clear h i p) := by
  rw [clear_eq hp]
  refine hkept.dispose hp rfl fun data => ?_
  have hset := owned_setPtr (q := none) ((ptr_deletePtr .deleteArray h p i).trans hp) data
  have hsame : (h.deletePtr .deleteArray p).owned = h.owned := by
    rw [owned, deletePtr_handles, owned]
  rw [Option.toList_none, List.count_nil, hsame] at hset
  exact hset

theorem Kept.destroyArray (hkept : Kept h) (hp : h.ptr i = some p) :
    Kept (XLSmartArrayPtr.destroy h i p) := by
  refine (hkept.clear hp).transfer rfl fun data => ?_
  have hretire := owned_retire (ptr_clear hp) data
  rw [Option.toList_none, List.count_nil] at hretire
  exact hretire

theorem Kept.assignArray (hkept : Kept h) (hp : h.ptr i = some p) (hq : h.ptr j = some q) :
    Kept (XLSmartArrayPtr.assign h i j p q) := by
  rw [XLSmartArrayPtr.assign]
  split
  · exact hkept
  · rename_i hne
    have hassign := (hkept.clear hp).assignSmart (ptr_clear hp)
      ((ptr_clear_ne hp hne).trans hq) (Or.inr rfl)
    rw [XLSmartPtr.assign, if_neg hne] at hassign
    exact hassign

theorem kept_nextArray {l : TransferStep T} (hkept : Kept h) (hs : h.nextArray l = some h') :
    Kept h' := by
  cases l with
  | construct data =>
      simp only [nextArray] at hs
      split at hs
      · rename_i hfresh
        cases hs
        exact hkept.construct hfresh
      · cases hs
  | copy j =>
      obtain ⟨q, hq, rfl⟩ := Option.map_eq_some_iff.mp hs
      exact hkept.copy hq
  | assign i j =>
      obtain ⟨p, hp, hs⟩ := Option.bind_eq_some_iff.mp hs
      obtain ⟨q, hq, hs⟩ := Option.bind_eq_some_iff.mp hs
      cases hs
      exact hkept.assignArray hp hq
  | clear i =>
      obtain ⟨p, hp, rfl⟩ := Option.map_eq_some_iff.mp hs
      exact hkept.clear hp
  | destroy i =>
      obtain ⟨p, hp, rfl⟩ := Option.map_eq_some_iff.mp hs
      exact hkept.destroyArray hp

/-! ### Both classes -/

/--
Whatever is done with handles of `XLSmartArrayPtr`, every object is owned by one of them until it is
deleted, once.  With handles of `XLSmartPtr` that is so if and only if each assignment is onto a
handle that owns nothing, or onto itself.
-/
theorem owned_iff {ls ms : List (TransferStep T)} (hrun : exec nextSmart empty ls = some h) :
    (Throughout nextSmart Owned empty ls ↔ Along nextSmart Empties empty ls) ∧
      Throughout nextArray Owned (empty : TransferPtrs T) ms := by
  constructor
  · refine throughout_iff_along (I := Kept) (fun _ hkept => owned_of_kept hkept)
      (fun u l v hu hl hs => kept_nextSmart hu hl hs) (fun u l v hu hl hs => ?_) kept_empty hrun
    cases l with
    | assign i j =>
        obtain ⟨p, hp, hs⟩ := Option.bind_eq_some_iff.mp hs
        obtain ⟨q, hq, hs⟩ := Option.bind_eq_some_iff.mp hs
        cases hs
        obtain ⟨hne, hsome⟩ := not_or.mp hl
        cases p with
        | none => exact absurd hp hsome
        | some data => exact not_owned_assignSmart hu hp hq hne
    | construct data | copy j | clear i | destroy i => exact absurd trivial hl
  · exact throughout_of_along (I := Kept) (Q := fun _ _ => True)
      (fun u l v hu _ hs => kept_nextArray hu hs) (fun _ hkept => owned_of_kept hkept) kept_empty
      (along_of_forall fun _ _ _ => trivial)

/-- An object goes from one handle to another and back, and is deleted with the last. -/
def backAndForth : List (TransferStep Nat) :=
  [.construct (some 7), .copy 0, .assign 0 1, .assign 0 0, .destroy 1, .destroy 0]

theorem owned_iff_backAndForth :
    (Throughout nextSmart Owned empty backAndForth ↔ Along nextSmart Empties empty backAndForth) ∧
      Throughout nextArray Owned (empty : TransferPtrs Nat) backAndForth := by
  obtain ⟨h, hh⟩ := Option.isSome_iff_exists.mp
    (show (exec nextSmart (empty : TransferPtrs Nat) backAndForth).isSome = true by decide)
  exact owned_iff hh

/-- A handle that owns an object is assigned to; the object is lost. -/
theorem overwritten_lost : ∃ h, exec nextSmart (empty : TransferPtrs Nat)
    [.construct (some 1), .construct (some 2), .assign 0 1, .destroy 0, .destroy 1] = some h ∧
      ¬ Owned h := by
  refine ⟨_, rfl, fun h => ?_⟩
  exact absurd (settled_iff.mp (h.settled (by decide))).2 (by decide)

end TransferPtrs

end ServClient
