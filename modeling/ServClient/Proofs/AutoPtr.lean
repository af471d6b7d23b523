/-
Programs that use the handles of `XLAutoPtr`.

An operation is put together from moves (a handle appears, lets go, gets a new block,
gets another handle's block, disappears), and the counters keep up with each of them.
-/
import ServClient.Proofs.RefCount
import ServClient.Lib.Runs

namespace ServClient

open Runs

variable {T : Type}

namespace SmPtrs

variable {s s' : SmPtrs T} {form : DeleteForm} {op : PtrStep T} {i j b : Nat}

/-! ### The handles of a block

Handles are numbered in the order of their construction.  What the heap has to count is how many of
them hold a block, and each operation changes one handle at a time.
-/

/-- What the `m_pData` of a handle is; a destroyed handle counts as empty. -/
def pointer : Handle → Option Nat
  | .gone => none
  | .live p => p

/-- The counters the handles have, each as often as it is held. -/
def held (s : SmPtrs T) : List (Option Nat) := s.handles.map pointer

theorem owners_eq (s : SmPtrs T) (b : Nat) : s.owners b = s.held.count (some b) := by
  rw [owners, held, List.count, List.countP_map]
  refine List.countP_congr fun g _ => ?_
  cases g with
  | gone => simp [Handle.pointsTo, pointer]
  | live p => cases p <;> simp [Handle.pointsTo, pointer]

theorem held_of_live {p : Option Nat} (hi : s.handles[i]? = some (.live p)) :
    s.held[i]? = some p := by
  rw [held, List.getElem?_map, hi]
  rfl

theorem mem_held {p : Option Nat} (hi : s.handles[i]? = some (.live p)) : p ∈ s.held :=
  List.mem_of_getElem? (held_of_live hi)

/-- A block with more than one handle has one besides `i`. -/
theorem exists_other (hi : s.handles[i]? = some (.live (some b))) (h : s.owners b ≠ 1) :
    ∃ k, k ≠ i ∧ s.handles[k]? = some (.live (some b)) := by
  have hpos : 0 < s.owners b := by
    rw [owners_eq]
    exact List.count_pos_iff.mpr (mem_held hi)
  have hset := Calls.countP_set_leave (b := .gone) (p := (·.pointsTo b)) hi (by
    simp [Handle.pointsTo]) rfl
  have hmore : 0 < (s.handles.set i .gone).countP (·.pointsTo b) := by
    rw [owners] at h hpos
    omega
  obtain ⟨g, hmem, hpts⟩ := List.countP_pos_iff.mp hmore
  obtain ⟨k, hk⟩ := List.getElem?_of_mem hmem
  rcases Calls.getElem?_set hi hk with ⟨rfl, rfl⟩ | ⟨hne, hold⟩
  · cases hpts
  · refine ⟨k, hne, ?_⟩
    match g, hpts with
    | .live (some c), hpts =>
        rw [hold, beq_iff_eq.mp hpts]

/-! ### The moves

Whatever a step of the source does is made of five moves: a block is made, a handle lets go, takes,
is made or is retired.  What each keeps every step keeps.
-/

theorem create_last (s : SmPtrs T) : s.create.handles[s.handles.length]? = some (.live none) := by
  simp [create]

theorem releaseData_live {p : Option Nat} (hi : s.handles[i]? = some (.live p)) :
    s.releaseData form i =
      { heap := s.heap.releaseData form p, handles := s.handles.set i (.live none) } := by
  simp only [releaseData, hi]

theorem releaseData_none (hi : s.handles[i]? = some (.live none)) :
    s.releaseData form i = s := by
  obtain ⟨hlt, hget⟩ := List.getElem?_eq_some_iff.mp hi
  rw [releaseData_live hi, ← hget, List.set_getElem_self]
  rfl

theorem isLive_iff : s.isLive i = true ↔ ∃ p, s.handles[i]? = some (.live p) := by
  unfold isLive
  cases s.handles[i]? with
  | none => simp
  | some h => cases h <;> simp [Handle.isLive]

/-- A handle that has let go is empty. -/
theorem releaseData_self (hi : s.isLive i = true) :
    (s.releaseData form i).handles[i]? = some (.live none) := by
  obtain ⟨p, hp⟩ := isLive_iff.mp hi
  rw [releaseData_live hp]
  exact List.getElem?_set_self (Calls.lt_of_getElem?_eq_some hp)

theorem next_eq_some (h : s.next form op = some s') :
    s.heap.fault = false ∧ (∀ i ∈ op.uses, s.isLive i = true) ∧ s' = s.perform form op := by
  unfold next at h
  split at h
  · rename_i hguard
    rw [Bool.and_eq_true, Bool.not_eq_true', List.all_eq_true] at hguard
    exact ⟨hguard.1, hguard.2, (Option.some.inj h).symm⟩
  · cases h

/-- A step that lets go first goes on with the same handle. -/
theorem next_after_release {P : SmPtrs T → Prop} (hi : op.releases = some i)
    (h : s.next form op = some s') (hP : P (s.releaseData form i))
    (hadopt : ∀ {t data}, op.adopts = some data → t.handles[i]? = some (.live none) → P t →
      P (t.adopt i data))
    (hacquire : ∀ {t j}, t.handles[i]? = some (.live none) → P t → P (t.acquire i j))
    (hretire : ∀ {t}, t.handles[i]? = some (.live none) → P t → P (t.retire i)) : P s' := by
  obtain ⟨-, hlive, rfl⟩ := next_eq_some h
  cases op with
  | create | createFrom | copy | getData => cases hi
  | setData k data =>
      cases hi
      exact hadopt rfl (releaseData_self (hlive i (by simp [PtrStep.uses]))) hP
  | destroy k =>
      cases hi
      exact hretire (releaseData_self (hlive i (by simp [PtrStep.uses]))) hP
  | assign k j =>
      simp only [PtrStep.releases] at hi
      split at hi
      · cases hi
      · rename_i hne
        cases hi
        show P (s.assign form i j)
        rw [assign, if_neg hne]
        exact hacquire (releaseData_self (hlive i (by simp [PtrStep.uses]))) hP

/-- Every step is put together from the five moves and reads. -/
theorem next_by_moves {P : SmPtrs T → Prop} (hs : P s) (h : s.next form op = some s')
    (hcreate : P s → P s.create)
    (hget : ∀ i, P s → P (s.getData i))
    (hrelease : ∀ i, op.releases = some i → s.isLive i = true → P (s.releaseData form i))
    (hadopt : ∀ {t i data}, op.adopts = some data → t.handles[i]? = some (.live none) → P t →
      P (t.adopt i data))
    (hacquire : ∀ {t i j}, t.handles[i]? = some (.live none) → P t → P (t.acquire i j))
    (hretire : ∀ {t i}, t.handles[i]? = some (.live none) → P t → P (t.retire i)) : P s' := by
  obtain ⟨-, hlive, hs'⟩ := next_eq_some h
  cases hi : op.releases with
  | some i =>
      have huse : s.isLive i = true := by
        refine hlive i ?_
        cases op <;> simp_all [PtrStep.releases, PtrStep.uses]
      exact next_after_release hi h (hrelease i hi huse) hadopt hacquire hretire
  | none =>
      cases op with
      | setData | destroy => cases hi
      | create => exact hs' ▸ hcreate hs
      | createFrom data =>
          rw [hs']
          show P (s.create.setData form s.handles.length data)
          rw [setData, releaseData_none (create_last s)]
          exact hadopt rfl (create_last s) (hcreate hs)
      | copy j => exact hs' ▸ hacquire (create_last s) (hcreate hs)
      | getData i => exact hs' ▸ hget i hs
      | assign i j =>
          simp only [PtrStep.releases] at hi
          split at hi
          · rename_i hij
            rw [hs', show s.perform form (.assign i j) = s from if_pos hij]
            exact hs
          · cases hi

/-! ### The invariant -/

/-- The heap counts the handles. -/
def Inv (form : DeleteForm) (s : SmPtrs T) : Prop := s.heap.Holds form s.held

namespace Inv

theorem empty : Inv form (SmPtrs.empty : SmPtrs T) := PtrHeap.Holds.empty

theorem create (h : Inv form s) : Inv form s.create := by
  refine PtrHeap.Holds.perm h.cons_none ?_
  show (none :: s.held).Perm ((s.handles ++ [Handle.live none]).map pointer)
  rw [List.map_append]
  exact (List.perm_append_singleton none s.held).symm

theorem retire (h : Inv form s) (hi : s.handles[i]? = some (.live none)) :
    Inv form (s.retire i) := by
  rw [Inv, held, SmPtrs.retire, List.map_set]
  exact (h.cons_none.perm (Calls.perm_set none (held_of_live hi)).symm).of_cons_none

theorem standing (h : Inv form s) (hi : s.handles[i]? = some (.live (some b))) :
    ∃ c, s.heap.counters[b]? = some (some c) :=
  PtrHeap.Holds.standing h (mem_held hi)

theorem getData (h : Inv form s) (i : Nat) : Inv form (s.getData i) := by
  unfold SmPtrs.getData
  split
  · rename_i p hi
    rw [PtrHeap.Holds.touch h fun b hb => hb ▸ mem_held hi]
    exact h
  · exact h

theorem adopt (h : Inv form s) (hi : s.handles[i]? = some (.live none)) (data : Option T) :
    Inv form (s.adopt i data) := by
  rw [Inv, held, SmPtrs.adopt, List.map_set]
  exact ((PtrHeap.Holds.adopt h data).perm
    (Calls.perm_set _ (held_of_live hi)).symm).of_cons_none

theorem acquire (h : Inv form s) (hi : s.handles[i]? = some (.live none)) (j : Nat) :
    Inv form (s.acquire i j) := by
  unfold SmPtrs.acquire
  split
  · rename_i p hj
    rw [Inv, held, List.map_set]
    exact ((PtrHeap.Holds.share h fun b hb => hb ▸ mem_held hj).perm
      (Calls.perm_set _ (held_of_live hi)).symm).of_cons_none
  · exact h

/-- Letting go, unless the block has no payload and more handles. -/
theorem releaseData (h : Inv form s) (hlive : s.isLive i = true)
    (hclean : ∀ b, s.handles[i]? = some (.live (some b)) → s.heap.HoldsNull b → s.owners b = 1) :
    Inv form (s.releaseData form i) := by
  obtain ⟨p, hi⟩ := isLive_iff.mp hlive
  have hperm := Calls.perm_set none (held_of_live hi)
  rw [releaseData_live hi, Inv, held, List.map_set]
  refine PtrHeap.Holds.releaseData (h.cons_none.perm hperm.symm) ?_
  intro b hb hnull
  subst hb
  have hcount := hperm.count_eq (some b)
  have hone := hclean b hi hnull
  rw [owners_eq] at hone
  simp only [List.count_cons_self] at hcount
  refine List.count_eq_zero.mp ?_
  simp only [hone, List.count_cons_of_ne, ne_eq, reduceCtorEq, not_false_eq_true] at hcount
  exact Nat.succ.inj hcount

end Inv

/-- The step does not take a null block from other handles that share it. -/
def Separate (s : SmPtrs T) (op : PtrStep T) : Prop :=
  ∀ (i b : Nat), op.releases = some i → s.handles[i]? = some (.live (some b)) →
    s.heap.HoldsNull b → s.owners b = 1

theorem inv_next (hs : Inv form s) (hop : s.Separate op) (h : s.next form op = some s') :
    Inv form s' :=
  next_by_moves hs h Inv.create (fun i hi => hi.getData i)
    (fun i hi hlive => hs.releaseData hlive fun b hb => hop i b hi hb)
    (fun _ hi ht => ht.adopt hi _) (fun hi ht => ht.acquire hi _) (fun hi ht => ht.retire hi)

/-! ### Deleted counters stay deleted -/

/-- The counter has been deleted. -/
def Deleted (b : Nat) (s : SmPtrs T) : Prop := s.heap.counters[b]? = some none

namespace Deleted

theorem getData (hb : Deleted b s) (i : Nat) : Deleted b (s.getData i) := by
  unfold SmPtrs.getData
  split
  · exact PtrHeap.touch_deleted hb _
  · exact hb

theorem releaseData (hb : Deleted b s) (i : Nat) : Deleted b (s.releaseData form i) := by
  unfold SmPtrs.releaseData
  split
  · exact PtrHeap.releaseData_deleted hb _
  · exact hb

theorem acquire (hb : Deleted b s) (i j : Nat) : Deleted b (s.acquire i j) := by
  unfold SmPtrs.acquire
  split
  · exact PtrHeap.share_deleted hb _
  · exact hb

theorem next (hb : Deleted b s) (h : s.next form op = some s') : Deleted b s' :=
  next_by_moves hb h id (fun i hb => hb.getData i) (fun i _ _ => hb.releaseData i)
    (fun _ _ hb => PtrHeap.adopt_deleted hb _) (fun _ hb => hb.acquire _ _) (fun _ hb => hb)

end Deleted

/-! ### No counter outlived

`ReleaseData` deletes a counter whose payload is null after its `Release`, whatever the count.  So a
block without a payload goes with the first handle that lets go of it, and must not be shared then;
no more is needed.
-/

/-- Handles point to counters that stand, and a counter is deleted once: when it has no handle. -/
structure Sound (s : SmPtrs T) : Prop where
  noFault : s.heap.fault = false
  standing : ∀ (i b : Nat), s.handles[i]? = some (.live (some b)) →
    ∃ c, s.heap.counters[b]? = some (some c)
  once : ∀ b, b < s.heap.counters.length →
    s.heap.deletedCounters.count b = if s.owners b = 0 then 1 else 0

theorem Inv.sound (h : Inv form s) : s.Sound where
  noFault := h.noFault
  standing := fun _ _ hi => h.standing hi
  once := by
    intro b hb
    rw [owners_eq]
    exact h.count_deleted hb

/-- A null block taken from a handle leaves that handle dangling. -/
theorem not_sound_of_not_separate (hop : ¬ s.Separate op)
    (h : s.next form op = some s') : ¬ s'.Sound := by
  simp only [Separate, not_forall] at hop
  obtain ⟨i, b, hi, hb, ⟨c, hc, hnull⟩, hshared⟩ := hop
  obtain ⟨k, hki, hk⟩ := exists_other hb hshared
  have hdangles : Deleted b s' ∧ s'.handles[k]? = some (.live (some b)) := by
    refine next_after_release (P := fun t =>
      Deleted b t ∧ t.handles[k]? = some (.live (some b))) hi h ⟨?_, ?_⟩ ?_ ?_ ?_
    · have hnull' : c.release.1.pData = none := by
        rw [RefCounter.release_null hnull]
        exact hnull
      rw [releaseData_live hb, PtrHeap.releaseData, PtrHeap.release_deletes hc hnull']
      exact List.getElem?_set_self (Calls.lt_of_getElem?_eq_some hc)
    · rw [releaseData_live hb]
      exact (List.getElem?_set_ne (Ne.symm hki)).trans hk
    · intro t data _ _ ht
      exact ⟨PtrHeap.adopt_deleted ht.1 _, (List.getElem?_set_ne (Ne.symm hki)).trans ht.2⟩
    · intro t j _ ht
      refine ⟨ht.1.acquire i j, ?_⟩
      unfold acquire
      split
      · exact (List.getElem?_set_ne (Ne.symm hki)).trans ht.2
      · exact ht.2
    · intro t _ ht
      exact ⟨ht.1, (List.getElem?_set_ne (Ne.symm hki)).trans ht.2⟩
  intro hsound
  obtain ⟨d, hd⟩ := hsound.standing k b hdangles.2
  rw [hdangles.1] at hd
  cases hd

/--
Counters are sound throughout a run precisely when none of its steps lets go of a null block
that other handles share.
-/
theorem sound_throughout_iff {ops : List (PtrStep T)}
    (hrun : exec (SmPtrs.next form) empty ops = some s) :
    Throughout (SmPtrs.next form) Sound (empty : SmPtrs T) ops ↔
      Along (SmPtrs.next form) Separate (empty : SmPtrs T) ops :=
  throughout_iff_along (I := Inv form) (fun _ => Inv.sound)
    (fun _ _ _ => inv_next) (fun _ _ _ _ => not_sound_of_not_separate) Inv.empty hrun

/-- `p(0)`, `q(p)`, and `p` goes: the counter that `q` points to is deleted. -/
theorem null_copy_dangles :
    ∃ s t : SmPtrs Nat,
      exec XLSharedArraySmPtr.next empty [.createFrom none, .copy 0, .destroy 0] = some s ∧
      s.handles[1]? = some (.live (some 0)) ∧ s.heap.counters[0]? = some none ∧ ¬ s.Sound ∧
      XLSharedArraySmPtr.next s (.destroy 1) = some t ∧ t.heap.fault = true := by
  refine ⟨_, _, rfl, rfl, rfl, fun hsound => ?_, rfl, rfl⟩
  obtain ⟨c, hc⟩ := hsound.standing 1 0 rfl
  cases hc

/-- `p(0)` is destroyed before `q` is given a payload of its own. -/
theorem sound_throughout_iff_null :
    Throughout (SmPtrs.next .deleteArray) Sound (empty : SmPtrs Nat)
        [.createFrom none, .create, .destroy 0, .setData 1 (some 7)] ↔
      Along (SmPtrs.next .deleteArray) Separate (empty : SmPtrs Nat)
        [.createFrom none, .create, .destroy 0, .setData 1 (some 7)] :=
  sound_throughout_iff (show exec _ _ _ = some _ from rfl)

/-! ### Exact counts

With payloads that are all different and never null the counting is exact, and a payload is deleted
by the step that takes its last handle.
-/

@[simp] theorem releaseData_adopted (s : SmPtrs T) (i : Nat) :
    (s.releaseData form i).heap.adopted = s.heap.adopted := by
  unfold releaseData
  split
  · exact PtrHeap.releaseData_adopted _ _
  · rfl

@[simp] theorem acquire_adopted (s : SmPtrs T) (i j : Nat) :
    (s.acquire i j).heap.adopted = s.heap.adopted := by
  unfold acquire
  split
  · exact PtrHeap.share_adopted _ _
  · rfl

@[simp] theorem getData_adopted (s : SmPtrs T) (i : Nat) :
    (s.getData i).heap.adopted = s.heap.adopted := by
  unfold getData
  split
  · exact PtrHeap.touch_adopted _ _
  · rfl

theorem next_adopted (h : s.next form op = some s') :
    s'.heap.adopted = s.heap.adopted ++ op.adopts.toList := by
  obtain ⟨-, -, rfl⟩ := next_eq_some h
  cases op with
  | create => exact (List.append_nil _).symm
  | createFrom data =>
      show (s.create.releaseData form _).heap.adopted ++ [data] = _
      rw [releaseData_adopted]
      rfl
  | copy j => exact (acquire_adopted _ _ _).trans (List.append_nil _).symm
  | setData i data =>
      show (s.releaseData form i).heap.adopted ++ [data] = _
      rw [releaseData_adopted]
      rfl
  | assign i j =>
      show (s.assign form i j).heap.adopted = _
      unfold assign
      split
      · exact (List.append_nil _).symm
      · rw [acquire_adopted, releaseData_adopted]
        exact (List.append_nil _).symm
  | getData i => exact (getData_adopted _ _).trans (List.append_nil _).symm
  | destroy i => exact (releaseData_adopted _ _).trans (List.append_nil _).symm

theorem exec_adopted {ops : List (PtrStep T)} :
    ∀ {s s' : SmPtrs T}, exec (SmPtrs.next form) s ops = some s' →
      s'.heap.adopted = s.heap.adopted ++ ops.filterMap PtrStep.adopts := by
  induction ops with
  | nil =>
      intro s s' h
      cases h
      simp
  | cons op rest ih =>
      intro s s' h
      obtain ⟨t, hop, hrest⟩ := exec_cons_eq_some.mp h
      rw [ih hrest, next_adopted hop, List.append_assoc]
      cases hdata : op.adopts <;> simp [hdata]

/-- No raw pointer was null, and none was taken over twice. -/
def AdoptedOnce (adopted : List (Option T)) : Prop :=
  (∀ data ∈ adopted, data.isSome) ∧ adopted.Nodup

instance [DecidableEq T] (adopted : List (Option T)) : Decidable (AdoptedOnce adopted) :=
  inferInstanceAs (Decidable (_ ∧ _))

theorem AdoptedOnce.of_append {before after : List (Option T)}
    (h : AdoptedOnce (before ++ after)) : AdoptedOnce before :=
  ⟨fun data hdata => h.1 data (List.mem_append_left _ hdata), (List.nodup_append.mp h.2).1⟩

/-- Blocks with different payloads, none of them null. -/
structure Owning (form : DeleteForm) (s : SmPtrs T) : Prop where
  inv : Inv form s
  once : AdoptedOnce s.heap.adopted

namespace Owning

theorem separate (h : Owning form s) (op : PtrStep T) : s.Separate op := by
  rintro i b - - ⟨c, hc, hnull⟩
  have := h.once.1 _ (List.mem_of_getElem? (h.inv.adopted b c hc))
  rw [hnull] at this
  cases this

theorem next (hs : Owning form s) (h : s.next form op = some s')
    (honce : AdoptedOnce s'.heap.adopted) : Owning form s' :=
  { inv := inv_next hs.inv (hs.separate op) h, once := honce }

theorem run {ops : List (PtrStep T)} (hrun : exec (SmPtrs.next form) empty ops = some s)
    (honce : AdoptedOnce s.heap.adopted) : Owning form s := by
  refine exec_invariant (I := fun t => AdoptedOnce t.heap.adopted → Owning form t) ?_
    (fun h => { inv := Inv.empty, once := h }) hrun honce
  intro t op t' ht h honce'
  have hold := honce'
  rw [next_adopted h] at hold
  exact (ht hold.of_append).next h honce'

/-- Once its handles are gone a block has none. -/
theorem owners_zero_next (hs : Owning form s) (hs' : Owning form s')
    (h : s.next form op = some s') (hb : b < s.heap.counters.length) (hzero : s.owners b = 0) :
    s'.owners b = 0 := by
  rw [owners_eq] at hzero ⊢
  have hdeleted : Deleted b s' := Deleted.next ((hs.inv.deleted_iff hb).mpr hzero) h
  exact (hs'.inv.deleted_iff (Calls.lt_of_getElem?_eq_some hdeleted)).mp hdeleted

end Owning

variable [DecidableEq T]

/-- Every count is the number of handles, and what has no handle left has been deleted once. -/
structure Exact (form : DeleteForm) (s : SmPtrs T) : Prop where
  count : ∀ (b : Nat) (c : RefCounter T), s.heap.counters[b]? = some (some c) →
    c.iCount = s.owners b
  standing : ∀ (i b : Nat), s.handles[i]? = some (.live (some b)) →
    ∃ c, s.heap.counters[b]? = some (some c)
  payload : ∀ (b : Nat) (d : T), s.heap.adopted[b]? = some (some d) →
    s.heap.timesDeleted d = if s.owners b = 0 then 1 else 0
  counter : ∀ b, b < s.heap.counters.length →
    s.heap.deletedCounters.count b = if s.owners b = 0 then 1 else 0
  form : ∀ e ∈ s.heap.deletedData, e.1 = form ∧ some e.2 ∈ s.heap.adopted

namespace Owning

theorem exact (h : Owning form s) : s.Exact form where
  count := by
    intro b c hc
    have hcounts := h.inv.counts b c hc
    rw [RefCounter.Counts,
      if_pos (h.once.1 _ (List.mem_of_getElem? (h.inv.adopted b c hc)))] at hcounts
    rw [owners_eq]
    exact hcounts
  standing := fun _ _ hi => h.inv.standing hi
  payload := by
    intro b d hb
    rw [owners_eq]
    exact h.inv.timesDeleted_eq (List.nodup_iff_count_le_one.mp h.once.2 _) hb
  counter := h.inv.sound.once
  form := fun _ he => h.inv.mem_deletedData he

end Owning

/--
Reference counting is exact.  In every state reached the counts are the numbers of handles, and a
payload has been deleted if it has no handle left; the step that takes its last handle is
the one that deletes it; and once no handle is left every payload and every counter has been
deleted once.
-/
theorem counting_exact {ops : List (PtrStep T)}
    (hrun : exec (SmPtrs.next form) empty ops = some s)
    (honce : AdoptedOnce (ops.filterMap PtrStep.adopts)) :
    s.Exact form ∧
    (∀ op s', s.next form op = some s' → AdoptedOnce ((ops ++ [op]).filterMap PtrStep.adopts) →
      ∀ (b : Nat) (d : T), s.heap.adopted[b]? = some (some d) →
        s'.heap.timesDeleted d =
          s.heap.timesDeleted d + if 0 < s.owners b ∧ s'.owners b = 0 then 1 else 0) ∧
    ((∀ h ∈ s.handles, h = .gone) →
      (∀ (b : Nat) (d : T), s.heap.adopted[b]? = some (some d) → s.heap.timesDeleted d = 1) ∧
      ∀ b, b < s.heap.counters.length → s.heap.deletedCounters.count b = 1) := by
  have hadopted := exec_adopted hrun
  rw [show (empty : SmPtrs T).heap.adopted = [] from rfl, List.nil_append] at hadopted
  have hs := Owning.run hrun (hadopted ▸ honce)
  have hexact := hs.exact
  refine ⟨hexact, ?_, ?_⟩
  · intro op s' h honce' b d hb
    have hs' : Owning form s' := by
      refine hs.next h ?_
      rw [next_adopted h, hadopted]
      cases hdata : op.adopts <;> simpa [hdata] using honce'
    have hb' : s'.heap.adopted[b]? = some (some d) := by
      rw [next_adopted h, List.getElem?_append_left (Calls.lt_of_getElem?_eq_some hb), hb]
    have hlt : b < s.heap.counters.length := by
      rw [← hs.inv.sizes]
      exact Calls.lt_of_getElem?_eq_some hb
    have hzero := hs.owners_zero_next hs' h hlt
    rw [hexact.payload b d hb, hs'.exact.payload b d hb']
    by_cases hbefore : s.owners b = 0
    · simp [hbefore, hzero hbefore]
    · simp [hbefore, Nat.pos_of_ne_zero hbefore]
  · intro hgone
    have hnone : ∀ b, s.owners b = 0 := fun b => List.countP_eq_zero.mpr fun g hg => by
      rw [hgone g hg]
      exact Bool.false_ne_true
    exact ⟨fun b d hb => by rw [hexact.payload b d hb, if_pos (hnone b)],
      fun b hb => by rw [hexact.counter b hb, if_pos (hnone b)]⟩

/-- Two payloads, three handles, an assignment and a self-assignment. -/
theorem counting_exact_three :
    ∃ s : SmPtrs Nat,
      exec XLSharedSmPtr.next empty [.createFrom (some 5), .copy 0, .create, .assign 2 1,
        .assign 1 1, .setData 0 (some 6), .destroy 0, .destroy 1, .destroy 2] = some s ∧
      s.Exact .delete ∧ s.heap.timesDeleted 5 = 1 ∧ s.heap.timesDeleted 6 = 1 := by
  have hrun : exec (SmPtrs.next .delete) (empty : SmPtrs Nat) [.createFrom (some 5), .copy 0,
      .create, .assign 2 1, .assign 1 1, .setData 0 (some 6), .destroy 0, .destroy 1,
      .destroy 2] = some _ := rfl
  have h := counting_exact hrun (by decide)
  exact ⟨_, rfl, h.1, (h.2.2 (by decide)).1 0 5 rfl, (h.2.2 (by decide)).1 1 6 rfl⟩

end SmPtrs

end ServClient
