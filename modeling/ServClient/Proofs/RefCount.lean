/-
What the counters of `XLAutoPtr` keep.

`Counted` ties the heap to the number of handles of each block: a counter stands as long
as its block has a handle, and has their number if it has a payload.  Making a block,
copying a handle and letting go of one keep it, with one exception.  A counter without
payload does not count, so the first of its handles to let go deletes it.

`Holds` is `Counted` for a list of the handles themselves.
-/
import ServClient.AutoPtr
import ServClient.Lib.Calls
import Mathlib.Data.List.Nodup

namespace ServClient

variable {T : Type}

namespace RefCounter

/-- `c` counts `n` handles; without payload it counts none. -/
def Counts (c : RefCounter T) (n : Nat) : Prop := c.iCount = if c.pData.isSome then (n : Int) else 0

@[simp] theorem addRef_pData (c : RefCounter T) : c.addRef.pData = c.pData := by
  unfold addRef
  split <;> rfl

@[simp] theorem new_pData (data : Option T) : (new data).pData = data := by
  rw [new, addRef_pData]

theorem Counts.addRef {c : RefCounter T} {n : Nat} (h : c.Counts n) : c.addRef.Counts (n + 1) := by
  unfold Counts at h ⊢
  rw [addRef_pData, RefCounter.addRef]
  cases hp : c.pData with
  | none => simpa [hp] using h
  | some d =>
      simp only [hp, Option.isSome_some, if_true] at h ⊢
      omega

theorem counts_new (data : Option T) : (new data).Counts 1 :=
  Counts.addRef (c := { iCount := 0, pData := data }) (n := 0) (by simp [Counts])

theorem release_null {c : RefCounter T} (hp : c.pData = none) : c.release = (c, none) := by
  simp [release, hp]

/-- The last handle of a block lets go. -/
theorem Counts.release_last {c : RefCounter T} (h : c.Counts 1) :
    c.release.1.pData = none ∧ c.release.2 = c.pData := by
  cases hp : c.pData with
  | none => rw [release_null hp]; exact ⟨hp, rfl⟩
  | some d => simp_all [Counts, release]

/-- A handle lets go of a block that others hold. -/
theorem Counts.release_shared {c : RefCounter T} {n : Nat} (h : c.Counts (n + 1)) (hn : 0 < n)
    (hp : c.pData.isSome) :
    c.release.1.pData = c.pData ∧ c.release.2 = none ∧ c.release.1.Counts n := by
  have hi : c.iCount = (n : Int) + 1 := by
    rw [Counts, if_pos hp] at h
    omega
  have hne : ¬ (c.iCount - 1 = 0) := by omega
  simp only [release, hp, if_true, if_neg hne, Counts, true_and]
  omega

end RefCounter

namespace PtrHeap

variable {h : PtrHeap T} {form : DeleteForm} {b : Nat} {c : RefCounter T}

/-- How the payload of block `b` is deleted, if it has one. -/
def payloadOf (h : PtrHeap T) (form : DeleteForm) (b : Nat) : Option (DeleteForm × T) :=
  h.adopted[b]?.join.map (form, ·)

theorem addRef_live (hc : h.counters[b]? = some (some c)) :
    h.addRef b = { h with counters := h.counters.set b (some c.addRef) } := by
  simp only [addRef, hc]

theorem release_deletes (hc : h.counters[b]? = some (some c)) (hp : c.release.1.pData = none) :
    h.release form b =
      { h with
        counters := h.counters.set b none
        deletedData := h.deletedData ++ c.release.2.toList.map (form, ·)
        deletedCounters := h.deletedCounters ++ [b] } := by
  simp [release, hc, hp, RefCounter.release_null hp]

/-- A raw pointer given to a handle that goes at once is deleted. -/
theorem adopt_release (h : PtrHeap T) (form : DeleteForm) (d : T) :
    (h.adopt (some d)).release form h.counters.length =
      { h with
        counters := h.counters ++ [none]
        adopted := h.adopted ++ [some d]
        deletedData := h.deletedData ++ [(form, d)]
        deletedCounters := h.deletedCounters ++ [h.counters.length] } := by
  have hc : (h.adopt (some d)).counters[h.counters.length]? = some (some (.new (some d))) := by
    simp [adopt]
  obtain ⟨hp, hdata⟩ := (RefCounter.counts_new (some d)).release_last
  rw [release_deletes hc hp, hdata]
  simp [adopt]

theorem release_keeps (hc : h.counters[b]? = some (some c)) (hp : c.release.1.pData.isSome)
    (hnone : c.release.2 = none) :
    h.release form b = { h with counters := h.counters.set b (some c.release.1) } := by
  have hp' : c.release.1.pData.isNone = false := by
    rw [Option.isNone_eq_false_iff]
    exact hp
  simp only [release, hc, hp', hnone, Bool.false_eq_true, if_false, Option.toList_none,
    List.map_nil, List.append_nil]

/-! ### Deleted counters stay deleted -/

theorem set_deleted {k : Nat} {o : Option (RefCounter T)} (hk : h.counters[k]? = some (some c))
    (hb : h.counters[b]? = some none) : (h.counters.set k o)[b]? = some none := by
  have hne : k ≠ b := by
    rintro rfl
    rw [hk] at hb
    cases hb
  rw [List.getElem?_set_ne hne, hb]

theorem adopt_deleted (hb : h.counters[b]? = some none) (data : Option T) :
    (h.adopt data).counters[b]? = some none :=
  (List.getElem?_append_left (Calls.lt_of_getElem?_eq_some hb)).trans hb

theorem addRef_deleted (hb : h.counters[b]? = some none) (k : Nat) :
    (h.addRef k).counters[b]? = some none := by
  unfold addRef
  split
  · rename_i hk
    exact set_deleted hk hb
  · exact hb

theorem release_deleted (hb : h.counters[b]? = some none) (k : Nat) :
    (h.release form k).counters[b]? = some none := by
  unfold release
  split
  · rename_i hk
    dsimp only
    split <;> exact set_deleted hk hb
  · exact hb

theorem share_deleted (hb : h.counters[b]? = some none) (p : Option Nat) :
    (h.share p).counters[b]? = some none := by
  cases p with
  | none => exact hb
  | some k => exact addRef_deleted hb k

theorem releaseData_deleted (hb : h.counters[b]? = some none) (p : Option Nat) :
    (h.releaseData form p).counters[b]? = some none := by
  cases p with
  | none => exact hb
  | some k => exact release_deleted hb k

theorem touch_deleted (hb : h.counters[b]? = some none) (p : Option Nat) :
    (h.touch p).counters[b]? = some none := by
  cases p with
  | none => exact hb
  | some k =>
      unfold touch
      dsimp only
      split <;> exact hb

/-! ### What was adopted stays on record -/

@[simp] theorem addRef_adopted (h : PtrHeap T) (b : Nat) : (h.addRef b).adopted = h.adopted := by
  unfold addRef
  split <;> rfl

@[simp] theorem share_adopted (h : PtrHeap T) (p : Option Nat) :
    (h.share p).adopted = h.adopted := by
  cases p with
  | none => rfl
  | some b => exact addRef_adopted h b

@[simp] theorem releaseData_adopted (h : PtrHeap T) (p : Option Nat) :
    (h.releaseData form p).adopted = h.adopted := by
  cases p with
  | none => rfl
  | some b =>
      unfold releaseData release
      dsimp only
      split
      · split <;> rfl
      · rfl

@[simp] theorem touch_adopted (h : PtrHeap T) (p : Option Nat) :
    (h.touch p).adopted = h.adopted := by
  cases p with
  | none => rfl
  | some b =>
      unfold touch
      dsimp only
      split <;> rfl

/-! ### The heap and the handles of each block

Counting is done block by block: `n b` handles hold block `b`.  Each operation changes that number
for one block, and the heap has to follow.
-/

/-- Block `b` stands, and its payload is null. -/
def HoldsNull (h : PtrHeap T) (b : Nat) : Prop :=
  ∃ c, h.counters[b]? = some (some c) ∧ c.pData = none

/-- Block `b` has `n b` handles. -/
structure Counted (form : DeleteForm) (h : PtrHeap T) (n : Nat → Nat) : Prop where
  noFault : h.fault = false
  sizes : h.adopted.length = h.counters.length
  stands : ∀ b, (∃ c, h.counters[b]? = some (some c)) ↔ 0 < n b
  adopted : ∀ (b : Nat) (c : RefCounter T), h.counters[b]? = some (some c) →
    h.adopted[b]? = some c.pData
  counts : ∀ (b : Nat) (c : RefCounter T), h.counters[b]? = some (some c) → c.Counts (n b)
  deleted : ∀ b, b ∈ h.deletedCounters ↔ h.counters[b]? = some none
  once : h.deletedCounters.Nodup
  data : h.deletedData = h.deletedCounters.filterMap (h.payloadOf form)

namespace Counted

variable {n n' : Nat → Nat}

theorem empty : Counted form (PtrHeap.empty : PtrHeap T) fun _ => 0 := by
  constructor <;> simp [PtrHeap.empty]

theorem lt_of_live (hI : Counted form h n) (hc : h.counters[b]? = some (some c)) :
    b < h.adopted.length := by
  rw [hI.sizes]
  exact Calls.lt_of_getElem?_eq_some hc

theorem lt_of_deleted (hI : Counted form h n) (hb : b ∈ h.deletedCounters) :
    b < h.adopted.length := by
  rw [hI.sizes]
  exact Calls.lt_of_getElem?_eq_some ((hI.deleted b).mp hb)

/-- No block has a handle before it is made. -/
theorem unborn (hI : Counted form h n) (hb : h.counters.length ≤ b) : n b = 0 := by
  by_contra hn
  obtain ⟨c, hc⟩ := (hI.stands b).mpr (Nat.pos_of_ne_zero hn)
  rw [List.getElem?_eq_none hb] at hc
  cases hc

/-- A block is made, with one handle. -/
theorem adopt (hI : Counted form h n) (data : Option T) (hnew : n' h.counters.length = 1)
    (hold : ∀ b, b ≠ h.counters.length → n' b = n b) : Counted form (h.adopt data) n' where
  noFault := hI.noFault
  sizes := by simp [PtrHeap.adopt, hI.sizes]
  stands := by
    intro b
    by_cases hb : b = h.counters.length
    · subst hb
      simp [PtrHeap.adopt, hnew]
    · rw [hold b hb, ← hI.stands b]
      refine exists_congr fun c => ⟨fun hc => ?_, fun hc => ?_⟩
      · exact (Calls.getElem?_concat hc).resolve_left fun hlast => hb hlast.1
      · exact (List.getElem?_append_left (Calls.lt_of_getElem?_eq_some hc)).trans hc
  adopted := by
    intro b c hc
    show (h.adopted ++ [data])[b]? = some c.pData
    rcases Calls.getElem?_concat hc with ⟨rfl, hcnew⟩ | hcold
    · cases hcnew
      simp [← hI.sizes]
    · rw [List.getElem?_append_left (hI.lt_of_live hcold)]
      exact hI.adopted b c hcold
  counts := by
    intro b c hc
    rcases Calls.getElem?_concat hc with ⟨rfl, hcnew⟩ | hcold
    · cases hcnew
      rw [hnew]
      exact RefCounter.counts_new data
    · rw [hold b (Nat.ne_of_lt (Calls.lt_of_getElem?_eq_some hcold))]
      exact hI.counts b c hcold
  deleted := by
    intro b
    rw [show (h.adopt data).deletedCounters = h.deletedCounters from rfl, hI.deleted b]
    constructor
    · intro hb
      exact (List.getElem?_append_left (Calls.lt_of_getElem?_eq_some hb)).trans hb
    · intro hb
      exact (Calls.getElem?_concat hb).resolve_left fun hlast => by cases hlast.2
  once := hI.once
  data := by
    show h.deletedData = h.deletedCounters.filterMap ((h.adopt data).payloadOf form)
    rw [hI.data]
    refine List.filterMap_congr fun b hb => ?_
    rw [payloadOf, payloadOf, PtrHeap.adopt]
    simp only
    rw [List.getElem?_append_left (hI.lt_of_deleted hb)]

/-- A counter takes another count, its payload stays. -/
theorem recount {d : RefCounter T} (hI : Counted form h n) (hc : h.counters[b]? = some (some c))
    (hp : d.pData = c.pData) (hcounts : d.Counts (n' b)) (hpos : 0 < n' b)
    (hold : ∀ k, k ≠ b → n' k = n k) :
    Counted form { h with counters := h.counters.set b (some d) } n' where
  noFault := hI.noFault
  sizes := by simp [hI.sizes]
  stands := by
    intro k
    by_cases hk : k = b
    · subst hk
      simp [Calls.lt_of_getElem?_eq_some hc, hpos]
    · rw [hold k hk, ← hI.stands k, List.getElem?_set_ne (Ne.symm hk)]
  adopted := by
    intro k e he
    rcases Calls.getElem?_set hc he with ⟨rfl, henew⟩ | ⟨-, heold⟩
    · cases henew
      rw [hp]
      exact hI.adopted k c hc
    · exact hI.adopted k e heold
  counts := by
    intro k e he
    rcases Calls.getElem?_set hc he with ⟨rfl, henew⟩ | ⟨hne, heold⟩
    · cases henew
      exact hcounts
    · rw [hold k hne]
      exact hI.counts k e heold
  deleted := by
    intro k
    rw [hI.deleted k]
    by_cases hk : k = b
    · subst hk
      rw [hc, List.getElem?_set_self (Calls.lt_of_getElem?_eq_some hc)]
      simp
    · rw [List.getElem?_set_ne (Ne.symm hk)]
  once := hI.once
  data := hI.data

/-- A block gets one more handle. -/
theorem addRef (hI : Counted form h n) (hb : 0 < n b) (hmore : n' b = n b + 1)
    (hold : ∀ k, k ≠ b → n' k = n k) : Counted form (h.addRef b) n' := by
  obtain ⟨c, hc⟩ := (hI.stands b).mpr hb
  rw [addRef_live hc]
  refine hI.recount hc (RefCounter.addRef_pData c) ?_ (by omega) hold
  rw [hmore]
  exact (hI.counts b c hc).addRef

/-- A handle lets go of a block with a payload that others hold. -/
theorem release_shared (hI : Counted form h n) (hmore : n b = n' b + 1) (hleft : 0 < n' b)
    (hold : ∀ k, k ≠ b → n' k = n k) (hpayload : ¬ h.HoldsNull b) :
    Counted form (h.release form b) n' := by
  obtain ⟨c, hc⟩ := (hI.stands b).mpr (by omega)
  have hcounts := hI.counts b c hc
  rw [hmore] at hcounts
  have hsome : c.pData.isSome := by
    rw [Option.isSome_iff_ne_none]
    exact fun hnull => hpayload ⟨c, hc, hnull⟩
  obtain ⟨hp, hnone, hleft'⟩ := hcounts.release_shared hleft hsome
  rw [release_keeps hc (by rw [hp]; exact hsome) hnone]
  exact hI.recount hc hp hleft' hleft hold

/-- The last handle of a block lets go of it. -/
theorem release_last (hI : Counted form h n) (hlast : n b = 1) (hnone : n' b = 0)
    (hold : ∀ k, k ≠ b → n' k = n k) : Counted form (h.release form b) n' := by
  obtain ⟨c, hc⟩ := (hI.stands b).mpr (by omega)
  have hlt := Calls.lt_of_getElem?_eq_some hc
  have hcounts := hI.counts b c hc
  rw [hlast] at hcounts
  obtain ⟨hp, hdata⟩ := hcounts.release_last
  have hnot : b ∉ h.deletedCounters := fun hmem => by
    have := (hI.deleted b).mp hmem
    rw [hc] at this
    cases this
  rw [release_deletes hc hp]
  constructor
  · exact hI.noFault
  · simp [hI.sizes]
  · intro k
    by_cases hk : k = b
    · subst hk
      simp [hlt, hnone]
    · rw [hold k hk, ← hI.stands k, List.getElem?_set_ne (Ne.symm hk)]
  · intro k d hd
    rcases Calls.getElem?_set hc hd with ⟨-, hdnew⟩ | ⟨-, hdold⟩
    · cases hdnew
    · exact hI.adopted k d hdold
  · intro k d hd
    rcases Calls.getElem?_set hc hd with ⟨-, hdnew⟩ | ⟨hne, hdold⟩
    · cases hdnew
    · rw [hold k hne]
      exact hI.counts k d hdold
  · intro k
    by_cases hk : k = b
    · subst hk
      simp [hlt]
    · simp [hI.deleted k, List.getElem?_set_ne (Ne.symm hk), hk]
  · exact List.nodup_append.mpr ⟨hI.once, by simp, fun k hk m hm heq => by
      rw [List.mem_singleton] at hm
      exact hnot (hm ▸ heq ▸ hk)⟩
  · show h.deletedData ++ _ = (h.deletedCounters ++ [b]).filterMap (h.payloadOf form)
    rw [List.filterMap_append, ← hI.data, hdata]
    cases hcp : c.pData <;> simp [payloadOf, hI.adopted b c hc, hcp]

/-- Letting go, unless the block has no payload and more handles. -/
theorem release (hI : Counted form h n) (hmore : n b = n' b + 1)
    (hold : ∀ k, k ≠ b → n' k = n k) (hclean : h.HoldsNull b → n b = 1) :
    Counted form (h.release form b) n' := by
  by_cases hlast : n b = 1
  · exact hI.release_last hlast (by omega) hold
  · exact hI.release_shared hmore (by omega) hold fun hnull => hlast (hclean hnull)

theorem congr (hI : Counted form h n) (heq : ∀ b, n' b = n b) : Counted form h n' := by
  rw [show n' = n from funext heq]
  exact hI

/-! ### What has been deleted -/

theorem deleted_iff (hI : Counted form h n) (hb : b < h.counters.length) :
    h.counters[b]? = some none ↔ n b = 0 := by
  have hstands := hI.stands b
  rw [List.getElem?_eq_getElem hb] at hstands ⊢
  cases hc : h.counters[b] with
  | none =>
      rw [hc] at hstands
      simp only [Option.some.injEq, reduceCtorEq, exists_false, false_iff, Nat.not_lt] at hstands
      simp only [true_iff]
      omega
  | some c =>
      rw [hc] at hstands
      have hpos : 0 < n b := hstands.mp ⟨c, rfl⟩
      simp only [Option.some.injEq, reduceCtorEq, false_iff]
      omega

/-- A counter is deleted once, when it has no handle. -/
theorem count_deleted (hI : Counted form h n) (hb : b < h.counters.length) :
    h.deletedCounters.count b = if n b = 0 then 1 else 0 := by
  rw [List.Nodup.count hI.once]
  simp only [hI.deleted, hI.deleted_iff hb]

theorem mem_deletedData (hI : Counted form h n) {e : DeleteForm × T} (he : e ∈ h.deletedData) :
    e.1 = form ∧ some e.2 ∈ h.adopted := by
  rw [hI.data, List.mem_filterMap] at he
  obtain ⟨b, -, hb⟩ := he
  obtain ⟨d, hd, rfl⟩ := Option.map_eq_some_iff.mp hb
  exact ⟨rfl, List.mem_of_getElem? (Option.join_eq_some_iff.mp hd)⟩

/-- With one block for `d`, that block's handles keep it. -/
theorem timesDeleted_eq [DecidableEq T] (hI : Counted form h n) {d : T}
    (hone : h.adopted.count (some d) ≤ 1) (hb : h.adopted[b]? = some (some d)) :
    h.timesDeleted d = if n b = 0 then 1 else 0 := by
  have hblock : ∀ k, (h.payloadOf form k).map Prod.snd = some d ↔ k = b := by
    intro k
    rw [payloadOf, Option.map_map, show (Prod.snd ∘ fun e : T => (form, e)) = id from rfl,
      Option.map_id, id, Option.join_eq_some_iff]
    exact ⟨fun hk => Calls.eq_of_count_le_one hone hk hb, fun hk => hk ▸ hb⟩
  have hlt : b < h.counters.length := by
    rw [← hI.sizes]
    exact Calls.lt_of_getElem?_eq_some hb
  rw [← hI.count_deleted hlt, timesDeleted, hI.data, List.map_filterMap, List.count_filterMap]
  refine List.countP_congr fun k _ => ?_
  rw [beq_iff_eq, beq_iff_eq]
  exact hblock k

/-- One block for `d` means one delete. -/
theorem timesDeleted_le_one [DecidableEq T] (hI : Counted form h n) {d : T}
    (hone : h.adopted.count (some d) ≤ 1) : h.timesDeleted d ≤ 1 := by
  by_contra hmore
  have hmem : d ∈ h.deletedData.map Prod.snd := List.count_pos_iff.mp (by
    rw [timesDeleted] at hmore
    omega)
  obtain ⟨e, he, rfl⟩ := List.mem_map.mp hmem
  obtain ⟨b, hb⟩ := List.getElem?_of_mem (hI.mem_deletedData he).2
  rw [hI.timesDeleted_eq hone hb] at hmore
  split at hmore <;> omega

theorem getData_eq_some {d : T} :
    h.getData (some b) = some d ↔ ∃ c, h.counters[b]? = some (some c) ∧ c.pData = some d := by
  simp only [getData, Option.bind_eq_some_iff, Option.join_eq_some_iff]

theorem adopted_of_getData (hI : Counted form h n) {d : T} (hb : h.getData (some b) = some d) :
    h.adopted[b]? = some (some d) := by
  obtain ⟨c, hc, hd⟩ := getData_eq_some.mp hb
  rw [hI.adopted b c hc, hd]

end Counted

/-! ### The handles themselves -/

/-- The handles are those whose `m_pData`s are listed. -/
def Holds (form : DeleteForm) (h : PtrHeap T) (held : List (Option Nat)) : Prop :=
  Counted form h fun b => held.count (some b)

namespace Holds

variable {held held' : List (Option Nat)} {p : Option Nat}

theorem empty : Holds form (PtrHeap.empty : PtrHeap T) [] := Counted.empty

theorem perm (hI : Holds form h held) (hp : held.Perm held') : Holds form h held' :=
  hI.congr fun b => (hp.count_eq (some b)).symm

/-- Handles without a counter do not matter. -/
theorem cons_none (hI : Holds form h held) : Holds form h (none :: held) :=
  hI.congr fun b => by simp

theorem of_cons_none (hI : Holds form h (none :: held)) : Holds form h held :=
  hI.congr fun b => by simp

theorem adopt (hI : Holds form h held) (data : Option T) :
    Holds form (h.adopt data) (some h.counters.length :: held) := by
  refine Counted.adopt hI data ?_ fun b hb => ?_
  · have hnew := hI.unborn (Nat.le_refl _)
    simpa using hnew
  · simp [Ne.symm hb]

theorem standing (hI : Holds form h held) (hb : some b ∈ held) :
    ∃ c, h.counters[b]? = some (some c) :=
  (hI.stands b).mpr (List.count_pos_iff.mpr hb)

/-- Looking at the counter of a handle finds one. -/
theorem touch (hI : Holds form h held) (hp : ∀ b, p = some b → some b ∈ held) :
    h.touch p = h := by
  cases p with
  | none => rfl
  | some b =>
      obtain ⟨c, hc⟩ := hI.standing (hp b rfl)
      simp [PtrHeap.touch, hc]

theorem share (hI : Holds form h held) (hp : ∀ b, p = some b → some b ∈ held) :
    Holds form (h.share p) (p :: held) := by
  cases p with
  | none => exact hI.cons_none
  | some b =>
      refine Counted.addRef hI (List.count_pos_iff.mpr (hp b rfl)) ?_ fun k hk => ?_
      · simp
      · simp [Ne.symm hk]

theorem releaseData (hI : Holds form h (p :: held))
    (hclean : ∀ b, p = some b → h.HoldsNull b → some b ∉ held) :
    Holds form (h.releaseData form p) held := by
  cases p with
  | none => exact hI.of_cons_none
  | some b =>
      refine Counted.release hI ?_ (fun k hk => ?_) fun hnull => ?_
      · simp
      · simp [Ne.symm hk]
      · simp [List.count_eq_zero.mpr (hclean b rfl hnull)]

end Holds

end PtrHeap

end ServClient
