/-
The operators of `XLSharedSmPtr` against one order.

`<`, `>`, `<=` and `>=` put null in the place of a payload that a handle without a counter does not
have, so they compare what `GetConstData` gives.  `==` looks at the counters first: a handle without
one differs from a handle whose counter has no payload, although neither is less.
-/
import ServClient.PtrCompare
import ServClient.ServingThread
import ServClient.Lib.Runs
import Mathlib.Order.RelClasses
import Mathlib.Order.WithBot

namespace ServClient

namespace XLSharedSmPtr

variable {T : Type}

/-- A `T*` as an address, null least. -/
def ptrAddress (p : Option T) : WithBot T := p

/-- What handles are to be compared by. -/
def address (a : Option (RefCounter T)) : WithBot T := ptrAddress (getConstData a)

theorem getConstData_block (h : PtrHeap T) (p : Option Nat) :
    getConstData (h.block p) = h.getData p := by
  cases p with
  | none => rfl
  | some b =>
      show getConstData h.counters[b]?.join = h.counters[b]?.join.bind RefCounter.pData
      cases h.counters[b]?.join <;> rfl

variable [LinearOrder T] {a b : Option (RefCounter T)}

theorem ptrLt_iff {p q : Option T} : ptrLt p q = true ↔ ptrAddress p < ptrAddress q := by
  cases p with
  | none =>
      cases q with
      | none => exact iff_of_false Bool.false_ne_true (lt_irrefl _)
      | some b => exact iff_of_true rfl (WithBot.bot_lt_coe b)
  | some a =>
      cases q with
      | none => exact iff_of_false Bool.false_ne_true not_lt_bot
      | some b => exact decide_eq_true_iff.trans WithBot.coe_lt_coe.symm

theorem ptrLe_iff {p q : Option T} : ptrLe p q = true ↔ ptrAddress p ≤ ptrAddress q := by
  cases p with
  | none => exact iff_of_true rfl bot_le
  | some a =>
      cases q with
      | none =>
          refine iff_of_false Bool.false_ne_true fun hle => ?_
          exact WithBot.coe_ne_bot (le_bot_iff.mp hle)
      | some b => exact decide_eq_true_iff.trans WithBot.coe_le_coe.symm

/-! ### What the operators compare

`<` and `>` and their weak forms compare objects.  `==` compares counters, and differs from them
where two handles are null and only one has a counter.
-/

theorem lt_eq (a b : Option (RefCounter T)) :
    lt a b = ptrLt (getConstData a) (getConstData b) := by cases a <;> cases b <;> rfl

theorem gt_eq (a b : Option (RefCounter T)) :
    gt a b = ptrLt (getConstData b) (getConstData a) := by cases a <;> cases b <;> rfl

theorem le_eq (a b : Option (RefCounter T)) :
    le a b = ptrLe (getConstData a) (getConstData b) := by cases a <;> cases b <;> rfl

theorem ge_eq (a b : Option (RefCounter T)) :
    ge a b = ptrLe (getConstData b) (getConstData a) := by cases a <;> cases b <;> rfl

theorem lt_iff : lt a b = true ↔ address a < address b := by
  rw [lt_eq]
  exact ptrLt_iff

theorem gt_iff : gt a b = true ↔ address b < address a := by
  rw [gt_eq]
  exact ptrLt_iff

theorem le_iff : le a b = true ↔ address a ≤ address b := by
  rw [le_eq]
  exact ptrLe_iff

theorem ge_iff : ge a b = true ↔ address b ≤ address a := by
  rw [ge_eq]
  exact ptrLe_iff

/-- Two handles that are null have both a counter, or neither has. -/
def SameNull (a b : Option (RefCounter T)) : Prop :=
  getConstData a = none → getConstData b = none → a.isSome = b.isSome

instance (a b : Option (RefCounter T)) : Decidable (SameNull a b) :=
  inferInstanceAs (Decidable (_ → _ → _))

theorem eq_iff : eq a b = true ↔ address a = address b ∧ SameNull a b := by
  cases a with
  | none =>
      cases b with
      | none => exact iff_of_true rfl ⟨rfl, fun _ _ => rfl⟩
      | some d =>
          refine iff_of_false Bool.false_ne_true fun h => ?_
          exact absurd (h.2 rfl h.1.symm) (by simp)
  | some c =>
      cases b with
      | none =>
          refine iff_of_false Bool.false_ne_true fun h => ?_
          exact absurd (h.2 h.1 rfl) (by simp)
      | some d =>
          exact decide_eq_true_iff.trans ⟨fun h => ⟨h, fun _ _ => rfl⟩, And.left⟩

/-- The five operators are those of one order, that of the addresses. -/
structure OneOrder (a b : Option (RefCounter T)) : Prop where
  less : lt a b = true ↔ address a < address b
  greater : gt a b = true ↔ address b < address a
  lessEq : le a b = true ↔ address a ≤ address b
  greaterEq : ge a b = true ↔ address b ≤ address a
  same : eq a b = true ↔ address a = address b
  same_iff_neither : eq a b = true ↔ ¬ lt a b = true ∧ ¬ lt b a = true
  same_iff_both : eq a b = true ↔ le a b = true ∧ ge a b = true
  greater_iff : gt a b = true ↔ lt b a = true

theorem oneOrder_iff : OneOrder a b ↔ SameNull a b := by
  constructor
  · intro h ha hb
    have haddress : address a = address b := ha.trans hb.symm
    exact (eq_iff.mp (h.same.mpr haddress)).2 ha hb
  · intro hnull
    have hsame : eq a b = true ↔ address a = address b :=
      eq_iff.trans (and_iff_left hnull)
    refine ⟨lt_iff, gt_iff, le_iff, ge_iff, hsame, ?_, ?_, gt_iff.trans lt_iff.symm⟩
    · rw [hsame, lt_iff, lt_iff, not_lt, not_lt, eq_comm]
      exact ⟨fun h => ⟨h.le, h.ge⟩, fun h => le_antisymm h.1 h.2⟩
    · rw [hsame, le_iff, ge_iff]
      exact le_antisymm_iff

theorem strictWeakOrder :
    IsStrictWeakOrder (Option (RefCounter T)) fun a b => lt a b = true where
  irrefl := fun a h => lt_irrefl _ (lt_iff.mp h)
  trans := fun a b c hab hbc => lt_iff.mpr ((lt_iff.mp hab).trans (lt_iff.mp hbc))
  incomp_trans := fun a b c hab hbc => by
    simp only [lt_iff, not_lt] at hab hbc ⊢
    exact ⟨hbc.1.trans hab.1, hab.2.trans hbc.2⟩

/--
The operators compare two handles as their addresses are compared if and only if it is not that
both are null and one of them alone has a counter; and `<` is a strict weak order of all handles.
-/
theorem compares_addresses_iff :
    (∀ a b : Option (RefCounter T), OneOrder a b ↔ SameNull a b) ∧
      IsStrictWeakOrder (Option (RefCounter T)) fun a b => lt a b = true :=
  ⟨fun _ _ => oneOrder_iff, strictWeakOrder⟩

/-- A handle from the default constructor, and one that is given null. -/
theorem nulls_differ : ∃ s : SmPtrs Nat,
    Runs.exec next SmPtrs.empty [.create, .createFrom none] = some s ∧
      s.handles = [.live none, .live (some 0)] ∧
      eq (s.heap.block none) (s.heap.block (some 0)) = false ∧
      lt (s.heap.block none) (s.heap.block (some 0)) = false ∧
      lt (s.heap.block (some 0)) (s.heap.block none) = false ∧
      ¬ OneOrder (s.heap.block none) (s.heap.block (some 0)) := by
  refine ⟨_, rfl, rfl, by decide, by decide, by decide, fun h => ?_⟩
  exact absurd (h.same_iff_neither.mpr (by decide)) (by decide)

/-- Whatever the order of the addresses, `m_ClientIDs` takes no handle that is neither less nor
greater than one it has. -/
theorem insert_skips_iff [LinearOrder UInt64] (t : XLServingThread) (p : Option Nat) :
    (t.clientIDs.any fun c => t.heap.getData c = t.heap.getData p) = true ↔
      ∃ c ∈ t.clientIDs, ¬ lt (t.heap.block c) (t.heap.block p) = true ∧
        ¬ lt (t.heap.block p) (t.heap.block c) = true := by
  rw [List.any_eq_true]
  refine exists_congr fun c => and_congr_right fun _ => ?_
  have hdata : t.heap.getData c = t.heap.getData p ↔
      address (t.heap.block c) = address (t.heap.block p) := by
    rw [address, address, getConstData_block, getConstData_block]
    rfl
  rw [decide_eq_true_iff, hdata, lt_iff, lt_iff, not_lt, not_lt]
  exact ⟨fun h => ⟨h.ge, h.le⟩, fun h => le_antisymm h.2 h.1⟩

end XLSharedSmPtr

end ServClient
