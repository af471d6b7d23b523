/-
Entries kept in the order of their keys.

The order is a strict weak order: keys neither of which is less are the same to it, and need not be
equal.  Entries with the same key stand together, so that they can be found from both ends, and a
new one goes behind those that are there.  An ordered map that takes a key many times is such a
list, and an ordered set is one that takes no key it has.

What is found by its place, up to the first key that is not less, is what a filter over the whole
list finds as long as the list is sorted; that is all the order is good for here.
-/
import Mathlib.Data.List.Sort
import Mathlib.Order.Defs.Unbundled

namespace KeyOrder

variable {κ ε : Type*} (lt : κ → κ → Prop) (key : ε → κ)

/-- Neither key is less. -/
def Same (a b : κ) : Prop := ¬ lt a b ∧ ¬ lt b a

instance [DecidableRel lt] (a b : κ) : Decidable (Same lt a b) :=
  inferInstanceAs (Decidable (_ ∧ _))

/-- No entry is less than one in front of it. -/
def Sorted (l : List ε) : Prop := l.Pairwise fun a b => ¬ lt (key b) (key a)

/-- No key is there twice. -/
def Distinct (l : List ε) : Prop := l.Pairwise fun a b => ¬ Same lt (key a) (key b)

section

variable [DecidableRel lt]

/-- The entries in front of the first that is not less than `k`. -/
def before (k : κ) (l : List ε) : List ε := l.takeWhile fun e => decide (lt (key e) k)

/-- The entries from there on. -/
def notBefore (k : κ) (l : List ε) : List ε := l.dropWhile fun e => decide (lt (key e) k)

/-- Those of them up to the first that is greater. -/
def equalRange (k : κ) (l : List ε) : List ε :=
  (notBefore lt key k l).takeWhile fun e => !decide (lt k (key e))

/-- The elements whose keys come behind `k`. -/
def after (k : κ) (l : List ε) : List ε :=
  (notBefore lt key k l).dropWhile fun e => !decide (lt k (key e))

/-- The first element with a key equivalent to `k`. -/
def find? (k : κ) (l : List ε) : Option ε := (equalRange lt key k l).head?

/-- In front of the first entry that is greater. -/
def insert (e : ε) (l : List ε) : List ε := l.orderedInsert (fun a b => lt (key a) (key b)) e

/-- Nothing where the key is there already. -/
def insertNew (e : ε) (l : List ε) : List ε :=
  if (find? lt key (key e) l).isSome then l else insert lt key e l

/-- The list without the elements that have a key equivalent to `k`. -/
def eraseKey (k : κ) (l : List ε) : List ε := before lt key k l ++ after lt key k l

/-- The first entry of the range that `p` holds of. -/
def eraseFirst (p : ε → Bool) (k : κ) (l : List ε) : List ε :=
  before lt key k l ++ (equalRange lt key k l).eraseP p ++ after lt key k l

end

/-! ### Lists -/

section

variable {p : ε → Bool} {l : List ε}

/-- Where no entry with `p` stands behind one without, the first ones are all that there are. -/
theorem takeWhile_eq_filter (h : l.Pairwise fun a b => p b = true → p a = true) :
    l.takeWhile p = l.filter p := by
  induction l with
  | nil => rfl
  | cons a rest ih =>
      obtain ⟨hhead, hrest⟩ := List.pairwise_cons.mp h
      cases ha : p a with
      | true => rw [List.takeWhile_cons_of_pos ha, List.filter_cons_of_pos ha, ih hrest]
      | false =>
          have hnone : rest.filter p = [] := List.filter_eq_nil_iff.mpr fun b hb hpb => by
            rw [hhead b hb hpb] at ha
            cases ha
          rw [List.takeWhile_cons_of_neg (by rw [ha]; decide),
            List.filter_cons_of_neg (by rw [ha]; decide), hnone]

theorem dropWhile_eq_filter (h : l.Pairwise fun a b => p b = true → p a = true) :
    l.dropWhile p = l.filter fun a => !p a := by
  induction l with
  | nil => rfl
  | cons a rest ih =>
      obtain ⟨hhead, hrest⟩ := List.pairwise_cons.mp h
      cases ha : p a with
      | true =>
          rw [List.dropWhile_cons_of_pos ha, List.filter_cons_of_neg (by rw [ha]; decide), ih hrest]
      | false =>
          have hall : (a :: rest).filter (fun b => !p b) = a :: rest :=
            List.filter_eq_self.mpr fun b hb => by
              rcases List.mem_cons.mp hb with rfl | hb
              · rw [ha]
                rfl
              · cases hpb : p b with
                | false => rfl
                | true =>
                    rw [hhead b hb hpb] at ha
                    cases ha
          rw [List.dropWhile_cons_of_neg (by rw [ha]; decide), hall]

/-- Taking out the first is taking out all, where there is one at most. -/
theorem eraseP_eq_filter (h : l.countP p ≤ 1) : l.eraseP p = l.filter fun a => !p a := by
  induction l with
  | nil => rfl
  | cons a rest ih =>
      rw [List.countP_cons] at h
      cases ha : p a with
      | true =>
          rw [ha, if_pos rfl] at h
          have hnone : rest.countP p = 0 := by omega
          have hrest : rest.filter (fun b => !p b) = rest :=
            List.filter_eq_self.mpr fun b hb => by
              have hb := List.countP_eq_zero.mp hnone b hb
              simpa using hb
          rw [List.eraseP_cons_of_pos ha, List.filter_cons_of_neg (by rw [ha]; decide), hrest]
      | false =>
          rw [ha] at h
          rw [List.eraseP_cons_of_neg (by rw [ha]; decide),
            List.filter_cons_of_pos (by rw [ha]; rfl), ih (by simpa using h)]

end

/-! ### One key -/

variable {lt key} {l m : List ε} {e : ε} {k : κ}

theorem Same.symm {a b : κ} (h : Same lt a b) : Same lt b a := ⟨h.2, h.1⟩

theorem Distinct.perm (h : Distinct lt key l) (hm : l.Perm m) : Distinct lt key m :=
  (hm.pairwise_iff fun h hsame => h hsame.symm).mp h

section

variable [IsStrictWeakOrder κ lt]

/-- What is less than a key is less than any other, or the other is less than that key. -/
theorem lt_or_lt {a c : κ} (b : κ) (h : lt a c) : lt a b ∨ lt b c := by
  by_contra hneither
  rw [not_or] at hneither
  have hba : ¬ lt b a := fun hba => hneither.2 (IsTrans.trans b a c hba h)
  have hcb : ¬ lt c b := fun hcb => hneither.1 (IsTrans.trans a c b h hcb)
  exact (IsStrictWeakOrder.incomp_trans a b c ⟨hneither.1, hba⟩ ⟨hneither.2, hcb⟩).1 h

theorem lt_asymm {a b : κ} (h : lt a b) : ¬ lt b a := fun hba =>
  Std.Irrefl.irrefl a (IsTrans.trans a b a h hba)

theorem Same.trans {a b c : κ} (hab : Same lt a b) (hbc : Same lt b c) : Same lt a c :=
  IsStrictWeakOrder.incomp_trans a b c hab hbc

/-- A key is there once at most. -/
theorem Distinct.countP_le_one [DecidableRel lt] (h : Distinct lt key l) (k : κ) :
    (l.countP fun e => decide (Same lt k (key e))) ≤ 1 := by
  induction l with
  | nil => exact Nat.zero_le _
  | cons a rest ih =>
      obtain ⟨hhead, hrest⟩ := List.pairwise_cons.mp h
      rw [List.countP_cons]
      by_cases ha : Same lt k (key a)
      · have hnone : (rest.countP fun e => decide (Same lt k (key e))) = 0 :=
          List.countP_eq_zero.mpr fun b hb hkb =>
            hhead b hb (ha.symm.trans (of_decide_eq_true hkb))
        rw [hnone, if_pos (decide_eq_true ha)]
      · rw [if_neg (by simpa using ha)]
        exact ih hrest

end

/-! ### Sorted lists

In a sorted list the entries with a given key are one range, with all smaller ones before it and all
greater ones behind.  So insertion, search and removal come down to three parts.
-/

theorem Sorted.filter (h : Sorted lt key l) (p : ε → Bool) : Sorted lt key (l.filter p) :=
  List.Pairwise.filter p h

namespace Sorted

variable [DecidableRel lt] [IsStrictWeakOrder κ lt]

theorem less_first (h : Sorted lt key l) (k : κ) :
    l.Pairwise fun a b => decide (lt (key b) k) = true → decide (lt (key a) k) = true :=
  h.imp fun {a _} hab hb => decide_eq_true
    ((lt_or_lt (key a) (of_decide_eq_true hb)).resolve_left hab)

theorem notGreater_first (h : Sorted lt key l) (k : κ) :
    l.Pairwise fun a b => (!decide (lt k (key b))) = true → (!decide (lt k (key a))) = true :=
  h.imp fun {a b} hab hb => by
    rw [Bool.not_eq_true', decide_eq_false_iff_not] at hb ⊢
    exact fun hka => (lt_or_lt (key b) hka).elim hb hab

theorem before_eq (h : Sorted lt key l) (k : κ) :
    before lt key k l = l.filter fun e => decide (lt (key e) k) :=
  takeWhile_eq_filter (h.less_first k)

theorem notBefore_eq (h : Sorted lt key l) (k : κ) :
    notBefore lt key k l = l.filter fun e => !decide (lt (key e) k) :=
  dropWhile_eq_filter (h.less_first k)

theorem equalRange_eq (h : Sorted lt key l) (k : κ) :
    equalRange lt key k l = l.filter fun e => decide (Same lt k (key e)) := by
  rw [equalRange, h.notBefore_eq, takeWhile_eq_filter ((h.filter _).notGreater_first k),
    List.filter_filter]
  refine List.filter_congr fun e _ => ?_
  rw [Bool.eq_iff_iff, decide_eq_true_iff]
  simp [Same]

theorem after_eq (h : Sorted lt key l) (k : κ) :
    after lt key k l = l.filter fun e => decide (lt k (key e)) := by
  rw [after, h.notBefore_eq, dropWhile_eq_filter ((h.filter _).notGreater_first k),
    List.filter_filter]
  refine List.filter_congr fun e _ => ?_
  rw [Bool.not_not]
  by_cases hke : lt k (key e)
  · rw [decide_eq_true hke, decide_eq_false (lt_asymm hke)]
    rfl
  · rw [decide_eq_false hke]
    rfl

theorem find?_eq_none_iff (h : Sorted lt key l) (k : κ) :
    find? lt key k l = none ↔ ∀ e ∈ l, ¬ Same lt k (key e) := by
  rw [find?, List.head?_eq_none_iff, h.equalRange_eq, List.filter_eq_nil_iff]
  exact forall₂_congr fun e _ => by rw [decide_eq_true_iff]

theorem insert (h : Sorted lt key l) (e : ε) : Sorted lt key (insert lt key e l) := by
  induction l with
  | nil => exact List.pairwise_singleton _ _
  | cons a rest ih =>
      obtain ⟨hhead, hrest⟩ := List.pairwise_cons.mp h
      by_cases hea : lt (key e) (key a)
      · rw [KeyOrder.insert, List.orderedInsert_cons_of_le (fun a b => lt (key a) (key b)) _ hea]
        refine List.pairwise_cons.mpr ⟨fun b hb hbe => ?_, h⟩
        rcases List.mem_cons.mp hb with rfl | hb
        · exact lt_asymm hea hbe
        · exact hhead b hb (IsTrans.trans _ _ _ hbe hea)
      · rw [KeyOrder.insert, List.orderedInsert_of_not_le (fun a b => lt (key a) (key b)) _ hea]
        refine List.pairwise_cons.mpr ⟨fun b hb => ?_, ih hrest⟩
        rcases (List.mem_orderedInsert _).mp hb with rfl | hb
        · exact hea
        · exact hhead b hb

end Sorted

variable [DecidableRel lt]

/-- The three parts, one behind the other. -/
theorem parts (k : κ) (l : List ε) :
    before lt key k l ++ equalRange lt key k l ++ after lt key k l = l := by
  rw [List.append_assoc, equalRange, after, List.takeWhile_append_dropWhile]
  exact List.takeWhile_append_dropWhile

theorem insert_perm (e : ε) (l : List ε) : (insert lt key e l).Perm (e :: l) :=
  List.perm_orderedInsert _ e l

section

variable [IsStrictWeakOrder κ lt]

/-- A key that is not there is put in its place. -/
theorem insertNew_perm (h : Sorted lt key l) (hnew : ∀ a ∈ l, ¬ Same lt (key e) (key a)) :
    (insertNew lt key e l).Perm (e :: l) := by
  rw [insertNew, (h.find?_eq_none_iff (key e)).mpr hnew]
  exact insert_perm e l

theorem Sorted.insertNew (h : Sorted lt key l) (e : ε) : Sorted lt key (insertNew lt key e l) := by
  rw [KeyOrder.insertNew]
  split
  · exact h
  · exact h.insert e

theorem Distinct.insertNew (h : Distinct lt key l) (hsorted : Sorted lt key l) (e : ε) :
    Distinct lt key (insertNew lt key e l) := by
  rw [KeyOrder.insertNew]
  split
  · exact h
  · rename_i hfound
    rw [Bool.not_eq_true, Option.isSome_eq_false_iff, Option.isNone_iff_eq_none] at hfound
    refine Distinct.perm ?_ (insert_perm e l).symm
    exact List.pairwise_cons.mpr ⟨(hsorted.find?_eq_none_iff (key e)).mp hfound, h⟩

/-- What is taken out of the range only is taken out of the whole list. -/
theorem filter_parts (h : Sorted lt key l) {f : ε → Bool}
    (hf : ∀ e, f e = true → Same lt k (key e)) :
    l.filter (fun e => !f e) =
      before lt key k l ++ (equalRange lt key k l).filter (fun e => !f e) ++ after lt key k l := by
  have hkept : ∀ e, ¬ Same lt k (key e) → (!f e) = true := fun e hne => by
    rw [Bool.not_eq_true', Bool.eq_false_iff]
    exact fun hfe => hne (hf e hfe)
  have hbefore : (before lt key k l).filter (fun e => !f e) = before lt key k l :=
    List.filter_eq_self.mpr fun e he => hkept e fun hsame => by
      rw [h.before_eq, List.mem_filter, decide_eq_true_iff] at he
      exact hsame.2 he.2
  have hafter : (after lt key k l).filter (fun e => !f e) = after lt key k l :=
    List.filter_eq_self.mpr fun e he => hkept e fun hsame => by
      rw [h.after_eq, List.mem_filter, decide_eq_true_iff] at he
      exact hsame.1 he.2
  calc l.filter (fun e => !f e)
      = (before lt key k l ++ equalRange lt key k l ++ after lt key k l).filter
          (fun e => !f e) := by
        rw [parts]
    _ = before lt key k l ++ (equalRange lt key k l).filter (fun e => !f e) ++
          after lt key k l := by
        rw [List.filter_append, List.filter_append, hbefore, hafter]

theorem eraseKey_eq (h : Sorted lt key l) (k : κ) :
    eraseKey lt key k l = l.filter fun e => !decide (Same lt k (key e)) := by
  have hrange : (equalRange lt key k l).filter (fun e => !decide (Same lt k (key e))) = [] :=
    List.filter_eq_nil_iff.mpr fun e he => by
      rw [h.equalRange_eq, List.mem_filter] at he
      rw [he.2]
      decide
  rw [filter_parts h fun e he => of_decide_eq_true he, hrange, List.append_nil, eraseKey]

/-- Where `p` holds of one entry with the key at most, that is the one that is taken out. -/
theorem eraseFirst_eq (h : Sorted lt key l) {p : ε → Bool}
    (hone : (l.countP fun e => decide (Same lt k (key e)) && p e) ≤ 1) :
    eraseFirst lt key p k l = l.filter fun e => !(decide (Same lt k (key e)) && p e) := by
  have hrange : (equalRange lt key k l).filter (fun e => !(decide (Same lt k (key e)) && p e)) =
      (equalRange lt key k l).eraseP p := by
    have hcount : (equalRange lt key k l).countP p ≤ 1 := by
      rw [h.equalRange_eq, List.countP_filter]
      refine le_of_eq_of_le (List.countP_congr fun e _ => ?_) hone
      rw [Bool.and_comm]
    rw [eraseP_eq_filter hcount]
    refine List.filter_congr fun e he => ?_
    rw [h.equalRange_eq, List.mem_filter] at he
    rw [he.2, Bool.true_and]
  rw [filter_parts h fun e he => of_decide_eq_true (Bool.and_eq_true_iff.mp he).1, hrange,
    eraseFirst]

end

end KeyOrder
