/-
The entries of the subjects and the conditions of the observers.

`InStep` is what every call keeps: what a subject has for an observer is what the observer has
registered, if it points to that subject, and otherwise nothing.  A call by an observer changes
one subject and the observer itself, and on the subject only the observer's own entries, so one
lemma (`InStep.called`) takes all of them; each call only has to say what it leaves the observer's
own entries as.

The order matters in one place.  `DeRegister` with a condition looks through the range of the
condition and stops at the first entry of the observer's.  That there is no other one is what
`find` in `Register` is for.
-/
import ServClient.Observer
import ServClient.Lib.Runs

namespace ServClient

variable {X : Type} {XComp : X → X → Prop}

/-! ### One subject -/

namespace ISubject2

/-- The conditions a subject has for `o`. -/
def conditionsOf (sub : ISubject2 X) (o : Nat) : List X :=
  (sub.list.filter fun e => decide (e.2 = o)).map Prod.fst

/-- The entries themselves. -/
theorem entries_eq (sub : ISubject2 X) (o : Nat) :
    sub.list.filter (fun e => decide (e.2 = o)) = (sub.conditionsOf o).map fun c => (c, o) := by
  rw [conditionsOf, List.map_map]
  calc sub.list.filter (fun e => decide (e.2 = o))
      = (sub.list.filter fun e => decide (e.2 = o)).map id := (List.map_id _).symm
    _ = (sub.list.filter fun e => decide (e.2 = o)).map ((fun c => (c, o)) ∘ Prod.fst) := by
        refine List.map_congr_left fun e he => ?_
        have ho : e.2 = o := of_decide_eq_true (List.mem_filter.mp he).2
        rw [← ho]
        rfl

theorem mem_conditionsOf {sub : ISubject2 X} {e : X × Nat} (he : e ∈ sub.list) :
    e.1 ∈ sub.conditionsOf e.2 :=
  List.mem_map_of_mem (List.mem_filter.mpr ⟨he, decide_eq_true rfl⟩)

/-- After a call by `o` that leaves `l` of its own conditions. -/
structure CalledBy (XComp : X → X → Prop) (o : Nat) (l : List X) (sub sub' : ISubject2 X) :
    Prop where
  sorted : KeyOrder.Sorted XComp Prod.fst sub'.list
  own : (sub'.conditionsOf o).Perm l
  others : ∀ o', o' ≠ o → (sub'.conditionsOf o').Perm (sub.conditionsOf o')

/-- Entries taken out by a filter that keeps those of the others. -/
theorem CalledBy.of_filter {o : Nat} {sub : ISubject2 X}
    (h : KeyOrder.Sorted XComp Prod.fst sub.list) (gone : X × Nat → Bool)
    (hgone : ∀ e, gone e = true → e.2 = o) :
    CalledBy XComp o ((sub.conditionsOf o).filter fun c => !gone (c, o)) sub
      { list := sub.list.filter fun e => !gone e } where
  sorted := h.filter _
  own := by
    refine List.Perm.of_eq ?_
    rw [conditionsOf, conditionsOf, List.filter_map, List.filter_filter, List.filter_filter]
    congr 1
    refine List.filter_congr fun e _ => ?_
    by_cases ho : e.2 = o
    · rw [decide_eq_true ho, ← ho, Bool.true_and, Bool.and_true]
      rfl
    · rw [decide_eq_false ho, Bool.false_and, Bool.and_false]
  others := by
    intro o' hne
    refine List.Perm.of_eq ?_
    rw [conditionsOf, conditionsOf, List.filter_filter]
    congr 1
    refine List.filter_congr fun e _ => ?_
    by_cases ho : e.2 = o'
    · have hkept : gone e = false := Bool.eq_false_iff.mpr fun hg =>
        hne (ho.symm.trans (hgone e hg))
      rw [hkept, Bool.not_false, Bool.and_true]
    · rw [decide_eq_false ho, Bool.false_and]

theorem deRegister_calledBy {sub : ISubject2 X} (h : KeyOrder.Sorted XComp Prod.fst sub.list)
    (o : Nat) : CalledBy XComp o [] sub (sub.deRegister (some o)) := by
  have hcalled := CalledBy.of_filter h (fun e => decide (e.2 = o)) fun e => of_decide_eq_true
  have hnone : ((sub.conditionsOf o).filter fun c => !decide ((c, o).2 = o)) = [] :=
    List.filter_eq_nil_iff.mpr fun c _ => by simp
  rwa [hnone] at hcalled

section

variable [DecidableRel XComp] [IsStrictWeakOrder X XComp] {sub : ISubject2 X}

theorem register_calledBy (h : KeyOrder.Sorted XComp Prod.fst sub.list) (o : Nat) (c : X) :
    CalledBy XComp o (c :: sub.conditionsOf o) sub (sub.register XComp (some o) c) := by
  have hperm : (sub.register XComp (some o) c).list.Perm ((c, o) :: sub.list) :=
    KeyOrder.insert_perm (c, o) sub.list
  refine ⟨h.insert (c, o), ?_, fun o' hne => ?_⟩
  · have hown := (hperm.filter fun e => decide (e.2 = o)).map Prod.fst
    rwa [List.filter_cons_of_pos (a := (c, o)) (by simp), List.map_cons] at hown
  · have hother := (hperm.filter fun e => decide (e.2 = o')).map Prod.fst
    rwa [List.filter_cons_of_neg (a := (c, o)) (by simpa using hne.symm)] at hother

/-- The first entry that is found is the only one. -/
theorem deRegisterCondition_calledBy (h : KeyOrder.Sorted XComp Prod.fst sub.list) {o : Nat}
    (hset : KeyOrder.Distinct XComp id (sub.conditionsOf o)) (c : X) :
    CalledBy XComp o ((sub.conditionsOf o).filter fun d => !decide (KeyOrder.Same XComp c d)) sub
      (sub.deRegisterCondition XComp (some o) c) := by
  have hone : (sub.list.countP fun e =>
      decide (KeyOrder.Same XComp c e.1) && decide (o = e.2)) ≤ 1 := by
    refine le_of_eq_of_le ?_ (hset.countP_le_one c)
    rw [conditionsOf, List.countP_map, List.countP_filter]
    refine List.countP_congr fun e _ => ?_
    rw [Bool.and_eq_true_iff, Bool.and_eq_true_iff, decide_eq_true_iff, decide_eq_true_iff]
    exact and_congr decide_eq_true_iff.symm (eq_comm.trans decide_eq_true_iff.symm)
  have hcalled := CalledBy.of_filter h
    (fun e => decide (KeyOrder.Same XComp c e.1) && decide (o = e.2)) fun e he =>
      (of_decide_eq_true (Bool.and_eq_true_iff.mp he).2).symm
  simp only [decide_true, Bool.and_true] at hcalled
  rw [deRegisterCondition, KeyOrder.eraseFirst_eq h hone]
  exact hcalled

end

end ISubject2

/-! ### Subjects and observers together

A registration is recorded twice, with the subject and with the observer.  A call by one observer
changes its own entries on both sides and leaves those of the others.
-/

namespace Observers

/-- What an observer, if there is one, has registered with the subject at `s`. -/
def registeredWith (ob : Option (IObserver2 X)) (s : Nat) : List X :=
  match ob with
  | none => []
  | some ob => if ob.subject = some s then ob.registeredList else []

@[simp] theorem registeredWith_none (s : Nat) :
    registeredWith (none : Option (IObserver2 X)) s = [] := rfl

theorem registeredWith_nil (p : Option Nat) (s : Nat) :
    registeredWith (some (⟨p, []⟩ : IObserver2 X)) s = [] := ite_self _

theorem registeredWith_self {ob : IObserver2 X} {s : Nat} (h : ob.subject = some s) :
    registeredWith (some ob) s = ob.registeredList := if_pos h

theorem registeredWith_of_ne {ob : IObserver2 X} {s : Nat} (h : ob.subject ≠ some s) :
    registeredWith (some ob) s = [] := if_neg h

/-- What a set is, and where the subject pointer leads. -/
structure IsSound (XComp : X → X → Prop) (w : Observers X) (ob : IObserver2 X) : Prop where
  sorted : KeyOrder.Sorted XComp id ob.registeredList
  distinct : KeyOrder.Distinct XComp id ob.registeredList
  points : w.Points ob.subject

/-- The lists of the subjects and of the observers say the same. -/
structure InStep (XComp : X → X → Prop) (w : Observers X) : Prop where
  sorted : ∀ s sub, w.subjects s = some sub → KeyOrder.Sorted XComp Prod.fst sub.list
  sound : ∀ o ob, w.observers o = some ob → IsSound XComp w ob
  mirror : ∀ s sub o, w.subjects s = some sub →
    (sub.conditionsOf o).Perm (registeredWith (w.observers o) s)

variable {w : Observers X} {o : Nat} {ob : IObserver2 X}

theorem inStep_empty : InStep XComp (empty : Observers X) := by
  refine ⟨?_, ?_, ?_⟩ <;> intros <;> contradiction

@[simp] theorem putObserver_subjects (x : Option (IObserver2 X)) :
    (w.putObserver o x).subjects = w.subjects := rfl

@[simp] theorem putObserver_self (x : Option (IObserver2 X)) :
    (w.putObserver o x).observers o = x := Function.update_self ..

theorem putObserver_of_ne {q : Nat} (x : Option (IObserver2 X)) (h : q ≠ o) :
    (w.putObserver o x).observers q = w.observers q := Function.update_of_ne h ..

@[simp] theorem putSubject_observers (s : Nat) (x : Option (ISubject2 X)) :
    (w.putSubject s x).observers = w.observers := rfl

@[simp] theorem putSubject_self (s : Nat) (x : Option (ISubject2 X)) :
    (w.putSubject s x).subjects s = x := Function.update_self ..

theorem putSubject_of_ne {s t : Nat} (x : Option (ISubject2 X)) (h : t ≠ s) :
    (w.putSubject s x).subjects t = w.subjects t := Function.update_of_ne h ..

theorem IsSound.of_subjects {w' : Observers X} (h : IsSound XComp w ob)
    (hkeep : ∀ s, (w.subjects s).isSome = true → (w'.subjects s).isSome = true) :
    IsSound XComp w' ob :=
  ⟨h.sorted, h.distinct, fun s hs => hkeep s (h.points s hs)⟩

/-- What a call by `o` may do to the rest. -/
theorem InStep.changed (h : InStep XComp w) {w' : Observers X}
    (hothers : ∀ q, q ≠ o → w'.observers q = w.observers q)
    (hkeep : ∀ s, (w.subjects s).isSome = true → (w'.subjects s).isSome = true)
    (hsound : ∀ x, w'.observers o = some x → IsSound XComp w x)
    (hcalled : ∀ s sub', w'.subjects s = some sub' → ∃ sub, w.subjects s = some sub ∧
      ISubject2.CalledBy XComp o (registeredWith (w'.observers o) s) sub sub') :
    InStep XComp w' := by
  refine ⟨fun s sub' hs => ?_, fun q x hx => ?_, fun s sub' q hs => ?_⟩
  · obtain ⟨sub, -, hsub⟩ := hcalled s sub' hs
    exact hsub.sorted
  · rcases eq_or_ne q o with rfl | hne
    · exact (hsound x hx).of_subjects hkeep
    · rw [hothers q hne] at hx
      exact (h.sound q x hx).of_subjects hkeep
  · obtain ⟨sub, hold, hsub⟩ := hcalled s sub' hs
    rcases eq_or_ne q o with rfl | hne
    · exact hsub.own
    · rw [hothers q hne]
      exact (hsub.others q hne).trans (h.mirror s sub q hold)

/--
A call by `o`, which calls the subject at `p`, if any, and becomes `ob'`.  It leaves `o` there what
`ob'` has registered, and changes nothing of what `o` has registered with another.
-/
theorem InStep.called (h : InStep XComp w) {p : Option Nat} (hp : w.Points p)
    (call : ISubject2 X → ISubject2 X) (ob' : Option (IObserver2 X))
    (hsound : ∀ x, ob' = some x → IsSound XComp w x)
    (hcall : ∀ s sub, p = some s → w.subjects s = some sub →
      ISubject2.CalledBy XComp o (registeredWith ob' s) sub (call sub))
    (helse : ∀ s, p ≠ some s → registeredWith ob' s = registeredWith (w.observers o) s) :
    ∃ w', w.onSubject p call = some w' ∧ InStep XComp (w'.putObserver o ob') := by
  have hrefl : ∀ s sub, p ≠ some s → w.subjects s = some sub →
      ISubject2.CalledBy XComp o (registeredWith ob' s) sub sub := fun s sub hne hs => by
    rw [helse s hne]
    exact ⟨h.sorted s sub hs, h.mirror s sub o hs, fun _ _ => List.Perm.refl _⟩
  cases p with
  | none =>
      refine ⟨w, rfl, h.changed (o := o) (fun q hne => putObserver_of_ne ob' hne) (fun s hs => hs)
        (fun x hx => hsound x (by simpa using hx)) fun s sub hs => ⟨sub, hs, ?_⟩⟩
      rw [putObserver_self]
      exact hrefl s sub (Option.some_ne_none s).symm hs
  | some t =>
      obtain ⟨sub, hsub⟩ := Option.isSome_iff_exists.mp (hp t rfl)
      refine ⟨w.putSubject t (some (call sub)), by rw [onSubject, hsub]; rfl,
        h.changed (o := o) (fun q hne => putObserver_of_ne ob' hne) (fun s hs => ?_)
        (fun x hx => hsound x (by simpa using hx)) fun s sub' hs => ?_⟩
      · rw [putObserver_subjects]
        rcases eq_or_ne s t with rfl | hne
        · rw [putSubject_self]
          rfl
        · rwa [putSubject_of_ne _ hne]
      · rw [putObserver_subjects] at hs
        rw [putObserver_self]
        rcases eq_or_ne s t with rfl | hne
        · rw [putSubject_self] at hs
          cases hs
          exact ⟨sub, hsub, hcall s sub rfl hsub⟩
        · rw [putSubject_of_ne _ hne] at hs
          exact ⟨sub', hs, hrefl s sub' (fun heq => hne (Option.some.inj heq).symm) hs⟩

/-! ### One call -/

/-- Letting go of a subject, as `SetSubject`, `Deregister` and the destructor do first. -/
theorem InStep.detached (h : InStep XComp w) (ho : w.observers o = some ob)
    (ob' : Option (IObserver2 X)) (hsound : ∀ x, ob' = some x → IsSound XComp w x)
    (hnone : ∀ s, registeredWith ob' s = []) :
    ∃ w', w.onSubject ob.subject (fun sub => sub.deRegister (some o)) = some w' ∧
      InStep XComp (w'.putObserver o ob') := by
  refine h.called (h.sound o ob ho).points _ ob' hsound (fun s sub _ hsub => ?_) fun s hne => ?_
  · rw [hnone]
    exact ISubject2.deRegister_calledBy (h.sorted s sub hsub) o
  · rw [hnone, ho, registeredWith_of_ne hne]

theorem isSound_nil {p : Option Nat} (hp : w.Points p) :
    IsSound XComp w (⟨p, []⟩ : IObserver2 X) :=
  ⟨List.Pairwise.nil, List.Pairwise.nil, hp⟩

theorem InStep.setSubject (h : InStep XComp w) (ho : w.observers o = some ob) {p : Option Nat}
    (hp : w.Points p) : ∃ w', setSubject w o p = some w' ∧ InStep XComp w' := by
  obtain ⟨w', hw', hin⟩ := h.detached ho (some ⟨p, []⟩)
    (fun x hx => by cases hx; exact isSound_nil hp) (registeredWith_nil p)
  exact ⟨_, by simp [Observers.setSubject, ho, hw'], hin⟩

theorem InStep.deregister (h : InStep XComp w) (ho : w.observers o = some ob) :
    ∃ w', deregister w o = some w' ∧ InStep XComp w' := by
  obtain ⟨w', hw', hin⟩ := h.detached ho (some ⟨none, []⟩)
    (fun x hx => by cases hx; exact isSound_nil (by simp [Points])) (registeredWith_nil none)
  exact ⟨_, by simp [Observers.deregister, ho, hw'], hin⟩

theorem InStep.destroy (h : InStep XComp w) (ho : w.observers o = some ob) :
    ∃ w', destroy w o = some w' ∧ InStep XComp w' := by
  obtain ⟨w', hw', hin⟩ := h.detached ho none (fun x hx => by cases hx)
    (fun s => registeredWith_none s)
  exact ⟨_, by simp [Observers.destroy, ho, hw'], hin⟩

section

variable [DecidableRel XComp] [IsStrictWeakOrder X XComp]

theorem InStep.register (h : InStep XComp w) (ho : (w.observers o).isSome = true) (c : X) :
    ∃ w', register XComp w o c = some w' ∧ InStep XComp w' ∧ (w'.observers o).isSome = true := by
  obtain ⟨ob, ho⟩ := Option.isSome_iff_exists.mp ho
  have hob := h.sound o ob ho
  cases hp : ob.subject with
  | none => exact ⟨w, by simp [Observers.register, ho, hp], h, by rw [ho]; rfl⟩
  | some s =>
      cases hfind : KeyOrder.find? XComp id c ob.registeredList with
      | some d => exact ⟨w, by simp [Observers.register, ho, hp, hfind], h, by rw [ho]; rfl⟩
      | none =>
          have hnew := (hob.sorted.find?_eq_none_iff c).mp hfind
          have hperm := KeyOrder.insertNew_perm (e := c) hob.sorted hnew
          obtain ⟨w', hw', hin⟩ := h.called (o := o) (hp ▸ hob.points)
            (fun sub => sub.register XComp (some o) c)
            (some { ob with
              registeredList := KeyOrder.insertNew XComp id c ob.registeredList })
            (fun x hx => by
              cases hx
              exact ⟨hob.sorted.insertNew c, hob.distinct.insertNew hob.sorted c, hob.points⟩)
            (fun t sub ht hsub => by
              cases ht
              have hcalled := ISubject2.register_calledBy (h.sorted s sub hsub) o c
              have hmirror := h.mirror s sub o hsub
              rw [ho, registeredWith_self hp] at hmirror
              rw [registeredWith_self (by exact hp)]
              exact ⟨hcalled.sorted, hcalled.own.trans ((hmirror.cons c).trans hperm.symm),
                hcalled.others⟩)
            (fun t hne => by
              rw [ho, registeredWith_of_ne (hp ▸ hne), registeredWith_of_ne (by exact hp ▸ hne)])
          exact ⟨_, by simp [Observers.register, ho, hp, hfind, hw'], hin, by simp⟩

theorem InStep.deRegister (h : InStep XComp w) (ho : w.observers o = some ob) (c : X) :
    ∃ w', deRegister XComp w o c = some w' ∧ InStep XComp w' := by
  have hob := h.sound o ob ho
  have herase := KeyOrder.eraseKey_eq hob.sorted c
  obtain ⟨w', hw', hin⟩ := h.called (o := o) hob.points
    (fun sub => sub.deRegisterCondition XComp (some o) c)
    (some { ob with registeredList := KeyOrder.eraseKey XComp id c ob.registeredList })
    (fun x hx => by
      cases hx
      refine ⟨?_, ?_, hob.points⟩
      · rw [herase]
        exact hob.sorted.filter _
      · rw [herase]
        exact List.Pairwise.filter _ hob.distinct)
    (fun s sub hs hsub => by
      have hmirror := h.mirror s sub o hsub
      rw [ho, registeredWith_self hs] at hmirror
      have hcalled := ISubject2.deRegisterCondition_calledBy (h.sorted s sub hsub)
        (hob.distinct.perm hmirror.symm) c
      rw [registeredWith_self (by exact hs), herase]
      exact ⟨hcalled.sorted, hcalled.own.trans (hmirror.filter _), hcalled.others⟩)
    (fun s hne => by
      rw [ho, registeredWith_of_ne hne, registeredWith_of_ne (by exact hne)])
  exact ⟨_, by simp [Observers.deRegister, ho, hw'], hin⟩

/-- The loop of a constructor, one condition after the other. -/
theorem InStep.registerAll (conditions : List X) :
    ∀ {w : Observers X}, InStep XComp w → (w.observers o).isSome = true →
      ∃ w', conditions.foldlM (fun w c => Observers.register XComp w o c) w = some w' ∧
        InStep XComp w' := by
  induction conditions with
  | nil => exact fun {w} h _ => ⟨w, rfl, h⟩
  | cons c rest ih =>
      intro w h ho
      obtain ⟨w₁, hw₁, hin₁, ho₁⟩ := h.register ho c
      obtain ⟨w', hw', hin'⟩ := ih hin₁ ho₁
      exact ⟨w', by rw [List.foldlM_cons, hw₁]; exact hw', hin'⟩

theorem InStep.construct (h : InStep XComp w) (ho : w.observers o = none) {p : Option Nat}
    (hp : w.Points p) (conditions : List X) :
    ∃ w', construct XComp w o p conditions = some w' ∧ InStep XComp w' := by
  obtain ⟨w₀, hw₀, hin⟩ := h.called (o := o) (p := none) (by simp [Points]) id
    (some ⟨p, []⟩) (fun x hx => by cases hx; exact isSound_nil hp)
    (fun s sub hs => by cases hs) (fun s _ => by rw [registeredWith_nil, ho, registeredWith_none])
  cases hw₀
  rw [Observers.construct]
  split
  · exact hin.registerAll conditions (by simp)
  · exact ⟨_, rfl, hin⟩

end

theorem InStep.newSubject (h : InStep XComp w) {s : Nat} (hs : w.subjects s = none) :
    InStep XComp (w.putSubject s (some {})) := by
  refine ⟨fun t sub ht => ?_, fun o ob ho => (h.sound o ob ho).of_subjects fun t ht => ?_,
    fun t sub o ht => ?_⟩
  · rcases eq_or_ne t s with rfl | hne
    · rw [putSubject_self] at ht
      cases ht
      exact List.Pairwise.nil
    · exact h.sorted t sub ((putSubject_of_ne _ hne).symm.trans ht)
  · rcases eq_or_ne t s with rfl | hne
    · rw [hs] at ht
      cases ht
    · rwa [putSubject_of_ne _ hne]
  · rcases eq_or_ne t s with rfl | hne
    · rw [putSubject_self] at ht
      cases ht
      refine List.Perm.of_eq (Eq.symm ?_)
      rw [putSubject_observers]
      cases ho : w.observers o with
      | none => rfl
      | some ob =>
          refine registeredWith_of_ne fun hp => ?_
          have hthere := (h.sound o ob ho).points t hp
          rw [hs] at hthere
          cases hthere
    · exact h.mirror t sub o ((putSubject_of_ne _ hne).symm.trans ht)

theorem InStep.deleteSubject (h : InStep XComp w) {s : Nat}
    (hs : ∀ o ob, w.observers o = some ob → ob.subject ≠ some s) :
    InStep XComp (w.putSubject s none) := by
  have hold : ∀ t sub, (w.putSubject s none).subjects t = some sub → w.subjects t = some sub := by
    intro t sub ht
    rcases eq_or_ne t s with rfl | hne
    · rw [putSubject_self] at ht
      cases ht
    · exact (putSubject_of_ne _ hne).symm.trans ht
  refine ⟨fun t sub ht => h.sorted t sub (hold t sub ht), fun o ob ho => ?_,
    fun t sub o ht => h.mirror t sub o (hold t sub ht)⟩
  have hob := h.sound o ob ho
  refine ⟨hob.sorted, hob.distinct, fun t ht => ?_⟩
  have hne : t ≠ s := fun heq => by
    rw [heq] at ht
    exact hs o ob ho ht
  rw [putSubject_of_ne _ hne]
  exact hob.points t ht

/-! ### Every run -/

section

variable [DecidableRel XComp] [IsStrictWeakOrder X XComp]

theorem InStep.next (h : InStep XComp w) {l : ObserverStep X} (hl : Allowed w l) :
    ∃ w', next XComp w l = some w' ∧ InStep XComp w' := by
  cases l with
  | newSubject s => exact ⟨_, rfl, h.newSubject hl⟩
  | deleteSubject s => exact ⟨_, rfl, h.deleteSubject hl.2⟩
  | construct o subject conditions => exact h.construct hl.1 hl.2 conditions
  | register o condition =>
      obtain ⟨w', hw', hin, -⟩ := h.register hl condition
      exact ⟨w', hw', hin⟩
  | deRegister o condition =>
      obtain ⟨ob, ho⟩ := Option.isSome_iff_exists.mp hl
      exact h.deRegister ho condition
  | deregister o =>
      obtain ⟨ob, ho⟩ := Option.isSome_iff_exists.mp hl
      exact h.deregister ho
  | setSubject o subject =>
      obtain ⟨ob, ho⟩ := Option.isSome_iff_exists.mp hl.1
      exact h.setSubject ho hl.2
  | destroy o =>
      obtain ⟨ob, ho⟩ := Option.isSome_iff_exists.mp hl
      exact h.destroy ho

end

/-- The registries agree. -/
structure Mirrored (XComp : X → X → Prop) (w : Observers X) : Prop where
  /-- An observer that points to a subject points to one that is there, which has for it an entry
  for each condition it has registered, and no other. -/
  current : ∀ o ob s, w.observers o = some ob → ob.subject = some s →
    ∃ sub, w.subjects s = some sub ∧
      (sub.list.filter fun e => decide (e.2 = o)).Perm (ob.registeredList.map fun c => (c, o))
  /-- No condition is registered twice. -/
  once : ∀ o ob, w.observers o = some ob → KeyOrder.Distinct XComp id ob.registeredList
  /-- Entries are for observers that are there, and stand with the subject they point to. -/
  elsewhere : ∀ s sub e, w.subjects s = some sub → e ∈ sub.list →
    ∃ ob, w.observers e.2 = some ob ∧ ob.subject = some s

theorem InStep.mirrored (h : InStep XComp w) : Mirrored XComp w where
  current := fun o ob s ho hs => by
    obtain ⟨sub, hsub⟩ := Option.isSome_iff_exists.mp ((h.sound o ob ho).points s hs)
    have hmirror := h.mirror s sub o hsub
    rw [ho, registeredWith_self hs] at hmirror
    exact ⟨sub, hsub, by rw [sub.entries_eq]; exact hmirror.map _⟩
  once := fun o ob ho => (h.sound o ob ho).distinct
  elsewhere := fun s sub e hs he => by
    have hmem := (h.mirror s sub e.2 hs).mem_iff.mp (ISubject2.mem_conditionsOf he)
    cases ho : w.observers e.2 with
    | none => simp [ho] at hmem
    | some ob =>
        refine ⟨ob, rfl, ?_⟩
        by_contra hne
        rw [ho, registeredWith_of_ne hne] at hmem
        cases hmem

variable [DecidableRel XComp]

/--
Whatever is constructed, registered, attached and destroyed, in whatever order: no call goes to a
subject that is gone, and after every run the registries agree.
-/
theorem registries_agree [IsStrictWeakOrder X XComp] {ls : List (ObserverStep X)}
    (hallowed : Runs.Along (next XComp) Allowed empty ls) :
    ∃ w, Runs.exec (next XComp) empty ls = some w ∧ Mirrored XComp w := by
  obtain ⟨w, hrun, hin⟩ := Runs.exec_of_along (fun w l h hl => InStep.next h hl) inStep_empty
    hallowed
  exact ⟨w, hrun, hin.mirrored⟩

/-- Conditions that are the same by their tens, and an observer that goes from one subject to
another. -/
theorem registries_agree_tens :
    ∃ w, Runs.exec (next fun a b : Nat => a / 10 < b / 10) empty [.newSubject 0, .newSubject 1,
        .construct 7 (some 0) [31, 5, 32], .construct 8 (some 0) [36], .register 7 38,
        .deRegister 7 39, .setSubject 7 (some 1), .register 7 4, .destroy 8, .deleteSubject 0] =
          some w ∧ Mirrored (fun a b : Nat => a / 10 < b / 10) w := by
  have : IsStrictWeakOrder Nat fun a b => a / 10 < b / 10 :=
    { irrefl := fun a => Nat.lt_irrefl _
      trans := fun a b c => Nat.lt_trans
      incomp_trans := fun a b c => by omega }
  refine registries_agree ?_
  refine ⟨rfl, ?_⟩
  rintro _ ⟨⟩
  refine ⟨rfl, ?_⟩
  rintro _ ⟨⟩
  refine ⟨⟨rfl, by rintro _ ⟨⟩; rfl⟩, ?_⟩
  rintro _ ⟨⟩
  refine ⟨⟨rfl, by rintro _ ⟨⟩; rfl⟩, ?_⟩
  rintro _ ⟨⟩
  refine ⟨rfl, ?_⟩
  rintro _ ⟨⟩
  refine ⟨rfl, ?_⟩
  rintro _ ⟨⟩
  refine ⟨⟨rfl, by rintro _ ⟨⟩; rfl⟩, ?_⟩
  rintro _ ⟨⟩
  refine ⟨rfl, ?_⟩
  rintro _ ⟨⟩
  refine ⟨rfl, ?_⟩
  rintro _ ⟨⟩
  refine ⟨⟨rfl, fun o ob ho => ?_⟩, fun _ _ => trivial⟩
  by_cases h₈ : o = 8
  · subst h₈
    cases ho
  by_cases h₇ : o = 7
  · subst h₇
    cases ho
    decide
  · simp only [putObserver_of_ne _ h₇, putObserver_of_ne _ h₈, putSubject_observers] at ho
    cases ho

end Observers

end ServClient
