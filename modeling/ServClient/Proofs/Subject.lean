/-
Who is told by a `Notify`, whatever the observers do when they are told.

A call of `Notify` is a sweep, and what an observer does in between only changes the set it goes
over.  So whoever was registered when the call began and has stayed is told once, and the order is
that of the addresses, also where calls are made within calls.

What can fail is the iterator: an observer that is erased while it is being told, by its own doing
or another's, takes the iterator with it.  That, a pointer to an observer that is gone, and nothing
else (`sound_iff`).
-/
import ServClient.Subject
import ServClient.Lib.Runs

namespace ServClient

open Runs Sweeps

namespace Subject

variable {s s' : Subject} {l : SubjectStep} {o : Nat}

/-! ### The set -/

/-- The set is in order, and has nothing twice. -/
structure Ordered (l : List Nat) : Prop where
  sorted : KeyOrder.Sorted (· < ·) id l
  distinct : KeyOrder.Distinct (· < ·) id l

theorem same_iff {a b : Nat} : KeyOrder.Same (· < ·) a b ↔ a = b := by
  unfold KeyOrder.Same
  omega

theorem find?_isSome_iff {l : List Nat} (h : Ordered l) :
    (KeyOrder.find? (· < ·) id o l).isSome = true ↔ o ∈ l := by
  have := strictWeakOrder (α := Nat)
  rw [← not_iff_not, Bool.not_eq_true, Option.isSome_eq_false_iff, Option.isNone_iff_eq_none,
    h.sorted.find?_eq_none_iff]
  simp only [same_iff, id]
  exact ⟨fun hall ho => hall o ho rfl, fun ho b hb hob => ho (hob ▸ hb)⟩

theorem Ordered.eraseKey_eq {l : List Nat} (h : Ordered l) :
    KeyOrder.eraseKey (· < ·) id o l = l.filter fun b => decide (b ≠ o) := by
  have := strictWeakOrder (α := Nat)
  rw [KeyOrder.eraseKey_eq h.sorted]
  refine List.filter_congr fun b _ => ?_
  simp only [same_iff, id, ← decide_not, ne_eq, eq_comm]

theorem Ordered.filter {l : List Nat} (h : Ordered l) (p : Nat → Bool) : Ordered (l.filter p) :=
  ⟨h.sorted.filter p, h.distinct.filter p⟩

theorem Ordered.insertNew {l : List Nat} (h : Ordered l) (o : Nat) :
    Ordered (KeyOrder.insertNew (· < ·) id o l) :=
  have := strictWeakOrder (α := Nat)
  ⟨h.sorted.insertNew o, h.distinct.insertNew h.sorted o⟩

theorem mem_insertNew {l : List Nat} (h : Ordered l) {b : Nat} :
    b ∈ KeyOrder.insertNew (· < ·) id o l ↔ b = o ∨ b ∈ l := by
  unfold KeyOrder.insertNew
  split
  · rename_i hfind
    have ho := (find?_isSome_iff h).mp hfind
    exact ⟨Or.inr, fun hb => hb.elim (fun hbo => hbo ▸ ho) id⟩
  · rw [(KeyOrder.insert_perm o l).mem_iff, List.mem_cons]

/-- What `DeRegister` does, by whether there is an entry. -/
theorem deRegister_eq (h : Ordered s.obsList) (o : Nat) :
    s.deRegister o =
      if o ∈ s.obsList then
        { s with
          obsList := s.obsList.filter fun b => decide (b ≠ o)
          calls := s.calls.map (NotifyCall.erase o) }
      else s := by
  unfold deRegister
  rw [h.eraseKey_eq]
  exact if_congr (find?_isSome_iff h) rfl rfl

/-! ### One call of `Notify`

A call of `Notify` stands at an entry of a set that others change.  The set is in order, so what it
has told and what is still to come are the parts before and behind that entry.
-/

/-- What a call in progress has done, where `l` is registered. -/
structure Going (l : List Nat) (c : NotifyCall) : Prop where
  swept : Swept c.itr c.told c.held
  held : ∀ b ∈ c.held, b ∈ l
  entry : c.erased = false → ∀ o, c.itr = some o → o ∈ l
  inside : c.inside = true → c.itr.isSome = true

theorem Going.insert {l l' : List Nat} {c : NotifyCall} (h : Going l c)
    (hmore : ∀ b ∈ l, b ∈ l') : Going l' c :=
  ⟨h.swept, fun b hb => hmore b (h.held b hb), fun he o ho => hmore o (h.entry he o ho), h.inside⟩

theorem Going.erase {l : List Nat} {c : NotifyCall} (h : Going l c) (o : Nat) :
    Going (l.filter fun b => decide (b ≠ o)) (c.erase o) where
  swept := h.swept.of_held fun b hb => (List.mem_filter.mp hb).1
  held := fun b hb => by
    obtain ⟨hheld, hne⟩ := List.mem_filter.mp hb
    exact List.mem_filter.mpr ⟨h.held b hheld, hne⟩
  entry := by
    intro he b hb
    have herased : (c.erased || decide (c.itr = some o)) = false := he
    obtain ⟨he, hne⟩ := Bool.or_eq_false_iff.mp herased
    refine List.mem_filter.mpr ⟨h.entry he b hb, decide_eq_true fun hbo => ?_⟩
    exact of_decide_eq_false hne (hbo ▸ hb)
  inside := h.inside

theorem nextPlace_mem {l : List Nat} (hl : Ordered l) {a b : Nat} (h : nextPlace a l = some b) :
    b ∈ l := by
  have hmem := List.mem_of_mem_head? h
  rw [Sweeps.after_eq hl.sorted] at hmem
  exact (List.mem_filter.mp hmem).1

/-- The observer has returned. -/
theorem Going.goOn {l : List Nat} {c : NotifyCall} (h : Going l c) (hl : Ordered l)
    (hc : c.itr = some o) :
    Going l { c with itr := nextPlace o l, inside := false, told := c.told ++ [o] } where
  swept := by
    have hswept := h.swept
    rw [hc] at hswept
    exact hswept.goOn hl.sorted h.held
  held := h.held
  entry := fun _ _ hb => nextPlace_mem hl hb
  inside := fun hin => by cases hin

/-! ### What every step keeps -/

/-- What every step keeps of the set and of the calls of `Notify`, in progress or over. -/
structure Inv (s : Subject) : Prop where
  ordered : Ordered s.obsList
  calls : ∀ c ∈ s.calls, Going s.obsList c
  finished : ∀ c ∈ s.finished, Swept none c.told c.held

theorem inv_new : Inv new where
  ordered := ⟨List.Pairwise.nil, List.Pairwise.nil⟩
  calls := fun c hc => by cases hc
  finished := fun c hc => by cases hc

theorem Inv.observers (h : Inv s) (observers : List IObserver) :
    Inv { s with observers := observers } := ⟨h.ordered, h.calls, h.finished⟩

theorem Inv.registerObserver (h : Inv s) (o : Nat) : Inv (s.registerObserver o) where
  ordered := h.ordered.insertNew o
  calls := fun c hc => (h.calls c hc).insert fun _ hb => (mem_insertNew h.ordered).mpr (Or.inr hb)
  finished := h.finished

theorem Inv.deRegister (h : Inv s) (o : Nat) : Inv (s.deRegister o) := by
  rw [deRegister_eq h.ordered]
  split
  · refine ⟨h.ordered.filter _, fun c hc => ?_, h.finished⟩
    obtain ⟨d, hd, rfl⟩ := List.mem_map.mp hc
    exact (h.calls d hd).erase o
  · exact h

theorem Inv.notify (h : Inv s) : Inv s.notify where
  ordered := h.ordered
  calls := by
    intro c hc
    rcases List.mem_cons.mp hc with rfl | hc
    · refine ⟨Swept.start h.ordered.sorted, fun _ hb => hb, fun _ b hb => ?_, nofun⟩
      exact List.mem_of_mem_head? hb
    · exact h.calls c hc
  finished := h.finished

/-- What the last call does. -/
inductive Goes (s : Subject) : SubjectStep → Subject → Prop
  | visit {c rest a} (hs : s.calls = c :: rest) (hc : c.itr = some a) (hin : c.inside = false)
      (halive : s.alive a = true) :
      Goes s .visit { s with calls := { c with inside := true } :: rest }
  | returned {c rest a} (hs : s.calls = c :: rest) (hc : c.itr = some a) (hin : c.inside = true)
      (he : c.erased = false) :
      Goes s .returned { s with calls := { c with
        itr := nextPlace a s.obsList
        inside := false
        told := c.told ++ [a] } :: rest }
  | finish {c rest} (hs : s.calls = c :: rest) (hc : c.itr = none) (hin : c.inside = false) :
      Goes s .finish { s with calls := rest, finished := s.finished ++ [c] }

/-- What a step does. -/
inductive Moves (s : Subject) : SubjectStep → Subject → Prop
  | construct {a subject} (hfree : s.free = true) (hnew : s.alive a = false) :
      Moves s (.construct a subject) (s.construct a subject)
  | destroy {b} (hfree : s.free = true)
      (hb : s.observers.find? (fun b' => decide (b'.address = b.address)) = some b) :
      Moves s (.destroy b.address) (s.destroy b)
  | registerObserver {a} (hfree : s.free = true) :
      Moves s (.registerObserver a) (s.registerObserver a)
  | deRegister {a} (hfree : s.free = true) : Moves s (.deRegister a) (s.deRegister a)
  | notify (hfree : s.free = true) : Moves s .notify s.notify
  | goes {m t} (hgoes : Goes s m t) : Moves s m t

theorem visit_moves (h : s.visit = some s') : Goes s .visit s' := by
  unfold visit at h
  split at h
  · cases h
  · rename_i c rest hs
    split at h
    · cases h
    · rename_i o hc
      split at h
      · rename_i hif
        obtain ⟨hin, halive⟩ := Bool.and_eq_true_iff.mp hif
        cases h
        exact .visit hs hc (by simpa using hin) halive
      · cases h

theorem returned_moves (h : s.returned = some s') : Goes s .returned s' := by
  unfold returned at h
  split at h
  · cases h
  · rename_i c rest hs
    split at h
    · cases h
    · rename_i o hc
      split at h
      · rename_i hif
        obtain ⟨hin, he⟩ := Bool.and_eq_true_iff.mp hif
        cases h
        exact .returned hs hc hin (by simpa using he)
      · cases h

theorem finish_moves (h : s.finish = some s') : Goes s .finish s' := by
  unfold finish at h
  split at h
  · cases h
  · rename_i c rest hs
    split at h
    · rename_i hif
      cases h
      exact .finish hs hif.1 hif.2
    · cases h

theorem moves_of_next (h : s.next l = some s') : Moves s l s' := by
  cases l with
  | construct o subject =>
      obtain ⟨hif, h⟩ := Option.ite_none_right_eq_some.mp h
      cases h
      exact .construct hif.1 hif.2
  | destroy o =>
      obtain ⟨hfree, h⟩ := Option.ite_none_right_eq_some.mp h
      obtain ⟨b, hb, rfl⟩ := Option.map_eq_some_iff.mp h
      have haddress := List.find?_some hb
      obtain rfl : b.address = o := of_decide_eq_true haddress
      exact .destroy hfree hb
  | registerObserver o =>
      obtain ⟨hfree, h⟩ := Option.ite_none_right_eq_some.mp h
      cases h
      exact .registerObserver hfree
  | deRegister o =>
      obtain ⟨hfree, h⟩ := Option.ite_none_right_eq_some.mp h
      cases h
      exact .deRegister hfree
  | notify =>
      obtain ⟨hfree, h⟩ := Option.ite_none_right_eq_some.mp h
      cases h
      exact .notify hfree
  | visit => exact .goes (visit_moves h)
  | returned => exact .goes (returned_moves h)
  | finish => exact .goes (finish_moves h)

theorem Inv.construct (h : Inv s) (o : Nat) (subject : Bool) : Inv (s.construct o subject) := by
  unfold Subject.construct
  cases subject with
  | true => exact (h.observers _).registerObserver o
  | false => exact h.observers _

theorem Inv.destroy (h : Inv s) (b : IObserver) : Inv (s.destroy b) := by
  unfold Subject.destroy
  cases b.subject with
  | true => exact (h.deRegister b.address).observers _
  | false => exact h.observers _

theorem Inv.goes (h : Inv s) (hgoes : Goes s l s') : Inv s' := by
  -- The calls below the last one stay as they are.
  have hbelow {c c' : NotifyCall} {rest : List NotifyCall} (hs : s.calls = c :: rest)
      (hc' : Going s.obsList c') : ∀ d ∈ c' :: rest, Going s.obsList d := fun d hd =>
    (List.mem_cons.mp hd).elim (fun hd => hd ▸ hc')
      fun hd => h.calls d (hs ▸ List.mem_cons_of_mem c hd)
  cases hgoes with
  | @visit c rest o hs hc hin halive =>
      have hgoing := h.calls c (hs ▸ List.mem_cons_self)
      refine ⟨h.ordered, hbelow hs ⟨hgoing.swept, hgoing.held, hgoing.entry, fun _ => ?_⟩,
        h.finished⟩
      exact Option.isSome_iff_exists.mpr ⟨o, hc⟩
  | @returned c rest o hs hc hin he =>
      have hgoing := h.calls c (hs ▸ List.mem_cons_self)
      exact ⟨h.ordered, hbelow hs (hgoing.goOn h.ordered hc), h.finished⟩
  | @finish c rest hs hc hin =>
      refine ⟨h.ordered, fun d hd => h.calls d (hs ▸ List.mem_cons_of_mem c hd), fun d hd => ?_⟩
      rcases List.mem_append.mp hd with hd | hd
      · exact h.finished d hd
      · rw [List.mem_singleton.mp hd, ← hc]
        exact (h.calls c (hs ▸ List.mem_cons_self)).swept

theorem Inv.next (h : Inv s) (hstep : s.next l = some s') : Inv s' := by
  cases moves_of_next hstep with
  | construct hfree hnew => exact h.construct _ _
  | destroy hfree hb => exact h.destroy _
  | registerObserver hfree => exact h.registerObserver _
  | deRegister hfree => exact h.deRegister _
  | notify hfree => exact h.notify
  | goes hgoes => exact h.goes hgoes

/-! ### Who is told -/

variable {ls : List SubjectStep}

/--
Of every call of `Notify` that has returned, in every run: it told its observers in the order of
their addresses, none of them twice, and it told everyone who was registered when it began and was
not erased before it returned, whatever was registered, erased and notified from within.
-/
theorem told_once (hrun : exec next new ls = some s) :
    ∀ c ∈ s.finished, c.told.Pairwise (· < ·) ∧ ∀ o ∈ c.held, o ∈ c.told := by
  have hinv : Inv s := exec_invariant (fun _ _ _ hu hstep => hu.next hstep) inv_new hrun
  exact fun c hc => ⟨(hinv.finished c hc).increasing, (hinv.finished c hc).complete⟩

/-- Observer 3 is told, brings in observer 7, takes out observer 5, and calls `Notify` itself. -/
def nestedRun : List SubjectStep :=
  [.construct 3 true, .construct 5 true, .notify, .visit, .construct 7 true, .deRegister 5, .notify,
    .visit, .returned, .visit, .returned, .finish, .returned, .visit, .returned, .finish]

theorem told_once_nested : ∃ s, exec next new nestedRun = some s ∧
    s.finished.map NotifyCall.told = [[3, 7], [3, 7]] ∧
    s.finished.map NotifyCall.held = [[3, 7], [3]] ∧
    ∀ c ∈ s.finished, c.told.Pairwise (· < ·) ∧ ∀ o ∈ c.held, o ∈ c.told := by
  obtain ⟨s, hs, htold, hheld⟩ : ∃ s, exec next new nestedRun = some s ∧
      s.finished.map NotifyCall.told = [[3, 7], [3, 7]] ∧
      s.finished.map NotifyCall.held = [[3, 7], [3]] :=
    ⟨_, rfl, by decide, by decide⟩
  exact ⟨s, hs, htold, hheld, told_once hs⟩

/-! ### Observers that call nothing back -/

/-- Where they are told of it one after the other. -/
def tellSteps (l : List Nat) : List SubjectStep := l.flatMap fun _ => [.visit, .returned]

theorem Ordered.nextPlace_eq {before after : List Nat} (h : Ordered (before ++ o :: after)) :
    nextPlace o (before ++ o :: after) = first after := by
  obtain ⟨-, -, hbefore⟩ := List.pairwise_append.mp h.sorted
  have hless := (List.pairwise_cons.mp (List.pairwise_append.mp h.sorted).2.1).1
  have hother := (List.pairwise_cons.mp (List.pairwise_append.mp h.distinct).2.1).1
  have hnone : before.filter (fun b => decide (o < b)) = [] :=
    List.filter_eq_nil_iff.mpr fun b hb => by
      simpa using hbefore b hb o List.mem_cons_self
  have hall : after.filter (fun b => decide (o < b)) = after :=
    List.filter_eq_self.mpr fun b hb => by
      have hle := hless b hb
      have hne : o ≠ b := fun hob => hother b hb (same_iff.mpr hob)
      simp only [id] at hle
      exact decide_eq_true (by omega)
  rw [nextPlace, Sweeps.after_eq h.sorted, List.filter_append, hnone,
    List.filter_cons_of_neg (by simp), hall]
  rfl

theorem exec_tell {told todo held : List Nat} {rest : List NotifyCall} (hs : Ordered s.obsList)
    (halive : ∀ b ∈ s.obsList, s.alive b = true) (hlist : s.obsList = told ++ todo)
    (hcalls : s.calls = ⟨first todo, false, false, told, held⟩ :: rest) :
    exec next s (tellSteps todo) =
      some { s with calls := ⟨none, false, false, told ++ todo, held⟩ :: rest } := by
  induction todo generalizing s told with
  | nil =>
      obtain ⟨obsList, observers, calls, finished⟩ := s
      cases hcalls
      rw [List.append_nil]
      rfl
  | cons a todo ih =>
      have ha : s.alive a = true := halive a (hlist ▸ by simp)
      have hvisit : s.next .visit =
          some { s with calls := ⟨some a, false, true, told, held⟩ :: rest } := by
        simp [next, visit, hcalls, first, ha]
      have hnext : nextPlace a s.obsList = first todo := by
        rw [hlist] at hs ⊢
        exact hs.nextPlace_eq
      have hreturned : next { s with calls := ⟨some a, false, true, told, held⟩ :: rest }
          .returned =
            some { s with calls := ⟨first todo, false, false, told ++ [a], held⟩ :: rest } := by
        simp [next, returned, hnext]
      rw [show tellSteps (a :: todo) = .visit :: .returned :: tellSteps todo from rfl, exec_cons,
        hvisit, Option.bind_some, exec_cons, hreturned, Option.bind_some,
        ih (s := { s with calls := ⟨first todo, false, false, told ++ [a], held⟩ :: rest })
          hs halive (hlist.trans (by simp)) rfl, List.append_assoc]
      rfl

/-- Everyone there is told once, in the order of the addresses, as `CallListener` of a list has
it. -/
theorem exec_notify (hs : Inv s) (hfree : s.free = true)
    (halive : ∀ b ∈ s.obsList, s.alive b = true) :
    exec next s (.notify :: tellSteps s.obsList ++ [.finish]) =
      some { s with
        finished := s.finished ++ [⟨none, false, false, s.obsList, s.obsList⟩] } := by
  have hnotify : s.next .notify = some s.notify := if_pos hfree
  have hlist : s.notify.obsList = [] ++ s.obsList := rfl
  have htell := exec_tell (s := s.notify) hs.ordered halive hlist rfl
  rw [List.cons_append, exec_cons, hnotify, Option.bind_some, exec_append, htell, Option.bind_some]
  rfl

/-! ### What can go wrong

An observer that is erased or destroyed while it is being told takes the entry that a call stands
at, or itself, away from under that call.
-/

/-- Every pointer and every iterator there is can be used, and the last call of `Notify` goes on. -/
structure Sound (s : Subject) : Prop where
  iterators : ∀ c ∈ s.calls, c.erased = false
  observers : ∀ o ∈ s.obsList, s.alive o = true
  goesOn : s.calls ≠ [] →
    (s.next .visit).isSome ∨ (s.next .returned).isSome ∨ (s.next .finish).isSome

/-- What the users have to keep to: nobody is erased by a call, or goes, while being told, only
observers that are there are registered, and one without the subject deregisters before it goes. -/
def Careful (s : Subject) : SubjectStep → Prop
  | .registerObserver o => s.alive o = true
  | .deRegister o => ∀ c ∈ s.calls, c.itr ≠ some o
  | .destroy o => ∀ b, s.observers.find? (fun b => decide (b.address = o)) = some b →
      if b.subject then ∀ c ∈ s.calls, c.itr ≠ some o else o ∉ s.obsList
  | .construct _ _ | .notify | .visit | .returned | .finish => True

instance (s : Subject) : DecidablePred s.Careful
  | .registerObserver o => inferInstanceAs (Decidable (s.alive o = true))
  | .deRegister o => inferInstanceAs (Decidable (∀ c ∈ s.calls, c.itr ≠ some o))
  | .destroy _ => inferInstanceAs (Decidable (∀ b ∈ s.observers.find? _, _))
  | .construct _ _ | .notify | .visit | .returned | .finish => isTrue trivial

/-- What is in the set and on the stack can be used. -/
structure Usable (s : Subject) : Prop where
  iterators : ∀ c ∈ s.calls, c.erased = false
  observers : ∀ o ∈ s.obsList, s.alive o = true

theorem Usable.sound (h : Usable s) (hs : Inv s) : Sound s where
  iterators := h.iterators
  observers := h.observers
  goesOn := by
    intro hcalls
    obtain ⟨c, rest, hc⟩ := List.exists_cons_of_ne_nil hcalls
    have hgoing := hs.calls c (hc ▸ List.mem_cons_self)
    have herased := h.iterators c (hc ▸ List.mem_cons_self)
    cases hitr : c.itr with
    | none =>
        have hin : c.inside = false := Bool.eq_false_iff.mpr fun hin => by
          have hplace := hgoing.inside hin
          rw [hitr] at hplace
          cases hplace
        exact Or.inr (Or.inr (by simp [next, finish, hc, hitr, hin]))
    | some o =>
        cases hin : c.inside with
        | true => exact Or.inr (Or.inl (by simp [next, returned, hc, hitr, hin, herased]))
        | false =>
            have halive := h.observers o (hgoing.entry herased o hitr)
            exact Or.inl (by simp [next, visit, hc, hitr, hin, halive])

/-- `erase` does no harm to the calls that are not at the entry. -/
theorem erase_erased {calls : List NotifyCall} (h : ∀ c ∈ calls, c.erased = false)
    (hplace : ∀ c ∈ calls, c.itr ≠ some o) :
    ∀ c ∈ calls.map (NotifyCall.erase o), c.erased = false := by
  intro c hc
  obtain ⟨d, hd, rfl⟩ := List.mem_map.mp hc
  exact Bool.or_eq_false_iff.mpr ⟨h d hd, decide_eq_false (hplace d hd)⟩

theorem Usable.deRegister (h : Usable s) (hs : Inv s) (hplace : ∀ c ∈ s.calls, c.itr ≠ some o) :
    Usable (s.deRegister o) := by
  rw [deRegister_eq hs.ordered]
  split
  · exact ⟨erase_erased h.iterators hplace,
      fun b hb => h.observers b (List.mem_filter.mp hb).1⟩
  · exact h

/-- An observer that is erased while it is being told takes an iterator with it. -/
theorem not_usable_deRegister (h : Usable s) (hs : Inv s) {c : NotifyCall} (hc : c ∈ s.calls)
    (hplace : c.itr = some o) : ∃ c ∈ (s.deRegister o).calls, c.erased = true := by
  have ho : o ∈ s.obsList := (hs.calls c hc).entry (h.iterators c hc) o hplace
  rw [deRegister_eq hs.ordered, if_pos ho]
  exact ⟨c.erase o, List.mem_map_of_mem hc,
    Bool.or_eq_true_iff.mpr (Or.inr (decide_eq_true hplace))⟩

/-- Observer `o` goes, and is not in the set. -/
theorem Usable.goes (h : Usable s) (ho : o ∉ s.obsList) :
    Usable { s with observers := s.observers.filter fun b => decide (b.address ≠ o) } := by
  refine ⟨h.iterators, fun b hb => ?_⟩
  obtain ⟨b', hb', haddress⟩ := List.any_eq_true.mp (h.observers b hb)
  refine List.any_eq_true.mpr ⟨b', List.mem_filter.mpr ⟨hb', decide_eq_true fun hgone => ?_⟩,
    haddress⟩
  exact ho (hgone ▸ of_decide_eq_true haddress ▸ hb)

theorem not_alive_filter (s : Subject) (o : Nat) :
    alive { s with observers := s.observers.filter fun b => decide (b.address ≠ o) } o = false := by
  simp [alive]

theorem not_mem_deRegister (hs : Inv s) (o : Nat) : o ∉ (s.deRegister o).obsList := by
  rw [deRegister_eq hs.ordered]
  split
  · simp
  · assumption

theorem Usable.next (h : Usable s) (hs : Inv s) (hcareful : s.Careful l)
    (hstep : s.next l = some s') : Usable s' := by
  cases moves_of_next hstep with
  | @construct o subject hfree hnew =>
      have hmore : Usable { s with observers := ⟨o, subject⟩ :: s.observers } := by
        refine ⟨h.iterators, fun b hb => ?_⟩
        exact Bool.or_eq_true_iff.mpr (Or.inr (h.observers b hb))
      unfold Subject.construct
      cases subject with
      | false => exact hmore
      | true =>
          refine ⟨h.iterators, fun b hb => ?_⟩
          rcases (mem_insertNew hs.ordered).mp hb with rfl | hb
          · exact Bool.or_eq_true_iff.mpr (Or.inl (decide_eq_true rfl))
          · exact hmore.observers b hb
  | @destroy b hfree hb =>
      have hcase := hcareful b hb
      unfold Subject.destroy
      cases hsubject : b.subject with
      | true =>
          rw [hsubject] at hcase
          exact (h.deRegister hs hcase).goes (not_mem_deRegister hs _)
      | false =>
          rw [hsubject] at hcase
          exact h.goes hcase
  | registerObserver hfree =>
      refine ⟨h.iterators, fun b hb => ?_⟩
      rcases (mem_insertNew hs.ordered).mp hb with rfl | hb
      · exact hcareful
      · exact h.observers b hb
  | deRegister hfree => exact h.deRegister hs hcareful
  | notify hfree =>
      refine ⟨fun c hc => ?_, h.observers⟩
      rcases List.mem_cons.mp hc with rfl | hc
      · rfl
      · exact h.iterators c hc
  | goes hgoes =>
      have hbelow {c c' : NotifyCall} {rest : List NotifyCall} (hs : s.calls = c :: rest)
          (hc' : c'.erased = c.erased) : ∀ d ∈ c' :: rest, d.erased = false := fun d hd => by
        have hcalls := hs ▸ h.iterators
        rcases List.mem_cons.mp hd with rfl | hd
        · rw [hc']
          exact hcalls c List.mem_cons_self
        · exact hcalls d (List.mem_cons_of_mem c hd)
      cases hgoes with
      | visit hs => exact ⟨hbelow hs rfl, h.observers⟩
      | returned hs => exact ⟨hbelow hs rfl, h.observers⟩
      | finish hs => exact ⟨fun d hd => h.iterators d (hs ▸ List.mem_cons_of_mem _ hd), h.observers⟩

/-- A step that is not careful leaves something that cannot be used. -/
theorem not_sound_next (h : Usable s) (hs : Inv s) (hcareless : ¬ s.Careful l)
    (hstep : s.next l = some s') : ¬ Sound s' := by
  intro hsound
  cases moves_of_next hstep with
  | construct | notify => exact hcareless trivial
  | goes hgoes => cases hgoes <;> exact hcareless trivial
  | registerObserver hfree =>
      exact hcareless (hsound.observers _ ((mem_insertNew hs.ordered).mpr (Or.inl rfl)))
  | deRegister hfree =>
      obtain ⟨c, hc, hplace⟩ : ∃ c ∈ s.calls, c.itr = some _ := by
        simpa [Careful] using hcareless
      obtain ⟨d, hd, herased⟩ := not_usable_deRegister h hs hc hplace
      rw [hsound.iterators d hd] at herased
      cases herased
  | @destroy b hfree hb =>
      refine hcareless fun b' hb' => ?_
      cases hb.symm.trans hb'
      split
      · rename_i hsubject
        intro c hc hplace
        obtain ⟨d, hd, herased⟩ := not_usable_deRegister h hs hc hplace
        have hdead : (s.destroy b).calls = (s.deRegister b.address).calls := by
          unfold Subject.destroy
          rw [if_pos hsubject]
        rw [hsound.iterators d (hdead ▸ hd)] at herased
        cases herased
      · rename_i hsubject
        intro ho
        have hstays : b.address ∈ (s.destroy b).obsList := by
          unfold Subject.destroy
          rw [if_neg hsubject]
          exact ho
        have hgone : (s.destroy b).alive b.address = false := by
          unfold Subject.destroy
          rw [if_neg hsubject]
          exact not_alive_filter s b.address
        rw [hsound.observers _ hstays] at hgone
        cases hgone

/--
In every run all iterators and pointers can be used in every state, and `Notify` goes on, if and
only if every step keeps to the rules of `Careful`.
-/
theorem sound_iff (hrun : exec next new ls = some s) :
    Throughout next Sound new ls ↔ Along next Careful new ls := by
  refine throughout_iff_along (I := fun u => Inv u ∧ Usable u) (fun u hu => hu.2.sound hu.1)
    (fun u m v hu hcareful hstep => ⟨hu.1.next hstep, hu.2.next hu.1 hcareful hstep⟩)
    (fun u m v hu hcareless hstep => not_sound_next hu.2 hu.1 hcareless hstep)
    ⟨inv_new, ⟨fun c hc => ?_, fun o ho => ?_⟩⟩ hrun
  · cases hc
  · cases ho

/-- Observer 3 deregisters while it is being told. -/
def selfErasingRun : List SubjectStep := [.construct 3 true, .notify, .visit, .deRegister 3]

theorem sound_iff_runs : (∃ s, exec next new nestedRun = some s) ∧
    Throughout next Sound new nestedRun ∧ (∃ s, exec next new selfErasingRun = some s) ∧
    ¬ Throughout next Sound new selfErasingRun := by
  obtain ⟨s, hs⟩ : ∃ s, exec next new nestedRun = some s := ⟨_, rfl⟩
  obtain ⟨t, ht⟩ : ∃ t, exec next new selfErasingRun = some t := ⟨_, rfl⟩
  exact ⟨⟨s, hs⟩, (sound_iff hs).mpr (by decide), ⟨t, ht⟩,
    fun hsound => absurd ((sound_iff ht).mp hsound) (by decide)⟩

end Subject

end ServClient
