/-
The start of a thread, and what keeps it behind `Create`.

`m_Sync1` is meant to hold the new thread until `Create` gives it.  It does exactly if it is
created with no permit left when `Create` is called; then it has one permit after the `Give`
and none before.  `Create(0, 1)` makes a semaphore that has a permit from the start, and no
call takes one away for good, so an object does not come to that state.
-/
import ServClient.SimpleThreads
import ServClient.Lib.Runs

namespace ServClient

open Runs

/-- `m_Sync1.Give()` has been executed. -/
def CreatePc.gave : CreatePc → Bool
  | given | returned true => true
  | _ => false

/-- `m_handle` has been assigned. -/
def CreatePc.assigned : CreatePc → Bool
  | handled | given | returned true => true
  | _ => false

theorem CreatePc.assigned_of_gave {pc : CreatePc} (h : pc.gave = true) : pc.assigned = true := by
  cases pc with
  | given => rfl
  | returned ret => cases ret <;> first | rfl | cases h
  | _ => cases h

/-- The thread has been started. -/
def CreatePc.started : CreatePc → Bool
  | spawned | handled | given | returned true => true
  | _ => false

/-- It is past `m_Sync1.Take()`. -/
def ChildPc.took : ChildPc → Bool
  | taken | created | leaving | ended => true
  | _ => false

/-- It has called `IsCreated`. -/
def ChildPc.tested : ChildPc → Bool
  | created | leaving | ended => true
  | _ => false

/-- It is past `RunProgram`. -/
def ChildPc.ran : ChildPc → Bool
  | leaving | ended => true
  | _ => false

@[simp] theorem XLSimpleThreads.getThreadID_sync1 (o : XLSimpleThreads) :
    o.getThreadID.sync1 = o.sync1 := by
  unfold getThreadID
  split <;> rfl

@[simp] theorem XLSimpleThreads.getThreadID_handle (o : XLSimpleThreads) :
    o.getThreadID.handle = o.handle := by
  unfold getThreadID
  split <;> rfl

namespace ThreadStart

variable {id : Nat} {s s' : ThreadStart} {l : StartStep}

/-- What the starting of one thread comes to: the owner goes first, and the program runs once. -/
structure Handshake (s : ThreadStart) : Prop where
  gated : s.child.tested = true → s.create.gave = true
  atMost : s.programs ≤ 1
  once : s.create = .returned true → s.childStep = none → s.programs = 1

/-! ### A gate with no permit

With no permit to begin with, the thread waits for the `Give`, and by then `m_handle` is assigned.
-/

/-- `m_Sync1` is created and a `Take` on it would wait. -/
def GateShut (o : XLSimpleThreads) : Prop :=
  o.sync1.created = true ∧ o.sync1.semCount = o.sync1.maxCount

instance (o : XLSimpleThreads) : Decidable (GateShut o) := inferInstanceAs (Decidable (_ ∧ _))

/-- What every step of it keeps. -/
structure Gated (s : ThreadStart) : Prop where
  created : s.object.sync1.created = true
  /-- One permit comes with the `Give`, and the thread takes it. -/
  balance : s.object.sync1.semCount + s.create.gave.toNat =
    s.object.sync1.maxCount + s.child.took.toNat
  order : s.child.took = true → s.create.gave = true
  handle : s.create.assigned = true → s.object.isCreated = true
  alive : s.create.started = true ↔ s.child ≠ .off
  programs : s.programs = s.child.ran.toNat

theorem gated_start {o : XLSimpleThreads} (h : GateShut o) : Gated (start o) where
  created := h.1
  balance := by simp [start, CreatePc.gave, ChildPc.took, h.2]
  order := nofun
  handle := nofun
  alive := by simp [start, CreatePc.started]
  programs := rfl

theorem create_created (sem : XLSemaPhore) : (sem.create 0 1).created = true := by
  unfold XLSemaPhore.create
  split
  · assumption
  · rfl

theorem Gated.createStep (h : Gated s) (hstep : s.createStep id = some s') : Gated s' := by
  obtain ⟨o, create, child, programs⟩ := s
  obtain ⟨hcreated, hbalance, horder, hhandle, halive, hprograms⟩ := h
  unfold ThreadStart.createStep at hstep
  dsimp only at *
  cases create with
  | entered =>
      simp only [XLSemaPhore.create, hcreated, if_true, Option.some.injEq] at hstep
      subst hstep
      exact ⟨hcreated, hbalance, horder, nofun, halive, hprograms⟩
  | gate =>
      simp only [create_created, if_true, Option.some.injEq] at hstep
      subst hstep
      exact ⟨hcreated, hbalance, horder, nofun, halive, hprograms⟩
  | ready =>
      cases hstep
      obtain rfl : child = .off := by
        by_contra hchild
        exact absurd (halive.mpr hchild) nofun
      exact ⟨hcreated, hbalance, nofun, nofun, ⟨nofun, fun _ => rfl⟩, hprograms⟩
  | spawned =>
      cases hstep
      exact ⟨hcreated, hbalance, horder, fun _ => rfl, halive, hprograms⟩
  | handled =>
      cases hstep
      have hgive : o.sync1.give = o.sync1.lower := if_pos hcreated
      refine ⟨?_, ?_, fun _ => rfl, fun _ => hhandle rfl, halive, hprograms⟩
      · dsimp only
        rw [hgive]
        exact hcreated
      · dsimp only
        rw [hgive]
        simp only [CreatePc.gave, Bool.toNat_false, Bool.toNat_true, XLSemaPhore.lower]
          at hbalance ⊢
        omega
  | given =>
      cases hstep
      exact ⟨hcreated, hbalance, horder, fun _ => hhandle rfl, halive, hprograms⟩
  | returned ret => cases hstep

theorem Gated.childStep (h : Gated s) (hstep : s.childStep = some s') : Gated s' := by
  obtain ⟨o, create, child, programs⟩ := s
  obtain ⟨hcreated, hbalance, horder, hhandle, halive, hprograms⟩ := h
  unfold ThreadStart.childStep at hstep
  dsimp only at *
  cases child with
  | off | ended => cases hstep
  | started =>
      cases hstep
      exact ⟨by simpa using hcreated, by simpa [ChildPc.took] using hbalance, nofun,
        by simpa [XLSimpleThreads.isCreated] using hhandle,
        ⟨fun _ => nofun, fun _ => halive.mpr nofun⟩, hprograms⟩
  | identified =>
      obtain ⟨sync1, htake, rfl⟩ := Option.map_eq_some_iff.mp hstep
      simp only [XLSemaPhore.take, hcreated, if_true, Option.ite_none_right_eq_some,
        Option.some.injEq] at htake
      obtain ⟨hpass, rfl⟩ := htake
      have hgave : create.gave = true := by
        cases hgave : create.gave with
        | true => rfl
        | false =>
            rw [hgave] at hbalance
            simp [XLSemaPhore.Passes, ChildPc.took] at hpass hbalance
            omega
      refine ⟨hcreated, ?_, fun _ => hgave, hhandle, ⟨fun _ => nofun, fun _ => halive.mpr nofun⟩,
        hprograms⟩
      simp only [ChildPc.took, Bool.toNat_false, Bool.toNat_true, XLSemaPhore.raise] at hbalance ⊢
      omega
  | taken =>
      cases hstep
      have hisCreated := hhandle (CreatePc.assigned_of_gave (horder rfl))
      simp only [hisCreated, if_true]
      exact ⟨hcreated, hbalance, fun _ => horder rfl, fun _ => hisCreated,
        ⟨fun _ => nofun, fun _ => halive.mpr nofun⟩, hprograms⟩
  | created =>
      cases hstep
      exact ⟨hcreated, hbalance, fun _ => horder rfl, hhandle,
        ⟨fun _ => nofun, fun _ => halive.mpr nofun⟩, congrArg (· + 1) hprograms⟩
  | leaving =>
      cases hstep
      exact ⟨hcreated, hbalance, fun _ => horder rfl, hhandle,
        ⟨fun _ => nofun, fun _ => halive.mpr nofun⟩, hprograms⟩

theorem Gated.next (h : Gated s) (hstep : s.next id l = some s') : Gated s' := by
  cases l with
  | create => exact h.createStep hstep
  | child => exact h.childStep hstep

theorem Gated.handshake (h : Gated s) : Handshake s := by
  refine ⟨fun htested => h.order ?_, ?_, fun hret hnone => ?_⟩
  · cases hc : s.child <;> rw [hc] at htested <;> first | rfl | cases htested
  · rw [h.programs]
    cases s.child.ran <;> decide
  · -- The thread is started, and after the `Give` nothing holds it.
    have halive : s.child ≠ .off := h.alive.mp (by rw [hret]; rfl)
    have hbalance := h.balance
    rw [h.programs]
    unfold ThreadStart.childStep at hnone
    cases hc : s.child with
    | off => exact absurd hc halive
    | ended => rfl
    | started | taken | created | leaving => rw [hc] at hnone; cases hnone
    | identified =>
        rw [hc] at hnone hbalance
        rw [hret] at hbalance
        simp only [Option.map_eq_none_iff, XLSemaPhore.take, h.created, if_true,
          ite_eq_right_iff, reduceCtorEq, imp_false] at hnone
        simp [XLSemaPhore.Passes, CreatePc.gave, ChildPc.took] at hnone hbalance
        omega

/-! ### Any other gate

With one, the thread can be through the gate before `Create` has assigned anything, and with less
than none it waits for ever.
-/

/-- The thread goes first, as far as the `IsCreated` test. -/
theorem exec_childFirst (id : Nat) {o : XLSimpleThreads} (hpass : (o.sync1.create 0 1).Passes) :
    ∃ object, exec (next id) (start o) [.create, .create, .create, .child, .child, .child] =
      some { object := object, create := .spawned,
             child := if o.isCreated then .created else .leaving, programs := 0 } := by
  have htake : (o.sync1.create 0 1).take = some (o.sync1.create 0 1).raise := by
    rw [XLSemaPhore.take, if_pos (create_created _), if_pos hpass]
  let gated : XLSimpleThreads :=
    { o with sync1 := o.sync1.create 0 1, sync2 := o.sync2.create 0 1 }
  refine ⟨{ gated.getThreadID with sync1 := (o.sync1.create 0 1).raise }, ?_⟩
  simp [exec_cons, next, createStep, childStep, start, create_created, htake,
    XLSimpleThreads.isCreated, gated]
  rfl

/-- `Create` goes first, and the thread comes to the gate. -/
theorem exec_createFirst (o : XLSimpleThreads) :
    exec (next id) (start o) [.create, .create, .create, .create, .create, .create, .child] =
      some { object := { sync1 := (o.sync1.create 0 1).give, sync2 := o.sync2.create 0 1,
                         handle := some id, threadID := some id },
             create := .returned true, child := .identified, programs := 0 } := by
  simp [exec_cons, next, createStep, childStep, start, create_created,
    XLSimpleThreads.getThreadID]

theorem not_handshake_of_permit {o : XLSimpleThreads} (hpass : (o.sync1.create 0 1).Passes) :
    ∃ ls t, exec (next id) (start o) ls = some t ∧ ¬ Handshake t := by
  obtain ⟨object, hrun⟩ := exec_childFirst id hpass
  refine ⟨_, _, hrun, fun h => ?_⟩
  have hgave := h.gated (by dsimp only; split <;> rfl)
  cases hgave

theorem not_handshake_of_debt {o : XLSimpleThreads} (hdebt : ¬ (o.sync1.create 0 1).lower.Passes) :
    ∃ ls t, exec (next id) (start o) ls = some t ∧ ¬ Handshake t := by
  have hgive : (o.sync1.create 0 1).give = (o.sync1.create 0 1).lower := if_pos (create_created _)
  refine ⟨_, _, exec_createFirst o, fun h => absurd (h.once rfl ?_) nofun⟩
  have hcreated : (o.sync1.create 0 1).lower.created = true := create_created _
  simp [childStep, hgive, XLSemaPhore.take, hcreated, hdebt]

/--
Every order of the steps of `Create` and of the new thread: the thread stays behind the `Give`
and calls `RunProgram` once if and only if `m_Sync1` was created with no permit left when
`Create` was called.
-/
theorem handshake_iff (o : XLSimpleThreads) (id : Nat) :
    (∀ ls s, exec (next id) (start o) ls = some s → Handshake s) ↔ GateShut o := by
  constructor
  · intro hall
    by_contra hopen
    have hne : (o.sync1.create 0 1).semCount ≠ (o.sync1.create 0 1).maxCount := by
      unfold XLSemaPhore.create
      split
      · rename_i hcreated
        exact fun heq => hopen ⟨hcreated, heq⟩
      · decide
    have hbad : ∃ ls t, exec (next id) (start o) ls = some t ∧ ¬ Handshake t := by
      by_cases hpass : (o.sync1.create 0 1).Passes
      · exact not_handshake_of_permit hpass
      · refine not_handshake_of_debt fun hlower => hpass ?_
        simp only [XLSemaPhore.Passes, XLSemaPhore.lower] at *
        omega
    obtain ⟨ls, t, ht, hnot⟩ := hbad
    exact hnot (hall ls t ht)
  · intro hshut ls s hrun
    exact (exec_invariant (I := Gated) (fun _ _ _ hu hstep => hu.next hstep)
      (gated_start hshut) hrun).handshake

/-- The thread looks at `m_handle` before it is assigned, and ends without its program. -/
theorem childFirst_never_runs :
    ∃ s, exec (next 1) (start XLSimpleThreads.new)
        [.create, .create, .create, .child, .child, .child, .child, .create, .create, .create] =
          some s ∧
      s.create = .returned true ∧ s.child = .ended ∧ s.programs = 0 ∧ ¬ Handshake s :=
  ⟨_, rfl, rfl, rfl, rfl, fun h => absurd (h.once rfl rfl) nofun⟩

/-! ### No object has its gate shut

`Create(0, 1)` leaves a permit, and after a `Destroy` the next `Create` makes one again.  So there
is no object for which the first case applies.
-/

/-- `m_Sync1` lets a `Take` pass, or will once `Create` has made it. -/
def GateOpen (o : XLSimpleThreads) : Prop := o.sync1.created = true → o.sync1.Passes

/-- An object `Create` and `Destroy` have been called on, each time when the thread had ended. -/
inductive Used : XLSimpleThreads → Prop
  | new : Used XLSimpleThreads.new
  | created {o id ls s} (h : Used o) (hrun : exec (next id) (start o) ls = some s)
      (hret : s.create = .returned true) (hend : s.child = .ended) : Used s.object
  | destroyed {o o'} (h : Used o) (hdestroy : o.destroy = some o') : Used o'

/-- There is a permit more than the thread needs. -/
structure Slack (s : ThreadStart) : Prop where
  entered : s.create = .entered → GateOpen s.object ∧ s.child = .off
  created : s.create ≠ .entered → s.object.sync1.created = true
  slack : s.create ≠ .entered →
    s.object.sync1.semCount + s.create.gave.toNat < s.object.sync1.maxCount + s.child.took.toNat
  off : s.create.started = false → s.child = .off

theorem slack_start {o : XLSimpleThreads} (h : GateOpen o) : Slack (start o) :=
  ⟨fun _ => ⟨h, rfl⟩, fun hc => absurd rfl hc, fun hc => absurd rfl hc, fun _ => rfl⟩

theorem passes_create {o : XLSimpleThreads} (h : GateOpen o) : (o.sync1.create 0 1).Passes := by
  unfold XLSemaPhore.create
  split
  · rename_i hcreated
    exact h hcreated
  · decide

theorem Slack.createStep (h : Slack s) (hstep : s.createStep id = some s') : Slack s' := by
  obtain ⟨o, create, child, programs⟩ := s
  obtain ⟨hentered, hcreated, hslack, hoff⟩ := h
  unfold ThreadStart.createStep at hstep
  dsimp only at *
  cases create with
  | entered =>
      obtain ⟨hopen, rfl⟩ := hentered rfl
      simp only [create_created, if_true, Option.some.injEq] at hstep
      subst hstep
      refine ⟨nofun, fun _ => create_created _, fun _ => ?_, fun _ => rfl⟩
      have hpass := passes_create hopen
      simp only [XLSemaPhore.Passes, CreatePc.gave, ChildPc.took, Bool.toNat_false] at hpass ⊢
      omega
  | gate =>
      simp only [create_created, if_true, Option.some.injEq] at hstep
      subst hstep
      exact ⟨nofun, fun _ => hcreated nofun, fun _ => hslack nofun, fun _ => hoff rfl⟩
  | ready =>
      cases hstep
      obtain rfl : child = .off := hoff rfl
      exact ⟨nofun, fun _ => hcreated nofun, fun _ => hslack nofun, nofun⟩
  | spawned =>
      cases hstep
      exact ⟨nofun, fun _ => hcreated nofun, fun _ => hslack nofun, nofun⟩
  | handled =>
      cases hstep
      have hgive : o.sync1.give = o.sync1.lower := if_pos (hcreated nofun)
      rw [hgive]
      refine ⟨nofun, fun _ => hcreated nofun, fun _ => ?_, nofun⟩
      have hold := hslack nofun
      simp only [CreatePc.gave, Bool.toNat_false, Bool.toNat_true, XLSemaPhore.lower] at hold ⊢
      omega
  | given =>
      cases hstep
      exact ⟨nofun, fun _ => hcreated nofun, fun _ => hslack nofun, nofun⟩
  | returned ret => cases hstep

theorem Slack.childStep (h : Slack s) (hstep : s.childStep = some s') : Slack s' := by
  obtain ⟨o, create, child, programs⟩ := s
  obtain ⟨hentered, hcreated, hslack, hoff⟩ := h
  unfold ThreadStart.childStep at hstep
  dsimp only at *
  have hne (hchild : child ≠ .off) : create ≠ .entered := fun hc => hchild (hentered hc).2
  have hstarted (hchild : child ≠ .off) : create.started ≠ false := fun hc => hchild (hoff hc)
  cases child with
  | off | ended => cases hstep
  | started =>
      cases hstep
      refine ⟨fun hc => absurd hc (hne nofun), fun hc => ?_, fun hc => ?_,
        fun hc => absurd hc (hstarted nofun)⟩
      · simpa using hcreated hc
      · simpa [ChildPc.took] using hslack hc
  | identified =>
      obtain ⟨sync1, htake, rfl⟩ := Option.map_eq_some_iff.mp hstep
      have hne' := hne nofun
      simp only [XLSemaPhore.take, hcreated hne', if_true, Option.ite_none_right_eq_some,
        Option.some.injEq] at htake
      obtain ⟨-, rfl⟩ := htake
      refine ⟨fun hc => absurd hc hne', hcreated, fun hc => ?_,
        fun hc => absurd hc (hstarted nofun)⟩
      have hold := hslack hc
      simp only [ChildPc.took, Bool.toNat_false, Bool.toNat_true, XLSemaPhore.raise] at hold ⊢
      omega
  | taken =>
      cases hstep
      refine ⟨fun hc => absurd hc (hne nofun), hcreated, fun hc => ?_,
        fun hc => absurd hc (hstarted nofun)⟩
      dsimp only
      split <;> exact hslack hc
  | created | leaving =>
      cases hstep
      exact ⟨fun hc => absurd hc (hne nofun), hcreated, hslack,
        fun hc => absurd hc (hstarted nofun)⟩

theorem Slack.next (h : Slack s) (hstep : s.next id l = some s') : Slack s' := by
  cases l with
  | create => exact h.createStep hstep
  | child => exact h.childStep hstep

theorem Used.gateOpen {o : XLSimpleThreads} (h : Used o) : GateOpen o := by
  induction h with
  | new => exact nofun
  | created h hrun hret hend ih =>
      have hslack := exec_invariant (I := Slack) (fun _ _ _ hu hstep => hu.next hstep)
        (slack_start ih) hrun
      have hlt := hslack.slack (by rw [hret]; nofun)
      intro _
      rw [hret, hend] at hlt
      simp only [XLSemaPhore.Passes, CreatePc.gave, ChildPc.took, Bool.toNat_true] at hlt ⊢
      omega
  | destroyed h hdestroy ih =>
      unfold XLSimpleThreads.destroy at hdestroy
      split at hdestroy
      · obtain ⟨sync2, -, rfl⟩ := Option.map_eq_some_iff.mp hdestroy
        intro hcreated
        dsimp only at hcreated
        unfold XLSemaPhore.destroy at hcreated
        split at hcreated
        · cases hcreated
        · rename_i hno
          exact absurd hcreated hno
      · cases hdestroy
        exact ih

/-- On an object that has only been used as a program can, some order breaks the handshake. -/
theorem Used.not_handshake {o : XLSimpleThreads} (h : Used o) (id : Nat) :
    ∃ ls s, exec (next id) (start o) ls = some s ∧ ¬ Handshake s :=
  not_handshake_of_permit (passes_create h.gateOpen)

end ThreadStart

end ServClient
