/-
Whether an event thread can be created again.

`Create` and `Destroy` leave `mExit` and the events in the queue as they are.  A life that
begins with `mExit` false and an empty queue goes like the first.  A loop that has ended
has left `mExit` set, and from then on no life dispatches anything.
-/
import ServClient.Proofs.EventThread

namespace ServClient.XLEventThread

open Runs

variable {σ : Type} {tOnEvent : σ → XLThreadEvent → σ} {s s' : XLEventThread σ}
  {l : EventThreadStep}

/-! ### One life

The same law as for the first life, with both logs cut off at the beginning of the last one.
-/

/-- The events accepted since the life began. -/
def lifeAccepted (s : XLEventThread σ) : List XLThreadEvent := s.accepted.drop s.pushedBefore

/-- The events dispatched since the life began. -/
def lifeDispatched (s : XLEventThread σ) : List XLThreadEvent :=
  s.dispatched.drop s.dispatchedBefore

/-- The loop is in `Get` and cannot go on. -/
def Waits (s : XLEventThread σ) : Prop :=
  ∃ j out, s.loop = .getting j ∧ s.queue.gets[j]? = some ⟨.entered, out⟩ ∧
    ¬ s.queue.queue.sem.Passes

/-- The loop dispatches what was accepted in this life, up to the first `Exit`. -/
structure LifeLaw (s : XLEventThread σ) : Prop where
  inOrder : s.lifeDispatched <+: untilExit s.lifeAccepted
  ended : LoopEnded s → s.lifeDispatched = untilExit s.lifeAccepted
  caughtUp : Waits s → s.putsReturned = true → s.lifeDispatched = untilExit s.lifeAccepted

/-- If this step creates the thread, it finds `mExit` false and nothing in the queue. -/
def CreatesClean (s : XLEventThread σ) : EventThreadStep → Prop
  | .create => s.created = false → s.exit = false ∧ s.queue.queue.q.pending = []
  | _ => True

instance (s : XLEventThread σ) : ∀ l, Decidable (CreatesClean s l)
  | .create => inferInstanceAs (Decidable (_ → _ ∧ _))
  | .destroy | .owner | .loop | .stopMainLoop | .queue _ => isTrue trivial

/-! ### Lives that begin with nothing left over -/

/-- What every step keeps of an event thread whose lives begin empty. -/
structure Clean (s : XLEventThread σ) : Prop where
  inv : Inv s
  marks : s.pushedBefore = s.dispatchedBefore
  marked : s.dispatchedBefore ≤ s.dispatched.length
  balanced : s.queue.queue.created = true → s.queue.surplus = 0
  empty : s.queue.queue.created = false →
    s.owner = .spawned ∨ s.owner = .handled ∨ s.owner = .given → s.queue.queue.q.pending = []

theorem clean_new (self : σ) : Clean (new self) where
  inv := inv_new self
  marks := rfl
  marked := Nat.le_refl 0
  balanced := fun hc => by cases hc
  empty := fun _ _ => rfl

/-- A queue step leaves nothing over. -/
theorem Clean.queue (hs : Clean s) {ql : QueueStep XLThreadEvent} {q : QueueRun XLThreadEvent}
    (hq : s.queue.next ql = some q) (hk : q.queue.created = s.queue.queue.created)
    (hpending : s.queue.queue.created = false → q.queue.q.pending = s.queue.queue.q.pending) :
    (q.queue.created = true → q.surplus = 0) ∧
      (q.queue.created = false →
        s.owner = .spawned ∨ s.owner = .handled ∨ s.owner = .given → q.queue.q.pending = []) := by
  refine ⟨fun hc => ?_, fun hc ho => ?_⟩
  · rw [hk] at hc
    obtain ⟨hlive, hstock⟩ := hs.inv.kept.live hc
    rw [((QueueRun.acts_of_next hq).balance (fun _ => hlive.sem) hstock).2]
    exact hs.balanced hc
  · rw [hk] at hc
    rw [hpending hc]
    exact hs.empty hc ho

/-- Between two lives the loop has nothing in hand, unless it ended with an `Exit`. -/
theorem Inv.inHand_of_down (hs : Inv s) (ho : s.owner = .idle) (hc : s.created = false)
    (he : s.exit = false) : s.inHand = [] := by
  obtain ⟨-, hgone⟩ := hs.owned.down ho hc
  rw [inHand_of_quiet (fun j hj => by rw [hj] at hgone; cases hgone)
    (fun hj => by rw [hj] at hgone; cases hgone), he]
  rfl

theorem Clean.step (hs : Clean s) (hQ : CreatesClean s l) (h : s.next tOnEvent l = some s') :
    Clean s' := by
  have hinv := inv_step hs.inv h
  have hmoves := moves_of_next h
  cases hmoves with
  | createTwice | destroyNone | stopNone => exact hs
  | create ho hc =>
      obtain ⟨he, hnil⟩ := hQ hc
      have hlength := congrArg List.length hs.inv.accepted_eq
      rw [hs.inv.inHand_of_down ho hc he, hnil, List.append_nil, List.append_nil, accepted,
        List.length_map] at hlength
      exact ⟨hinv, hlength, Nat.le_refl _, hs.balanced, fun _ _ => hnil⟩
  | destroy | destroyBare | taking =>
      exact ⟨hinv, hs.marks, hs.marked, hs.balanced, fun _ ho => by simp at ho⟩
  | spawned ho =>
      exact ⟨hinv, hs.marks, hs.marked, hs.balanced, fun hc _ => hs.empty hc (Or.inl ho)⟩
  | handled ho =>
      exact ⟨hinv, hs.marks, hs.marked, hs.balanced, fun hc _ => hs.empty hc (Or.inr (Or.inl ho))⟩
  | given ho hq =>
      have hnone := hs.inv.owned.noQueue ho
      refine ⟨hinv, hs.marks, hs.marked, fun _ => ?_, fun _ ho' => by simp at ho'⟩
      rw [QueueRun.created_surplus (hs.inv.kept.down hnone), hs.empty hnone (Or.inr (Or.inr ho))]
      rfl
  | undo ho hq => exact ⟨hinv, hs.marks, hs.marked, hs.balanced, fun _ ho' => by simp at ho'⟩
  | queued ho => exact ⟨hinv, hs.marks, hs.marked, hs.balanced, fun _ ho' => by simp at ho'⟩
  | joining ho hl =>
      refine ⟨hinv, hs.marks, hs.marked, hs.balanced, fun _ ho' => ?_⟩
      dsimp only at ho'
      split at ho' <;> simp at ho'
  | joined ho hputs =>
      refine ⟨hinv, hs.marks, hs.marked, fun hc => ?_, fun _ ho' => by simp at ho'⟩
      simp only [XLEventQueue.destroy] at hc
      split at hc
      · cases hc
      · rename_i hnot
        exact absurd hc hnot
  | tested | ungated | taken | synced | enter | early | stopped | got | gotNone | exitEvent
  | leave =>
      exact ⟨hinv, hs.marks, hs.marked, hs.balanced, hs.empty⟩
  | dispatch =>
      refine ⟨hinv, hs.marks, ?_, hs.balanced, hs.empty⟩
      dsimp only
      rw [List.length_append]
      exact Nat.le_add_right_of_le hs.marked
  | get hl he =>
      obtain ⟨hbalanced, hempty⟩ := hs.queue (q := s.queue.callGet)
        (show s.queue.next .get = _ from rfl) rfl fun _ => rfl
      exact ⟨hinv, hs.marks, hs.marked, hbalanced, hempty⟩
  | stop hc =>
      obtain ⟨hbalanced, hempty⟩ := hs.queue (q := s.queue.callPut exitLoopEvent)
        (show s.queue.next (.put exitLoopEvent) = _ from rfl) rfl fun _ => rfl
      exact ⟨hinv, hs.marks, hs.marked, hbalanced, hempty⟩
  | queue hl hq =>
      obtain ⟨hbalanced, hempty⟩ := hs.queue hq
        (QueueRun.created_next hs.inv.kept hl hq) fun hc => by
          obtain ⟨e, rfl⟩ := QueueRun.Kept.next_down (hs.inv.kept.down hc) hl hq
          rfl
      exact ⟨hinv, hs.marks, hs.marked, hbalanced, hempty⟩

/-- What was accepted in this life: dispatched, in hand, pending. -/
theorem Clean.lifeAccepted_eq (hs : Clean s) :
    s.lifeAccepted = s.lifeDispatched ++ s.inHand ++ s.queue.queue.q.pending := by
  rw [lifeAccepted, hs.inv.accepted_eq, hs.marks, List.append_assoc,
    List.drop_append_of_le_length hs.marked, ← List.append_assoc]
  rfl

theorem Clean.lifeDispatched_ne (hs : Clean s) :
    ∀ e ∈ s.lifeDispatched, e.iType ≠ eventThreadEventTypeExit :=
  fun e he => hs.inv.logged.dispatched e (List.mem_of_mem_drop he)

/-- Where the loop waits and no `Put` is under way there is nothing in the queue. -/
theorem Clean.pending_of_waits (hs : Clean s) (hw : Waits s) (hputs : s.putsReturned = true) :
    s.inHand = [] ∧ s.queue.queue.q.pending = [] := by
  obtain ⟨j, out, hl, hj, hpass⟩ := hw
  refine ⟨by simp [inHand, hl, hj, GetPc.done], ?_⟩
  have hsurplus := hs.balanced (hs.inv.owned.live (by rw [hl]; rfl))
  rw [QueueRun.surplus_of_quiet] at hsurplus
  · rw [XLSemaPhore.passes_iff] at hpass
    rw [← List.length_eq_zero_iff]
    omega
  · intro i c hi
    obtain ⟨b, hb⟩ := putsReturned_iff.mp hputs i c hi
    rw [hb]
    rfl
  · intro i g hi
    by_cases hij : i = j
    · subst hij
      cases hi.symm.trans hj
      rfl
    · obtain ⟨b, hb⟩ := hs.inv.getting.others i g hi (by rw [hl]; simpa using Ne.symm hij)
      rw [hb]
      rfl

theorem Clean.lifeLaw (hs : Clean s) : LifeLaw s := by
  have heq := hs.lifeAccepted_eq
  have hne := hs.lifeDispatched_ne
  refine ⟨?_, fun hended => ?_, fun hw hputs => ?_⟩
  · rw [heq, List.append_assoc, untilExit_append hne]
    exact List.prefix_append _ _
  · have he := hs.inv.exit_of_loopEnded hended
    rw [heq, List.append_assoc, untilExit_append hne, hs.inv.inHand_of_exit he,
      List.singleton_append, untilExit_exit _ (hs.inv.logged.exit he).1, List.append_nil]
  · obtain ⟨hhand, hnil⟩ := hs.pending_of_waits hw hputs
    rw [heq, hhand, hnil, untilExit_append]
    · simp [untilExit]
    · simpa using hne

/--
If every `Create` finds `mExit` false and nothing in the queue, every life dispatches its own
events, like the first.
-/
theorem every_life_dispatches (self : σ) {ls : List EventThreadStep}
    (hQ : Along (next tOnEvent) CreatesClean (new self) ls) :
    Throughout (next tOnEvent) (fun s => s.entered = true → LifeLaw s) (new self) ls :=
  throughout_of_along (I := Clean) (P := fun s => s.entered = true → LifeLaw s)
    (fun _ _ _ hs hl h => hs.step hl h) (fun _ hs _ => hs.lifeLaw) (clean_new self) hQ

/-- `Destroy` of a thread that has ended. -/
def destroySteps : List EventThreadStep := [.destroy, .owner, .owner, .owner]

/-- A first life whose thread looks at `mCreated` too early, and a second with an event. -/
def earlyRun : List EventThreadStep :=
  [.create, .owner, .owner, .loop, .loop, .loop, .loop, .loop, .owner, .owner] ++ destroySteps ++
    createSteps ++ [.queue (.put (XLThreadEvent.new.setType 20))] ++ putSteps 0 ++ getSteps 0 ++
    [.loop]

theorem every_life_dispatches_early :
    Throughout (next fun n _ => n + 1) (fun s => s.entered = true → LifeLaw s)
      (new (0 : Nat)) earlyRun ∧
    ∃ s, exec (next fun n _ => n + 1) (new (0 : Nat)) earlyRun = some s ∧ s.entered = true ∧
      s.lifeDispatched = [XLThreadEvent.new.setType 20] := by
  obtain ⟨s, hs, hend⟩ := (Option.any_eq_true _ _).mp
    (show (exec (next fun n _ => n + 1) (new (0 : Nat)) earlyRun).any
      (fun s => s.entered && s.lifeDispatched == [XLThreadEvent.new.setType 20]) = true by decide)
  simp only [Bool.and_eq_true, beq_iff_eq] at hend
  exact ⟨every_life_dispatches 0 (by decide), s, hs, hend⟩

/-! ### After a loop has ended

`mExit` is never set back.  A life that begins with it set ends its loop before the first event.
-/

/-- `mExit` stays, and `t_OnEvent` is not called again. -/
theorem Inv.no_more (hs : Inv s) (he : s.exit = true) {ls : List EventThreadStep}
    (hrun : exec (next tOnEvent) s ls = some s') :
    s'.exit = true ∧ s'.dispatched = s.dispatched := by
  have hstep : ∀ u l u', (Inv u ∧ u.exit = true ∧ u.dispatched = s.dispatched) →
      next tOnEvent u l = some u' → Inv u' ∧ u'.exit = true ∧ u'.dispatched = s.dispatched := by
    rintro u l u' ⟨hu, hue, hud⟩ h
    refine ⟨inv_step hu h, ?_⟩
    cases moves_of_next h with
    | dispatch hl => exact absurd hl (hu.logged.exit hue).2.2
    | gotNone | exitEvent => exact ⟨rfl, hud⟩
    | create | createTwice | destroy | destroyBare | destroyNone | spawned | handled | given | undo
    | queued | taking | joining | joined | tested | ungated | taken | synced | enter | early
    | stopped | get | got | leave | stop | stopNone | queue => exact ⟨hue, hud⟩
  exact (exec_invariant (I := fun u => Inv u ∧ u.exit = true ∧ u.dispatched = s.dispatched)
    hstep ⟨hs, he, rfl⟩ hrun).2

/-- No life after one whose loop has ended dispatches an event. -/
theorem ended_for_good (self : σ) {ls ms : List EventThreadStep}
    (hrun : exec (next tOnEvent) (new self) ls = some s) (hended : LoopEnded s)
    (hlater : exec (next tOnEvent) s ms = some s') : s'.dispatched = s.dispatched :=
  have hs := inv_exec (inv_new self) hrun
  (hs.no_more (hs.exit_of_loopEnded hended) hlater).2

/-- One life with no events, then a second in which an event is put. -/
def restartedRun : List EventThreadStep :=
  createSteps ++ [.stopMainLoop] ++ putSteps 0 ++ getSteps 0 ++ [.loop, .loop, .loop] ++
    destroySteps ++ createSteps ++ [.queue (.put (XLThreadEvent.new.setType 20))] ++ putSteps 1 ++
    [.loop, .loop]

theorem second_life_dispatches_nothing :
    ∃ s : XLEventThread Nat, exec (next fun n _ => n + 1) (new 0) restartedRun = some s ∧
      s.entered = true ∧ LoopEnded s ∧ s.lifeAccepted = [XLThreadEvent.new.setType 20] ∧
      s.lifeDispatched = [] ∧ ¬ LifeLaw s := by
  obtain ⟨s, hs, hend⟩ := (Option.any_eq_true _ _).mp
    (show (exec (next fun n _ => n + 1) (new (0 : Nat)) restartedRun).any
      (fun s => s.entered && s.loop == .ended && s.lifeDispatched == [] &&
        s.lifeAccepted == [XLThreadEvent.new.setType 20]) = true by decide)
  simp only [Bool.and_eq_true, beq_iff_eq] at hend
  obtain ⟨⟨⟨hent, hl⟩, hnil⟩, hone⟩ := hend
  have hended : LoopEnded s := ⟨hent, Or.inr hl⟩
  refine ⟨s, hs, hent, hended, hone, hnil, fun hlaw => ?_⟩
  have heq := hlaw.ended hended
  rw [hnil, hone] at heq
  exact absurd heq (by decide)

end ServClient.XLEventThread
