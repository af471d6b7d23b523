/-
An event thread over any number of lives, each of which begins with nothing pending.

`XLEventQueue::Destroy` leaves what is pending where it is, and the next `Create` makes no permits
for it.  If there is nothing, the queue is as good as new (`Resting.settled`), and the permits match
what is pending in every life.
-/
import ServClient.Proofs.EventProgress
import ServClient.Proofs.Restart
import ServClient.Proofs.SemaPhore

namespace ServClient

open Runs

/-! ### The queue between two lives

A queue that has been destroyed is empty-handed: no permit and no call inside.  What is pending
stays pending, which is why the next life has to be told to begin with nothing.
-/

namespace QueueRun

variable {α : Type} {q q' : QueueRun α} {l : QueueStep α}

/-- Not created: there is no permit, whatever is pending. -/
structure Resting (q : QueueRun α) : Prop where
  sized : q.Sized
  counted : q.surplus = q.queue.q.pending.length
  held : ∀ i, q.queue.mut1.owner = some i → ∃ c, q.puts[i]? = some c ∧ c.pc.holds = true

theorem Resting.put (h : Resting q) (e : α) :
    Resting { q with puts := q.puts ++ [⟨e, .returned false⟩] } where
  sized := ⟨h.sized.config, h.sized.bound, h.sized.pending⟩
  counted := by
    rw [← h.counted]
    simp [surplus, PutPc.beforeGive]
  held := fun i hi => Calls.exists_concat _ (h.held i hi)

/-- With nothing pending it is as before the first life. -/
theorem Resting.settled (h : Resting q) (hc : q.queue.created = false)
    (hnil : q.queue.q.pending = []) : Settled q where
  sized := h.sized
  single := fun hcreated => by
    rw [hc] at hcreated
    cases hcreated
  counted := by rw [h.counted, hnil, List.length_nil, Nat.cast_zero]
  empty := fun _ => hnil
  held := h.held

/-- `XLEventQueue::Destroy` once every call has returned. -/
theorem Settled.destroyed (h : Settled q) (hlive : Live q)
    (hputs : ∀ (i : Nat) (c : PutCall α), q.puts[i]? = some c → ∃ b, c.pc = .returned b)
    (hgets : ∀ (j : Nat) (g : GetCall α), q.gets[j]? = some g → ∃ b, g.pc = .returned b) :
    Resting { q with queue := q.queue.destroy } := by
  have hdestroy : q.queue.destroy = { q.queue with
      mut0 := q.queue.mut0.destroy
      mut1 := { q.queue.mut1 with created := false }
      sem := { semCount := 0, maxCount := 0, created := false }
      created := false } := by
    simp [XLEventQueue.destroy, hlive.created, XLMutex.destroy, hlive.writers,
      XLSemaPhore.destroy, hlive.sem]
  have hsurplus := surplus_of_returned (q := { q with queue := q.queue.destroy }) hputs hgets
  rw [hdestroy] at hsurplus ⊢
  refine ⟨⟨h.sized.config, (fun hc => by cases hc), h.sized.pending⟩, ?_, h.held⟩
  rw [hsurplus]
  simp [XLSemaPhore.permits]

end QueueRun

/-! ### The thread between two lives, and in one

The first life of a thread has been dealt with.  Here the same is said of every life, as long as the
thread that is made finds nothing pending.
-/

namespace XLEventThread

variable {σ : Type} {tOnEvent : σ → XLThreadEvent → σ} {s s' : XLEventThread σ}
  {l : EventThreadStep}

/-- If this step makes a thread, it finds nothing pending. -/
def CreatesEmpty (s : XLEventThread σ) : EventThreadStep → Prop
  | .create => s.created = false → s.queue.queue.q.pending = []
  | _ => True

instance (s : XLEventThread σ) : ∀ l, Decidable (CreatesEmpty s l)
  | .create => inferInstanceAs (Decidable (_ → _))
  | .destroy | .owner | .loop | .stopMainLoop | .queue _ => isTrue trivial

theorem CreatesEmpty.of_ne (hl : l ≠ .create) : CreatesEmpty s l := by
  cases l with
  | create => exact absurd rfl hl
  | destroy | owner | loop | stopMainLoop | queue => trivial

/-- What holds over all lives that begin with nothing pending. -/
structure Ready (s : XLEventThread σ) : Prop where
  inv : Inv s
  settled : s.queue.queue.created = true → s.queue.Settled
  resting : s.queue.queue.created = false → s.queue.Resting
  empty : s.owner = .spawned ∨ s.owner = .handled ∨ s.owner = .given →
    s.queue.queue.q.pending = []
  begun : s.loop = .off → s.owner = .idle ∧ s.created = false
  handle : (∃ undo, s.owner = .taking undo ∨ s.owner = .joining undo) → s.handle = true
  sync1 : s.loop = .started ∨ s.loop = .taking → s.sync1.Open
  shut : s.sync1.Shut
  closed : (∃ undo, s.owner = .joining undo) ∨ s.owner = .joined ∨
    s.owner = .idle ∧ s.created = false → s.sync1.created = false
  sync2 : s.sync2.Open

theorem ready_new (self : σ) : Ready (new self) where
  inv := inv_new self
  settled := fun hc => by cases hc
  resting := fun _ => ⟨QueueRun.settled_ofQueue.sized, rfl, QueueRun.settled_ofQueue.held⟩
  empty := fun ho => by simp [new] at ho
  begun := fun _ => ⟨rfl, rfl⟩
  handle := fun ho => by simp [new] at ho
  sync1 := by simp [new]
  shut := XLSemaPhore.shut_new
  closed := fun _ => rfl
  sync2 := fun hc => by cases hc

/-- The thread goes on, in its loop or on the way to it. -/
theorem Ready.moveLoop (h : Ready s) (hinv : Inv s') (hqueue : s'.queue = s.queue)
    (howner : s'.owner = s.owner) (hcreated : s'.created = s.created)
    (hhandle : s'.handle = s.handle)
    (hloop : s'.loop ≠ .off ∧ s'.loop ≠ .started ∧ s'.loop ≠ .taking)
    (hsync1 : s'.sync1.created = s.sync1.created) (hshut : s'.sync1.Shut)
    (hsync2 : s'.sync2.Open) : Ready s' where
  inv := hinv
  settled := by rw [hqueue]; exact h.settled
  resting := by rw [hqueue]; exact h.resting
  empty := by rw [hqueue, howner]; exact h.empty
  begun := fun hl => absurd hl hloop.1
  handle := by rw [howner, hhandle]; exact h.handle
  sync1 := fun hl => absurd hl (not_or.mpr hloop.2)
  shut := hshut
  closed := by rw [howner, hcreated, hsync1]; exact h.closed
  sync2 := hsync2

/-- A call of `Put` begins, or a call goes on. -/
theorem Ready.queue (h : Ready s) {ql : QueueStep XLThreadEvent} {q : QueueRun XLThreadEvent}
    (hget : ql ≠ .get) (hq : s.queue.next ql = some q) (hinv : Inv { s with queue := q }) :
    Ready { s with queue := q } := by
  have hcreated := QueueRun.created_next h.inv.kept hget hq
  have hdown (hc : s.queue.queue.created = false) :
      ∃ e, q = { s.queue with puts := s.queue.puts ++ [⟨e, .returned false⟩] } :=
    QueueRun.Kept.next_down (h.inv.kept.down hc) hget hq
  refine ⟨hinv, fun hc => ?_, fun hc => ?_, fun ho => ?_, h.begun, h.handle, h.sync1, h.shut,
    h.closed, h.sync2⟩
  · exact (h.settled (hcreated.symm.trans hc)).next h.inv.kept hget hq
  · have hc' := hcreated.symm.trans hc
    obtain ⟨e, rfl⟩ := hdown hc'
    exact (h.resting hc').put e
  · have howned := h.inv.owned
    unfold Owned at howned
    have hc : s.queue.queue.created = false := by
      rcases ho with ho | ho | ho <;> (dsimp only at ho; rw [ho] at howned)
      · exact howned.2.1
      · exact howned.2.2.1
      · exact howned.2.2.1
    obtain ⟨e, rfl⟩ := hdown hc
    exact h.empty ho

theorem Ready.next (h : Ready s) (hempty : CreatesEmpty s l)
    (hstep : s.next tOnEvent l = some s') : Ready s' := by
  have hinv := inv_step h.inv hstep
  have howned := h.inv.owned
  unfold Owned at howned
  cases moves_of_next hstep with
  | createTwice | destroyNone | stopNone => exact h
  | create ho hc =>
      refine ⟨hinv, h.settled, h.resting, fun _ => hempty hc, (fun hl => by cases hl),
        (fun hd => by simp at hd), fun _ => ?_, .create 0 1, (fun hd => by simp at hd),
        h.sync2.create⟩
      exact (XLSemaPhore.Open.of_not_created (h.closed (Or.inr (Or.inr ⟨ho, hc⟩)))).create
  | destroy ho hc hh =>
      refine ⟨hinv, h.settled, h.resting, (fun hd => by simp at hd), fun hl => ?_, fun _ => hh,
        h.sync1, h.shut, (fun hd => by simp at hd), h.sync2⟩
      exact absurd (hc.symm.trans (h.begun hl).2) (by decide)
  | destroyBare ho hc hh =>
      rw [ho, hc, hh] at howned
      cases howned.1
  | spawned ho =>
      refine ⟨hinv, h.settled, h.resting, fun _ => h.empty (Or.inl ho), fun hl => ?_,
        (fun hd => by simp at hd), h.sync1, h.shut, (fun hd => by simp at hd), h.sync2⟩
      exact absurd (ho.symm.trans (h.begun hl).1) (by decide)
  | handled ho =>
      refine ⟨hinv, h.settled, h.resting, fun _ => h.empty (Or.inr (Or.inl ho)), fun hl => ?_,
        (fun hd => by simp at hd), fun hl => (h.sync1 hl).give, h.shut.give,
        (fun hd => by simp at hd), h.sync2⟩
      exact absurd (ho.symm.trans (h.begun hl).1) (by decide)
  | given ho hq =>
      rw [ho] at howned
      have hnil := h.empty (Or.inr (Or.inr ho))
      have hdown := h.inv.kept.down howned.2.2.1
      have hsettled := ((h.resting hdown.created).settled hdown.created hnil).created hdown
      refine ⟨hinv, fun _ => hsettled, fun hc => ?_, (fun hd => by simp at hd), fun hl => ?_,
        (fun hd => by simp at hd), h.sync1, h.shut, (fun hd => by simp at hd), h.sync2⟩
      · simp only [QueueRun.created, QueueRun.create_down hdown] at hc
        cases hc
      · exact absurd (ho.symm.trans (h.begun hl).1) (by decide)
  | undo ho hq =>
      rw [ho] at howned
      rw [QueueRun.create_down (h.inv.kept.down howned.2.2.1)] at hq
      cases hq
  | queued ho =>
      refine ⟨hinv, h.settled, h.resting, (fun hd => by simp at hd), fun hl => ?_,
        (fun hd => by simp at hd), h.sync1, h.shut, (fun hd => by simp at hd), h.sync2⟩
      exact absurd (ho.symm.trans (h.begun hl).1) (by decide)
  | @taking undo sync2 ho =>
      have hh := h.handle ⟨undo, Or.inl ho⟩
      have htaken : sync2.created = false := by
        simp only [XLEventThread.next, ownerStep, ho, Option.map_eq_some_iff] at hstep
        obtain ⟨taken, -, heq⟩ := hstep
        have hsync := congrArg (fun u => u.sync2) heq
        dsimp only at hsync
        rw [← hsync]
        exact XLSemaPhore.destroy_created taken
      refine ⟨hinv, h.settled, h.resting, (fun hd => by simp at hd), fun hl => ?_, fun _ => hh,
        fun _ => .of_not_created (XLSemaPhore.destroy_created _), h.shut.destroy,
        fun _ => XLSemaPhore.destroy_created _, .of_not_created htaken⟩
      exact absurd (ho.symm.trans (h.begun hl).1) (by simp)
  | @joining undo ho hl =>
      rw [ho] at howned
      obtain ⟨rfl, hc, -⟩ := howned
      refine ⟨hinv, h.settled, h.resting, (fun hd => by simp at hd), fun hl' => ?_,
        (fun hd => by simp at hd), h.sync1, h.shut, fun _ => h.closed (Or.inl ⟨false, ho⟩),
        h.sync2⟩
      exact absurd (hl.symm.trans hl') (by decide)
  | joined ho hputs =>
      rw [ho] at howned
      obtain ⟨hlive, -⟩ := h.inv.kept.live howned.2.1
      have hgone : s.loop.gone = true := howned.2.2
      have hresting := (h.settled howned.2.1).destroyed hlive (putsReturned_iff.mp hputs)
        (h.inv.getting.closed fun j hj => by rw [hj] at hgone; cases hgone)
      refine ⟨hinv, fun hc => ?_, fun _ => hresting, (fun hd => by simp at hd), fun _ => ⟨rfl, rfl⟩,
        (fun hd => by simp at hd), h.sync1, h.shut, fun _ => h.closed (Or.inr (Or.inl ho)),
        h.sync2⟩
      simp [XLEventQueue.destroy, hlive.created] at hc
  | tested hl =>
      exact ⟨hinv, h.settled, h.resting, h.empty, (fun hl => by cases hl), h.handle,
        fun _ => h.sync1 (Or.inl hl), h.shut, h.closed, h.sync2⟩
  | taken hl hpass =>
      exact h.moveLoop hinv rfl rfl rfl rfl (by simp) rfl (h.shut.raise hpass) h.sync2
  | synced hl =>
      refine h.moveLoop hinv rfl rfl rfl rfl ?_ rfl h.shut h.sync2
      dsimp only
      split <;> simp
  | ungated | enter | early | stopped | got | gotNone | exitEvent | dispatch =>
      exact h.moveLoop hinv rfl rfl rfl rfl (by simp) rfl h.shut h.sync2
  | leave => exact h.moveLoop hinv rfl rfl rfl rfl (by simp) rfl h.shut h.sync2.give
  | get hl he =>
      have hc := h.inv.owned.live (by rw [hl]; rfl)
      refine ⟨hinv, fun _ => (h.settled hc).callGet h.inv.kept hc, fun hc' => ?_, h.empty,
        (fun hl => by cases hl), h.handle, (fun hl => by simp at hl), h.shut, h.closed, h.sync2⟩
      exact absurd (hc.symm.trans hc') (by decide)
  | stop hc => exact h.queue (by simp : QueueStep.put exitLoopEvent ≠ .get) rfl hinv
  | queue hl hq => exact h.queue hl hq hinv

theorem Ready.exec {ls : List EventThreadStep} (h : Ready s)
    (hempty : Along (XLEventThread.next tOnEvent) CreatesEmpty s ls)
    (hrun : Runs.exec (XLEventThread.next tOnEvent) s ls = some s') : Ready s' :=
  exec_invariant_along (fun _ _ _ hu hl hstep => Ready.next hu hl hstep) h hempty hrun

end XLEventThread

end ServClient
