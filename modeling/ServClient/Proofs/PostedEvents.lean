/-
The events of one kind that an event queue still owes its thread.

An event counts as posted from the moment its `Put` is entered.  A step of the calls in progress
leaves the count alone, except that a push which finds the queue full takes one away.
-/
import ServClient.Proofs.EventThread

namespace ServClient

/-! ### The events a queue still owes

The events of one kind that are still to be handled: pushed, or about to be.  This is what a thread
that waits for such an event has to count on.
-/

/-- It has not pushed yet. -/
def PutPc.beforePush : PutPc → Bool
  | entered | locked | copied => true
  | _ => false

namespace QueueRun

variable {α : Type} {p : α → Bool} {q q' : QueueRun α} {l : QueueStep α}

/-- The calls in progress that are about to push an event of this kind. -/
def unpushed (p : α → Bool) (q : QueueRun α) : Nat :=
  q.puts.countP fun c => p c.event && c.pc.beforePush

/-- The events of this kind pushed, or about to be. -/
def posted (p : α → Bool) (q : QueueRun α) : Nat :=
  (q.pushed.map Prod.snd).countP p + q.unpushed p

/-- If this step pushes an event of this kind, there is room. -/
def HasRoomFor (p : α → Bool) (q : QueueRun α) : QueueStep α → Prop
  | .putPush i => (q.puts[i]?.any fun c => p c.event) = true →
      q.queue.q.pending.length < q.queue.q.maxSize
  | _ => True

instance : ∀ l, Decidable (HasRoomFor p q l)
  | .putPush _ => inferInstanceAs (Decidable (_ → _))
  | .put _ | .putLock _ | .putCopy _ | .putUnlock _ | .putGive _
  | .get | .getTake _ | .getLock _ | .getPop _ | .getUnlock _ => isTrue trivial

theorem posted_put (e : α) (pc : PutPc) :
    ({ q with puts := q.puts ++ [⟨e, pc⟩] } : QueueRun α).posted p =
      q.posted p + if p e && pc.beforePush then 1 else 0 := by
  rw [posted, unpushed, Calls.countP_concat, ← Nat.add_assoc]
  rfl

/-- One call goes on, without a push. -/
theorem posted_set {i : Nat} {c c' : PutCall α} (hi : q.puts[i]? = some c)
    (hputs : q'.puts = q.puts.set i c') (hpushed : q'.pushed = q.pushed)
    (hsame : (p c'.event && c'.pc.beforePush) = (p c.event && c.pc.beforePush)) :
    q'.posted p = q.posted p := by
  rw [posted, posted, unpushed, unpushed, hputs, hpushed, Calls.countP_set_same hi hsame]

/-- One call leaves those that are about to push. -/
theorem unpushed_set {i : Nat} {e : α} {pc : PutPc} (hi : q.puts[i]? = some ⟨e, .copied⟩)
    (hputs : q'.puts = q.puts.set i ⟨e, pc⟩) (hpc : pc.beforePush = false) (hp : p e = true) :
    q'.unpushed p + 1 = q.unpushed p := by
  rw [unpushed, unpushed, hputs]
  exact Calls.countP_set_leave hi (by rw [hp]; rfl) (by rw [hpc, Bool.and_false])

/-- A step of the calls in progress: one less where an event is turned away. -/
theorem Moves.posted (h : Moves q l q') (hs : Exclusive q) (hl : l.inside = true) :
    (HasRoomFor p q l → q'.posted p = q.posted p) ∧
      (¬ HasRoomFor p q l → q'.posted p + 1 = q.posted p) := by
  cases h with
  | put | get => cases hl
  | putLock hi | putCopy hi | putUnlock hi | putFail hi | putGive hi =>
      exact ⟨fun _ => posted_set hi rfl rfl rfl, fun hno => absurd trivial hno⟩
  | @accept i e hi hroom =>
      refine ⟨fun _ => ?_, fun hno => absurd (fun _ => hroom) hno⟩
      rw [QueueRun.posted, QueueRun.posted, hs.copied i _ hi rfl, List.map_append,
        List.map_singleton, Calls.countP_concat]
      cases hp : p e with
      | true =>
          rw [if_pos rfl, Nat.add_assoc, Nat.add_comm 1, unpushed_set hi rfl rfl hp]
      | false =>
          rw [unpushed, unpushed, Calls.countP_set_same hi (by simp [hp])]
          rfl
  | @refuse i e hi hfull =>
      cases hp : p e with
      | true =>
          refine ⟨fun hroom => absurd (hroom (by simp [hi, hp])) hfull, fun _ => ?_⟩
          rw [QueueRun.posted, Nat.add_assoc, unpushed_set hi rfl rfl hp]
          rfl
      | false =>
          refine ⟨fun _ => posted_set hi rfl rfl (by simp [hp]),
            fun hno => absurd (fun hany => ?_) hno⟩
          simp [hi, hp] at hany
  | getTake | getLock | getPop | getMiss | getUnlock =>
      exact ⟨fun _ => rfl, fun hno => absurd trivial hno⟩

/-- What is pending stays within the bound. -/
theorem Moves.pending_le {bound : Nat} (h : Moves q l q') (hbound : q.queue.q.maxSize ≤ bound)
    (hs : q.queue.q.pending.length ≤ bound) : q'.queue.q.pending.length ≤ bound := by
  cases h with
  | put | putLock | putCopy | putUnlock | putFail | putGive | get | getTake | getLock | getMiss
  | getUnlock => exact hs
  | accept hi hroom =>
      rw [(XLLFQ.push_room hroom _).2, List.length_append]
      exact Nat.le_trans hroom hbound
  | refuse hi hfull =>
      rw [(XLLFQ.push_full hfull _).2]
      exact hs
  | getPop hi hpop =>
      rw [XLLFQ.pop_eq_some hpop] at hs
      exact Nat.le_of_succ_le hs

/-- The bound of the queue of a thread. -/
structure Sized (q : QueueRun α) : Prop where
  config : q.queue.maxSize = eventQueueConfigMaxSize
  bound : q.queue.created = true → q.queue.q.maxSize = 256
  pending : q.queue.q.pending.length ≤ 256

end QueueRun

namespace XLEventThread

variable {σ : Type} {tOnEvent : σ → XLThreadEvent → σ} {s s' : XLEventThread σ}
  {l : EventThreadStep}

/-- `Destroy` has not been called. -/
def Up (s : XLEventThread σ) : Prop :=
  (∀ undo, s.owner ≠ .taking undo ∧ s.owner ≠ .joining undo) ∧ s.owner ≠ .joined

/-- What `Create` and the loop keep of the queue. -/
structure Still (s s' : XLEventThread σ) : Prop where
  up : Up s'
  sized : s'.queue.Sized
  puts : s'.queue.puts = s.queue.puts
  pushed : s'.queue.pushed = s.queue.pushed
  created : s.queue.queue.created = true → s'.queue.queue.created = true

theorem Moves.still (h : Moves tOnEvent s l s') (hs : Inv s) (hup : Up s) (hsized : s.queue.Sized)
    (hl : l = .create ∨ l = .owner ∨ l = .loop) : Still s s' := by
  cases h with
  | destroy | destroyBare | destroyNone | stop | stopNone | queue => simp at hl
  | createTwice | tested | ungated | taken | synced | enter | early | stopped | got | gotNone
  | exitEvent | dispatch | leave => exact ⟨hup, hsized, rfl, rfl, id⟩
  | create | spawned | handled | queued => exact ⟨by simp [Up], hsized, rfl, rfl, id⟩
  | given ho hq =>
      have hdown := hs.kept.down (hs.owned.noQueue ho)
      have hcreate := QueueRun.create_down hdown eventQueueProperties
      refine ⟨by simp [Up], ?_, rfl, rfl, fun hc => ?_⟩
      · simp only [QueueRun.created, hcreate]
        refine ⟨hsized.config, fun _ => ?_, hsized.pending⟩
        rw [XLLFQ.setMaxSize, hsized.config]
        rfl
      · simp only [QueueRun.created, hcreate]
  | undo ho hq =>
      rw [QueueRun.create_down (hs.kept.down (hs.owned.noQueue ho))] at hq
      cases hq
  | taking ho => exact absurd ho (hup.1 _).1
  | joining ho => exact absurd ho (hup.1 _).2
  | joined ho => exact absurd ho hup.2
  | get hl he =>
      refine ⟨hup, ⟨hsized.config, hsized.bound, hsized.pending⟩, rfl, rfl, id⟩

theorem inHand_length_le (s : XLEventThread σ) : s.inHand.length ≤ 1 := by
  unfold inHand
  split
  · exact Option.length_toList_le
  · exact Nat.le_refl 1
  · split <;> simp

end XLEventThread

end ServClient
