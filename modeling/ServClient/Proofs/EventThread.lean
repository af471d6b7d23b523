/-
What the loop of an event thread hands to `t_OnEvent`, in any life and any interleaving.

The loop takes one event at a time out of the queue: what was accepted is what was
dispatched, then the event the loop has in hand, then what is pending
(`Inv.accepted_eq`).  No event dispatched is an `Exit`, and the loop ends with an `Exit` in
hand that it never lets go of.  The law of dispatch is read off from that equation.
-/
import ServClient.Proofs.QueueLives

namespace ServClient

open Runs

/-! ### What one step can do -/

namespace XLEventThread

variable {σ : Type} {tOnEvent : σ → XLThreadEvent → σ}

/-- What one step can do, with what it finds. -/
inductive Moves (tOnEvent : σ → XLThreadEvent → σ) (s : XLEventThread σ) :
    EventThreadStep → XLEventThread σ → Prop
  | create (ho : s.owner = .idle) (hc : s.created = false) :
      Moves tOnEvent s .create { s with
        sync1 := s.sync1.create 0 1
        sync2 := s.sync2.create 0 1
        loop := .started
        owner := .spawned
        entered := false
        pushedBefore := s.queue.pushed.length
        dispatchedBefore := s.dispatched.length }
  | createTwice (hc : s.created = true) : Moves tOnEvent s .create s
  | destroy (ho : s.owner = .idle) (hc : s.created = true) (hh : s.handle = true) :
      Moves tOnEvent s .destroy { s with owner := .taking false }
  | destroyBare (ho : s.owner = .idle) (hc : s.created = true) (hh : s.handle = false) :
      Moves tOnEvent s .destroy { s with owner := .joined }
  | destroyNone (hc : s.created = false) : Moves tOnEvent s .destroy s
  | spawned (ho : s.owner = .spawned) :
      Moves tOnEvent s .owner { s with handle := true, owner := .handled }
  | handled (ho : s.owner = .handled) :
      Moves tOnEvent s .owner { s with sync1 := s.sync1.give, owner := .given }
  | given (ho : s.owner = .given) (hq : (s.queue.queue.create eventQueueProperties).2 = true) :
      Moves tOnEvent s .owner { s with
        queue := s.queue.created eventQueueProperties, owner := .queued }
  | undo (ho : s.owner = .given) (hq : (s.queue.queue.create eventQueueProperties).2 = false) :
      Moves tOnEvent s .owner { s with owner := .taking true }
  | queued (ho : s.owner = .queued) :
      Moves tOnEvent s .owner { s with created := true, owner := .idle }
  | taking {undo sync2} (ho : s.owner = .taking undo) :
      Moves tOnEvent s .owner { s with
        sync1 := s.sync1.destroy, sync2 := sync2, owner := .joining undo }
  | joining {undo} (ho : s.owner = .joining undo) (hl : s.loop = .ended) :
      Moves tOnEvent s .owner { s with
        handle := false, owner := if undo then .idle else .joined }
  | joined (ho : s.owner = .joined) (hputs : s.putsReturned = true) :
      Moves tOnEvent s .owner { s with
        queue := { s.queue with queue := s.queue.queue.destroy }, created := false, owner := .idle }
  | tested (hl : s.loop = .started) (hs : s.sync1.created = true) :
      Moves tOnEvent s .loop { s with loop := .taking }
  | ungated (hl : s.loop = .started) (hs : s.sync1.created = false) :
      Moves tOnEvent s .loop { s with loop := .synced }
  | taken (hl : s.loop = .taking) (hs : s.sync1.Passes) :
      Moves tOnEvent s .loop { s with sync1 := s.sync1.raise, loop := .synced }
  | synced (hl : s.loop = .synced) :
      Moves tOnEvent s .loop { s with loop := if s.handle then .running else .leaving }
  | enter (hl : s.loop = .running) (hc : s.created = true) :
      Moves tOnEvent s .loop { s with loop := .testing, entered := true }
  | early (hl : s.loop = .running) (hc : s.created = false) :
      Moves tOnEvent s .loop { s with loop := .leaving }
  | stopped (hl : s.loop = .testing) (he : s.exit = true) :
      Moves tOnEvent s .loop { s with loop := .leaving }
  | get (hl : s.loop = .testing) (he : s.exit = false) :
      Moves tOnEvent s .loop { s with
        queue := s.queue.callGet, loop := .getting s.queue.gets.length }
  | got {j out} (hl : s.loop = .getting j) (hj : s.queue.gets[j]? = some ⟨.returned true, out⟩) :
      Moves tOnEvent s .loop { s with event := out.getD s.event, loop := .handling }
  | gotNone {j out} (hl : s.loop = .getting j)
      (hj : s.queue.gets[j]? = some ⟨.returned false, out⟩) :
      Moves tOnEvent s .loop { s with exit := true, loop := .testing }
  | exitEvent (hl : s.loop = .handling) (he : s.event.iType = eventThreadEventTypeExit) :
      Moves tOnEvent s .loop { s with exit := true, loop := .testing }
  | dispatch (hl : s.loop = .handling) (he : s.event.iType ≠ eventThreadEventTypeExit) :
      Moves tOnEvent s .loop { s with
        self := tOnEvent s.self s.event
        loop := .testing
        dispatched := s.dispatched ++ [s.event] }
  | leave (hl : s.loop = .leaving) :
      Moves tOnEvent s .loop { s with sync2 := s.sync2.give, loop := .ended }
  | stop (hc : s.created = true) :
      Moves tOnEvent s .stopMainLoop { s with queue := s.queue.callPut exitLoopEvent }
  | stopNone (hc : s.created = false) : Moves tOnEvent s .stopMainLoop s
  | queue {l q} (hl : l ≠ .get) (hq : s.queue.next l = some q) :
      Moves tOnEvent s (.queue l) { s with queue := q }

theorem moves_of_next {s s' : XLEventThread σ} {l : EventThreadStep}
    (h : s.next tOnEvent l = some s') : Moves tOnEvent s l s' := by
  cases l with
  | create =>
      simp only [next, create] at h
      split at h
      · rename_i ho
        split at h
        · rename_i hc; cases h; exact .createTwice hc
        · rename_i hc; cases h; exact .create ho (by simpa using hc)
      · cases h
  | destroy =>
      simp only [next, destroy] at h
      split at h
      · rename_i ho
        split at h
        · rename_i hc
          split at h
          · rename_i hh; cases h; exact .destroy ho hc hh
          · rename_i hh; cases h; exact .destroyBare ho hc (by simpa using hh)
        · rename_i hc; cases h; exact .destroyNone (by simpa using hc)
      · cases h
  | owner =>
      simp only [next, ownerStep] at h
      split at h
      · cases h
      · rename_i ho; cases h; exact .spawned ho
      · rename_i ho; cases h; exact .handled ho
      · rename_i ho
        split at h
        · rename_i hq; cases h; exact .given ho hq
        · rename_i hq; cases h; exact .undo ho (Bool.eq_false_iff.mpr hq)
      · rename_i ho; cases h; exact .queued ho
      · rename_i undo ho
        obtain ⟨sync2, -, rfl⟩ := Option.map_eq_some_iff.mp h
        exact .taking ho
      · rename_i undo ho
        split at h
        · rename_i hl; cases h; exact .joining ho hl
        · cases h
      · rename_i ho
        split at h
        · rename_i hputs; cases h; exact .joined ho hputs
        · cases h
  | loop =>
      simp only [next, loopStep] at h
      split at h
      · cases h
      · cases h
      · rename_i hl
        split at h
        · rename_i hs; cases h; exact .tested hl hs
        · rename_i hs; cases h; exact .ungated hl (by simpa using hs)
      · rename_i hl
        split at h
        · rename_i hs; cases h; exact .taken hl hs
        · cases h
      · rename_i hl; cases h; exact .synced hl
      · rename_i hl
        split at h
        · rename_i hc; cases h; exact .enter hl hc
        · rename_i hc; cases h; exact .early hl (by simpa using hc)
      · rename_i hl
        split at h
        · rename_i he; cases h; exact .stopped hl he
        · rename_i he; cases h; exact .get hl (by simpa using he)
      · rename_i j hl
        split at h
        · rename_i hj; cases h; exact .got hl hj
        · rename_i hj; cases h; exact .gotNone hl hj
        · cases h
      · rename_i hl
        simp only [onEvent] at h
        split at h
        · rename_i he; cases h; exact .exitEvent hl he
        · rename_i he; cases h; exact .dispatch hl he
      · rename_i hl; cases h; exact .leave hl
  | stopMainLoop =>
      simp only [next] at h
      split at h
      · rename_i hc; cases h; exact .stop hc
      · rename_i hc; cases h; exact .stopNone (by simpa using hc)
  | queue l =>
      by_cases hl : l = .get
      · rw [hl] at h
        cases h
      · have hnext : (s.queue.next l).map (fun queue => { s with queue := queue }) = some s' := by
          cases l with
          | get => exact absurd rfl hl
          | put | putLock | putCopy | putPush | putUnlock | putGive | getTake | getLock | getPop
          | getUnlock => exact h
        obtain ⟨q, hq, rfl⟩ := Option.map_eq_some_iff.mp hnext
        exact .queue hl hq

/-! ### Who has created what

Two threads share an event thread object: its owner, in `Create`, `Stop` and `Destroy`, and its
loop.  The flags `mCreated`, `m_handle` and the queue's `mCreated` are written by the owner alone,
so each place of the owner determines them.
-/

end XLEventThread

/-- Between `RunProgram` and the end of its loop. -/
def LoopPc.inLoop : LoopPc → Bool
  | testing | getting _ | handling => true
  | _ => false

/-- There is no thread, or it has returned. -/
def LoopPc.gone : LoopPc → Bool
  | off | ended => true
  | _ => false

/-- What `mCreated`, `m_handle`, the queue's `mCreated` and the loop are where the owner is. -/
def OwnerPc.Keeps (created handle queueCreated : Bool) (loop : LoopPc) : OwnerPc → Prop
  | idle => if created then handle = true ∧ queueCreated = true
      else queueCreated = false ∧ loop.gone = true
  | spawned => created = false ∧ queueCreated = false ∧ loop.inLoop = false
  | handled | given => created = false ∧ handle = true ∧ queueCreated = false ∧ loop.inLoop = false
  | queued => created = false ∧ handle = true ∧ queueCreated = true ∧ loop.inLoop = false
  | taking undo | joining undo => undo = false ∧ created = true ∧ queueCreated = true
  | joined => created = true ∧ queueCreated = true ∧ loop.gone = true

namespace OwnerPc.Keeps

variable {created handle queueCreated : Bool} {loop loop' : LoopPc} {owner : OwnerPc}

/-- The queue is there for the loop. -/
theorem live (h : owner.Keeps created handle queueCreated loop) (hin : loop.inLoop = true) :
    queueCreated = true := by
  have hgone : loop.gone = false := by
    cases loop with
    | testing | getting | handling => rfl
    | off | started | taking | synced | running | leaving | ended => cases hin
  cases owner with
  | idle =>
      cases created with
      | true => exact h.2
      | false => exact absurd (h.2.symm.trans hgone) (by decide)
  | spawned => exact absurd (h.2.2.symm.trans hin) (by decide)
  | handled | given | queued => exact absurd (h.2.2.2.symm.trans hin) (by decide)
  | taking | joining => exact h.2.2
  | joined => exact h.2.1

/-- The loop's thread goes on. -/
theorem move (h : owner.Keeps created handle queueCreated loop) (hgone : loop.gone = false)
    (hin : loop'.inLoop = true → loop.inLoop = true ∨ created = true) :
    owner.Keeps created handle queueCreated loop' := by
  have hout : loop.inLoop = false → created = false → loop'.inLoop = false := by
    intro hl hc
    by_contra hin'
    rcases hin (by simpa using hin') with h | h
    · exact absurd (h.symm.trans hl) (by decide)
    · exact absurd (h.symm.trans hc) (by decide)
  cases owner with
  | idle =>
      cases created with
      | true => exact h
      | false => exact absurd (h.2.symm.trans hgone) (by decide)
  | spawned => exact ⟨h.1, h.2.1, hout h.2.2 h.1⟩
  | handled | given | queued => exact ⟨h.1, h.2.1, h.2.2.1, hout h.2.2.2 h.1⟩
  | taking | joining => exact h
  | joined => exact absurd (h.2.2.symm.trans hgone) (by decide)

end OwnerPc.Keeps

namespace XLEventThread

variable {σ : Type} {tOnEvent : σ → XLThreadEvent → σ} {s s' : XLEventThread σ}
  {l : EventThreadStep}

/-- The flags are those of the place the owner is at. -/
def Owned (s : XLEventThread σ) : Prop :=
  s.owner.Keeps s.created s.handle s.queue.queue.created s.loop

/-- In a life, with its owner in no call. -/
theorem Owned.up (h : Owned s) (ho : s.owner = .idle) (hc : s.created = true) :
    s.handle = true ∧ s.queue.queue.created = true := by
  unfold Owned at h
  rw [ho, hc] at h
  exact h

/-- Between two lives. -/
theorem Owned.down (h : Owned s) (ho : s.owner = .idle) (hc : s.created = false) :
    s.queue.queue.created = false ∧ s.loop.gone = true := by
  unfold Owned at h
  rw [ho, hc] at h
  exact h

/-- `Create` has not come to the queue. -/
theorem Owned.noQueue (h : Owned s) (ho : s.owner = .given) : s.queue.queue.created = false := by
  unfold Owned at h
  rw [ho] at h
  exact h.2.2.1

/-- `Destroy` waits for the thread. -/
theorem Owned.waits (h : Owned s) {undo : Bool}
    (ho : s.owner = .taking undo ∨ s.owner = .joining undo) :
    undo = false ∧ s.created = true ∧ s.queue.queue.created = true := by
  unfold Owned at h
  rcases ho with ho | ho
  · rw [ho] at h
    exact h
  · rw [ho] at h
    exact h

/-- `join` has returned. -/
theorem Owned.joined (h : Owned s) (ho : s.owner = .joined) :
    s.created = true ∧ s.queue.queue.created = true ∧ s.loop.gone = true := by
  unfold Owned at h
  rw [ho] at h
  exact h

theorem Moves.owned (h : Moves tOnEvent s l s') (hk : s.queue.Kept) (hs : Owned s) :
    Owned s' := by
  have hs' := hs
  unfold Owned at hs ⊢
  cases h with
  | create ho hc =>
      rw [ho, hc] at hs
      exact ⟨hc, hs.1, rfl⟩
  | createTwice | destroyNone | stopNone => exact hs
  | destroy ho hc hh =>
      rw [ho, hc] at hs
      exact ⟨rfl, hc, hs.2⟩
  | destroyBare ho hc hh =>
      rw [ho, hc, hh] at hs
      cases hs.1
  | spawned ho =>
      rw [ho] at hs
      exact ⟨hs.1, rfl, hs.2.1, hs.2.2⟩
  | handled ho =>
      rw [ho] at hs
      exact hs
  | given ho hq =>
      rw [ho] at hs
      refine ⟨hs.1, hs.2.1, ?_, hs.2.2.2⟩
      simp only [QueueRun.created, QueueRun.create_down (hk.down hs.2.2.1)]
  | undo ho hq =>
      rw [ho] at hs
      rw [QueueRun.create_down (hk.down hs.2.2.1)] at hq
      cases hq
  | queued ho =>
      rw [ho] at hs
      exact ⟨hs.2.1, hs.2.2.1⟩
  | taking ho =>
      rw [ho] at hs
      exact hs
  | joining ho hl =>
      rw [ho] at hs
      obtain ⟨rfl, hc, hq⟩ := hs
      exact ⟨hc, hq, by rw [hl]; rfl⟩
  | joined ho hputs =>
      rw [ho] at hs
      refine ⟨?_, hs.2.2⟩
      simp [XLEventQueue.destroy, hs.2.1]
  | tested hl | ungated hl | taken hl | leave hl =>
      exact hs.move (by rw [hl]; rfl) (fun hin => by cases hin)
  | synced hl =>
      refine hs.move (by rw [hl]; rfl) (fun hin => ?_)
      split at hin <;> cases hin
  | enter hl hc => exact hs.move (by rw [hl]; rfl) fun _ => Or.inr hc
  | early hl | stopped hl => exact hs.move (by rw [hl]; rfl) (fun hin => by cases hin)
  | get hl | got hl | gotNone hl | exitEvent hl | dispatch hl =>
      exact hs.move (by rw [hl]; rfl) fun _ => Or.inl (by rw [hl]; rfl)
  | stop hc => exact hs
  | queue hl hq =>
      show s.owner.Keeps _ _ _ _
      rw [QueueRun.created_next hk hl hq]
      exact hs

/-! ### The loop's call of `Get`

Only the loop calls `Get`, and one call at a time.  So of all calls in the queue the last `Get` is
the loop's, and the others have returned.
-/

/-- The loop is in one call of `Get` at most, and nobody else is in any. -/
structure Getting (s : XLEventThread σ) : Prop where
  others : ∀ (j : Nat) (g : GetCall XLThreadEvent), s.queue.gets[j]? = some g →
    s.loop ≠ .getting j → ∃ b, g.pc = .returned b
  own : ∀ j, s.loop = .getting j →
    ∃ g, s.queue.gets[j]? = some g ∧ g.pc ≠ .returned false

/-- The loop is not in `Get`, and no call is open. -/
theorem Getting.idle (h : ∀ (j : Nat) (g : GetCall XLThreadEvent), s.queue.gets[j]? = some g →
    ∃ b, g.pc = .returned b) (hl : ∀ j, s.loop ≠ .getting j) : Getting s where
  others := fun j g hj _ => h j g hj
  own := fun j hj => absurd hj (hl j)

theorem Getting.closed (h : Getting s) (hl : ∀ j, s.loop ≠ .getting j) :
    ∀ (j : Nat) (g : GetCall XLThreadEvent), s.queue.gets[j]? = some g →
      ∃ b, g.pc = .returned b :=
  fun j g hj => h.others j g hj (hl j)

/-- A call of `Get` that goes on is the loop's. -/
theorem Getting.isOwn (h : Getting s) {i : Nat} {g : GetCall XLThreadEvent}
    (hi : s.queue.gets[i]? = some g) (hpc : ∀ b, g.pc ≠ .returned b) : s.loop = .getting i := by
  by_contra hne
  obtain ⟨b, hb⟩ := h.others i g hi hne
  exact hpc b hb

theorem Getting.set (h : Getting s) {i : Nat} {g g' : GetCall XLThreadEvent}
    {q : QueueRun XLThreadEvent} (hi : s.queue.gets[i]? = some g)
    (hpc : ∀ b, g.pc ≠ .returned b) (hgets : q.gets = s.queue.gets.set i g')
    (hpc' : g'.pc ≠ .returned false) : Getting { s with queue := q } := by
  have hown := h.isOwn hi hpc
  refine ⟨?_, ?_⟩
  · rw [hgets]
    exact Calls.forall_set hi (fun hne => absurd hown hne) fun j c _ hj => h.others j c hj
  · intro j hj
    cases hown.symm.trans hj
    rw [hgets]
    exact ⟨g', List.getElem?_set_self (Calls.lt_of_getElem?_eq_some hi), hpc'⟩

theorem Moves.getting (h : Moves tOnEvent s l s') (hk : s.queue.Kept) (ho : Owned s)
    (hs : Getting s) : Getting s' := by
  cases h with
  | createTwice | destroy | destroyBare | destroyNone | spawned | handled | given | undo
  | queued | taking | joining | joined | stop | stopNone => exact ⟨hs.others, hs.own⟩
  | create hidle hc =>
      obtain ⟨-, hgone⟩ := ho.down hidle hc
      exact Getting.idle (hs.closed fun j hj => by rw [hj] at hgone; cases hgone) (by simp)
  | tested hl | ungated hl | taken hl | enter hl | early hl | stopped hl | exitEvent hl
  | dispatch hl | leave hl =>
      exact Getting.idle (hs.closed (by simp [hl])) (by simp)
  | synced hl =>
      refine Getting.idle (hs.closed (by simp [hl])) (fun j => ?_)
      dsimp only
      split <;> simp
  | get hl =>
      have hlive := (hk.live (ho.live (by rw [hl]; rfl))).1
      have hget : s.queue.callGet =
          { s.queue with gets := s.queue.gets ++ [⟨.entered, none⟩] } := by
        simp [QueueRun.callGet, hlive.created]
      have hclosed := hs.closed (by simp [hl])
      rw [hget]
      refine ⟨Calls.forall_concat (fun hne => absurd rfl hne) fun j g hj _ => hclosed j g hj, ?_⟩
      intro j hj
      cases hj
      exact ⟨⟨.entered, none⟩, by simp, by simp⟩
  | got hl hj | gotNone hl hj =>
      refine Getting.idle (fun i g hi => ?_) (by simp)
      rename_i k _
      by_cases hik : i = k
      · subst hik
        cases hi.symm.trans hj
        exact ⟨_, rfl⟩
      · exact hs.others i g hi (by rw [hl]; simpa using Ne.symm hik)
  | queue hl hq =>
      cases hk.getMoves hl hq with
      | same hgets hpopped =>
          refine ⟨?_, ?_⟩
          · dsimp only
            rw [hgets]
            exact hs.others
          · dsimp only
            rw [hgets]
            exact hs.own
      | move i g g' hi hpc hgets hpc' => exact hs.set hi hpc hgets hpc'
      | pop i g g' e hi hpc hgets hpc' => exact hs.set hi hpc hgets hpc'

/-! ### The queue -/

theorem putsReturned_iff : s.putsReturned = true ↔
    ∀ (i : Nat) (c : PutCall XLThreadEvent), s.queue.puts[i]? = some c →
      ∃ b, c.pc = .returned b := by
  rw [putsReturned, List.all_eq_true]
  constructor
  · intro h i c hi
    have hc := h c (List.mem_of_getElem? hi)
    split at hc
    · rename_i b hpc
      exact ⟨b, hpc⟩
    · cases hc
  · intro h c hc
    obtain ⟨i, hi⟩ := List.mem_iff_getElem?.mp hc
    obtain ⟨b, hb⟩ := h i c hi
    rw [hb]

theorem Moves.kept (h : Moves tOnEvent s l s') (ho : Owned s) (hg : Getting s)
    (hk : s.queue.Kept) : s'.queue.Kept := by
  cases h with
  | create | createTwice | destroy | destroyBare | destroyNone | spawned | handled | undo | queued
  | taking | joining | tested | ungated | taken | synced | enter | early | stopped | got | gotNone
  | exitEvent | dispatch | leave | stopNone => exact hk
  | given hgiven => exact hk.created (hk.down (ho.noQueue hgiven)) (by decide)
  | joined hjoined hputs =>
      obtain ⟨-, -, hgone⟩ := ho.joined hjoined
      exact hk.destroyed (putsReturned_iff.mp hputs)
        (hg.closed fun j hj => by rw [hj] at hgone; cases hgone)
  | get hl => exact hk.callGet (ho.live (by rw [hl]; rfl))
  | stop hc => exact hk.step (l := .put exitLoopEvent) (by simp) rfl
  | queue hl hq => exact hk.step hl hq

/-! ### What the loop has in hand

An event is popped some steps before it is dispatched.  Between the two the loop has it in hand, and
the logs of the queue and of the loop differ by just that.
-/

/-- The event taken out of the queue and not dispatched.  The `Exit` that ends the loop stays
in `mEvent`. -/
def inHand (s : XLEventThread σ) : List XLThreadEvent :=
  match s.loop with
  | .getting j => (s.queue.gets[j]?.bind fun g => if g.pc.done then g.out else none).toList
  | .handling => [s.event]
  | _ => if s.exit then [s.event] else []

/-- What has been popped is what has been dispatched, but for what the loop has in hand. -/
structure Logged (s : XLEventThread σ) : Prop where
  popped : s.queue.popped.map Prod.snd = (s.dispatched ++ s.inHand).map some
  dispatched : ∀ e ∈ s.dispatched, e.iType ≠ eventThreadEventTypeExit
  exit : s.exit = true → s.event.iType = eventThreadEventTypeExit ∧
    (∀ j, s.loop ≠ .getting j) ∧ s.loop ≠ .handling
  entered : s.entered = true →
    s.loop.inLoop = true ∨ s.exit = true ∧ (s.loop = .leaving ∨ s.loop = .ended)

/-- Outside of `Get` and `OnEvent`. -/
theorem inHand_of_quiet (hget : ∀ j, s.loop ≠ .getting j) (hhandling : s.loop ≠ .handling) :
    s.inHand = if s.exit then [s.event] else [] := by
  unfold inHand
  split
  · rename_i j hj
    exact absurd hj (hget j)
  · rename_i hj
    exact absurd hj hhandling
  · rfl

/-- The loop goes on outside of `Get` and `OnEvent`. -/
theorem Logged.quiet (hs : Logged s) (hloop : (∀ j, s.loop ≠ .getting j) ∧ s.loop ≠ .handling)
    (hloop' : (∀ j, s'.loop ≠ .getting j) ∧ s'.loop ≠ .handling)
    (hpopped : s'.queue.popped = s.queue.popped) (hdispatched : s'.dispatched = s.dispatched)
    (hexit : s'.exit = s.exit) (hevent : s'.event = s.event)
    (hentered : s'.entered = true →
      s'.loop.inLoop = true ∨ s'.exit = true ∧ (s'.loop = .leaving ∨ s'.loop = .ended)) :
    Logged s' where
  popped := by
    have hhand : s'.inHand = s.inHand := by
      rw [inHand_of_quiet hloop.1 hloop.2, inHand_of_quiet hloop'.1 hloop'.2, hexit, hevent]
    rw [hpopped, hdispatched, hhand]
    exact hs.popped
  dispatched := by
    rw [hdispatched]
    exact hs.dispatched
  exit := by
    rw [hexit, hevent]
    exact fun he => ⟨(hs.exit he).1, hloop'⟩
  entered := hentered

/-- Before the loop `mCreated` has not been found set. -/
theorem Logged.not_entered (hs : Logged s) (hloop : s.loop.inLoop = false)
    (hgone : s.loop ≠ .leaving ∧ s.loop ≠ .ended) : ¬ s.entered = true := by
  intro hent
  rcases hs.entered hent with hin | ⟨-, hleaving | hended⟩
  · rw [hloop] at hin
    cases hin
  · exact hgone.1 hleaving
  · exact hgone.2 hended

/-- A call of `Put` or `Get` goes on. -/
theorem Logged.queue (hs : Logged s) (hk : s.queue.Kept) (hg : Getting s)
    {l : QueueStep XLThreadEvent} {q : QueueRun XLThreadEvent} (hl : l ≠ .get)
    (hq : s.queue.next l = some q) : Logged { s with queue := q } := by
  have hpopped := hs.popped
  refine ⟨?_, hs.dispatched, hs.exit, hs.entered⟩
  cases hk.getMoves hl hq with
  | same hgets hpop =>
      rw [inHand, hgets, hpop]
      exact hpopped
  | move i g g' hi hpc hgets hpc' hdone hout hpop =>
      have hown := hg.isOwn hi hpc
      rw [inHand, hown] at hpopped
      rw [inHand, hown, hpop, hgets]
      simp only [hi, Option.bind_some] at hpopped
      simp only [List.getElem?_set_self (Calls.lt_of_getElem?_eq_some hi), Option.bind_some,
        hdone, hout]
      exact hpopped
  | pop i g g' e hi hpc hgets hpc' hdone hdone' hout hpop =>
      have hown := hg.isOwn hi hpc
      rw [inHand, hown] at hpopped
      rw [inHand, hown, hpop, hgets]
      simp only [hi, Option.bind_some, hdone] at hpopped
      simp only [List.getElem?_set_self (Calls.lt_of_getElem?_eq_some hi), Option.bind_some,
        hdone', hout]
      simpa using hpopped

theorem Moves.logged (h : Moves tOnEvent s l s') (hk : s.queue.Kept) (ho : Owned s)
    (hg : Getting s) (hs : Logged s) : Logged s' := by
  have hpopped := hs.popped
  cases h with
  | createTwice | destroy | destroyBare | destroyNone | spawned | handled | given | undo
  | queued | taking | joining | joined | stop | stopNone =>
      exact ⟨hs.popped, hs.dispatched, hs.exit, hs.entered⟩
  | create hidle hc =>
      obtain ⟨-, hgone⟩ := ho.down hidle hc
      refine hs.quiet ⟨fun j hj => ?_, fun hj => ?_⟩ (by simp) rfl rfl rfl rfl (by simp)
      · rw [hj] at hgone
        cases hgone
      · rw [hj] at hgone
        cases hgone
  | tested hl | ungated hl | taken hl =>
      have hnot := hs.not_entered (by rw [hl]; rfl) (by simp [hl])
      exact hs.quiet (by simp [hl]) (by simp) rfl rfl rfl rfl fun hent => absurd hent hnot
  | synced hl =>
      have hnot := hs.not_entered (by rw [hl]; rfl) (by simp [hl])
      refine hs.quiet (by simp [hl]) ?_ rfl rfl rfl rfl fun hent => absurd hent hnot
      dsimp only
      split <;> simp
  | enter hl hc =>
      exact hs.quiet (by simp [hl]) (by simp) rfl rfl rfl rfl fun _ => Or.inl rfl
  | early hl hc =>
      have hnot := hs.not_entered (by rw [hl]; rfl) (by simp [hl])
      exact hs.quiet (by simp [hl]) (by simp) rfl rfl rfl rfl fun hent => absurd hent hnot
  | stopped hl he =>
      exact hs.quiet (by simp [hl]) (by simp) rfl rfl rfl rfl fun _ => Or.inr ⟨he, Or.inl rfl⟩
  | get hl he =>
      have hlive := (hk.live (ho.live (by rw [hl]; rfl))).1
      rw [inHand_of_quiet (by simp [hl]) (by simp [hl]), he] at hpopped
      refine ⟨?_, hs.dispatched, fun he' => ?_, fun _ => Or.inl rfl⟩
      · simpa [inHand, QueueRun.callGet, hlive.created, GetPc.done] using hpopped
      · exact absurd (he.symm.trans he') (by decide)
  | @got j out hl hj =>
      obtain ⟨a, ha⟩ := hk.ordered.out_some hj rfl
      dsimp only at ha
      subst ha
      have hhand : s.inHand = [a] := by simp [inHand, hl, hj, GetPc.done]
      rw [hhand] at hpopped
      exact ⟨hpopped, hs.dispatched, fun he => absurd hl ((hs.exit he).2.1 j), fun _ => Or.inl rfl⟩
  | @gotNone j out hl hj =>
      obtain ⟨g, hown, hne⟩ := hg.own j hl
      cases hown.symm.trans hj
      exact absurd rfl hne
  | exitEvent hl he =>
      have hhand : s.inHand = [s.event] := by simp [inHand, hl]
      rw [hhand] at hpopped
      exact ⟨hpopped, hs.dispatched, fun _ => ⟨he, by simp, by simp⟩, fun _ => Or.inl rfl⟩
  | dispatch hl he =>
      have hhand : s.inHand = [s.event] := by simp [inHand, hl]
      have hexit : s.exit = false := by
        by_contra hexit
        exact (hs.exit (by simpa using hexit)).2.2 hl
      rw [hhand] at hpopped
      refine ⟨?_, ?_, fun hexit' => absurd (hexit.symm.trans hexit') (by decide),
        fun _ => Or.inl rfl⟩
      · rw [inHand_of_quiet (by simp) (by simp)]
        simpa [hexit] using hpopped
      · intro e hmem
        rcases List.mem_append.mp hmem with hold | hnew
        · exact hs.dispatched e hold
        · rw [List.mem_singleton.mp hnew]
          exact he
  | leave hl =>
      refine hs.quiet (by simp [hl]) (by simp) rfl rfl rfl rfl fun hent => ?_
      have hleft := hs.entered hent
      simp only [hl, LoopPc.inLoop, Bool.false_eq_true, false_or] at hleft
      exact Or.inr ⟨hleft.1, Or.inr rfl⟩
  | queue hl hq => exact hs.queue hk hg hl hq

/-! ### Whole runs -/

/-- What every step keeps. -/
structure Inv (s : XLEventThread σ) : Prop where
  kept : s.queue.Kept
  owned : Owned s
  getting : Getting s
  logged : Logged s

theorem inv_new (self : σ) : Inv (new self) where
  kept := QueueRun.Kept.ofQueue _
  owned := ⟨rfl, rfl⟩
  getting := Getting.idle (fun j g hj => by simp [new, QueueRun.ofQueue] at hj) (by simp [new])
  logged := ⟨rfl, by simp [new], by simp [new], by simp [new]⟩

theorem inv_step (hs : Inv s) (h : s.next tOnEvent l = some s') : Inv s' := by
  have hmoves := moves_of_next h
  exact ⟨hmoves.kept hs.owned hs.getting hs.kept, hmoves.owned hs.kept hs.owned,
    hmoves.getting hs.kept hs.owned hs.getting,
    hmoves.logged hs.kept hs.owned hs.getting hs.logged⟩

theorem inv_exec {ls : List EventThreadStep} (hs : Inv s)
    (h : exec (next tOnEvent) s ls = some s') : Inv s' :=
  exec_invariant (I := Inv) (fun _ _ _ hu hstep => inv_step hu hstep) hs h

/-- What was accepted: dispatched, in hand, pending. -/
theorem Inv.accepted_eq (hs : Inv s) :
    s.accepted = s.dispatched ++ s.inHand ++ s.queue.queue.q.pending := by
  have horder := hs.kept.ordered.order
  rw [hs.logged.popped, ← List.map_append] at horder
  have hsome : s.queue.pushed.map (fun r => some r.2) = s.accepted.map some := by
    rw [accepted, List.map_map]
    rfl
  rw [hsome] at horder
  exact ((List.map_injective_iff.mpr (Option.some_injective _)) horder).symm

/-! ### The law of dispatch

What has been accepted is dispatched in order, up to the first `Exit`, and is all dispatched once
the loop has nothing left to do.
-/

theorem untilExit_append {events rest : List XLThreadEvent}
    (h : ∀ e ∈ events, e.iType ≠ eventThreadEventTypeExit) :
    untilExit (events ++ rest) = events ++ untilExit rest := by
  rw [untilExit, List.takeWhile_append_of_pos (by simpa using h)]
  rfl

/-- `RunProgram` entered its loop and is past it. -/
def LoopEnded (s : XLEventThread σ) : Prop :=
  s.entered = true ∧ (s.loop = .leaving ∨ s.loop = .ended)

theorem Inv.exit_of_loopEnded (hs : Inv s) (h : LoopEnded s) : s.exit = true := by
  rcases hs.logged.entered h.1 with hin | ⟨he, -⟩
  · rcases h.2 with hl | hl <;> simp [hl, LoopPc.inLoop] at hin
  · exact he

theorem Inv.inHand_of_exit (hs : Inv s) (he : s.exit = true) : s.inHand = [s.event] := by
  obtain ⟨-, hget, hhandling⟩ := hs.logged.exit he
  rw [inHand_of_quiet hget hhandling, if_pos he]

theorem untilExit_exit {e : XLThreadEvent} (rest : List XLThreadEvent)
    (he : e.iType = eventThreadEventTypeExit) : untilExit (e :: rest) = [] := by
  simp [untilExit, he]

/--
Over any lives and any interleaving: `t_OnEvent` has had the events accepted by `Put`, in order
and up to the first `Exit`, as far as the loop has got; all of them once the loop has ended.
-/
theorem dispatches_in_order (self : σ) {ls : List EventThreadStep}
    (hrun : exec (next tOnEvent) (new self) ls = some s) :
    s.dispatched <+: untilExit s.accepted ∧
      (LoopEnded s → s.dispatched = untilExit s.accepted) ∧
      Calls.Logged QueueRun.putEntry s.queue.puts s.queue.pushed := by
  have hs := inv_exec (inv_new self) hrun
  refine ⟨?_, fun hended => ?_, hs.kept.ordered.puts⟩
  · rw [hs.accepted_eq, List.append_assoc, untilExit_append hs.logged.dispatched]
    exact List.prefix_append _ _
  · have he := hs.exit_of_loopEnded hended
    rw [hs.accepted_eq, List.append_assoc, untilExit_append hs.logged.dispatched,
      hs.inHand_of_exit he, List.singleton_append, untilExit_exit _ (hs.logged.exit he).1,
      List.append_nil]

/-- The steps of `Put` call `i` that finds room. -/
def putSteps (i : Nat) : List EventThreadStep :=
  [.queue (.putLock i), .queue (.putCopy i), .queue (.putPush i), .queue (.putUnlock i),
    .queue (.putGive i)]

/-- The steps of a `Get` that is the loop's call `j`. -/
def getSteps (j : Nat) : List EventThreadStep :=
  [.loop, .queue (.getTake j), .queue (.getLock j), .queue (.getPop j), .queue (.getUnlock j),
    .loop]

/-- `Create`, and the loop is entered after `mCreated` is set. -/
def createSteps : List EventThreadStep :=
  [.create, .owner, .owner, .owner, .owner, .loop, .loop, .loop, .loop]

/-- An event is put, another while `t_OnEvent` runs, then the loop is stopped; one comes late. -/
def stoppedRun : List EventThreadStep :=
  createSteps ++ [.queue (.put (XLThreadEvent.new.setType 20))] ++ putSteps 0 ++ getSteps 0 ++
    [.queue (.put (XLThreadEvent.new.setType 21))] ++ putSteps 1 ++ [.loop, .stopMainLoop] ++
    putSteps 2 ++ getSteps 1 ++ [.loop, .queue (.put (XLThreadEvent.new.setType 22))] ++
    putSteps 3 ++ getSteps 2 ++ [.loop, .loop, .loop]

theorem dispatches_in_order_stopped :
    ∃ s : XLEventThread Nat, exec (next fun n _ => n + 1) (new 0) stoppedRun = some s ∧
      LoopEnded s ∧ s.dispatched <+: untilExit s.accepted ∧
      (LoopEnded s → s.dispatched = untilExit s.accepted) ∧
      Calls.Logged QueueRun.putEntry s.queue.puts s.queue.pushed := by
  obtain ⟨s, hs, hended⟩ := (Option.any_eq_true _ _).mp
    (show (exec (next fun n _ => n + 1) (new (0 : Nat)) stoppedRun).any
      (fun s => s.entered && s.loop == .ended) = true by decide)
  rw [Bool.and_eq_true, beq_iff_eq] at hended
  exact ⟨s, hs, ⟨hended.1, Or.inr hended.2⟩, dispatches_in_order 0 hs⟩

end XLEventThread

end ServClient
