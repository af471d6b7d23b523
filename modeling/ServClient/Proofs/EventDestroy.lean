/-
When `XLEventThread::Destroy` returns.

`Destroy` does not tell the loop to end; it waits until it has.  A loop that has been entered ends
with an `Exit`, so what matters is whether one has been accepted or is on its way into the queue: a
`StopMainLoop` that finds the queue full has not stopped anything.  With an `Exit` accepted the
threads cannot go on for ever, in whatever order they run.

They can get stuck in one place.  `Destroy` destroys `m_Sync1` before it joins the thread, and a
thread that is in `m_Sync1.Take()` by then is not woken.  A thread that has not come so far when
`Destroy` is called may or may not be late (`destroy_always_returns`).

The argument could fail where the loop waits in `Get` with the `Exit` pending, which is why every
`Create` is to find nothing left over (`left_over_never_returns`).
-/
import ServClient.Proofs.EventLives

namespace ServClient

open Runs

/-- A step of the loop, of the owner's call, or of a call of `Put` or `Get` that has begun. -/
def EventThreadStep.own : EventThreadStep → Bool
  | create | destroy | stopMainLoop => false
  | owner | loop => true
  | queue l => l.inside

/-- A call of the owner. -/
def EventThreadStep.owners : EventThreadStep → Bool
  | create | destroy => true
  | owner | loop | stopMainLoop | queue _ => false

/-- In `Destroy`. -/
def OwnerPc.destroying : OwnerPc → Bool
  | taking _ | joining _ | joined => true
  | idle | spawned | handled | given | queued => false

theorem OwnerPc.destroying_cases {owner : OwnerPc} (h : owner.destroying = true) :
    (∃ undo, owner = .taking undo ∨ owner = .joining undo) ∨ owner = .joined := by
  cases owner with
  | taking undo => exact Or.inl ⟨undo, Or.inl rfl⟩
  | joining undo => exact Or.inl ⟨undo, Or.inr rfl⟩
  | joined => exact Or.inr rfl
  | idle | spawned | handled | given | queued => cases h

namespace XLEventThread

variable {σ : Type}

/-- While the owner is in a call: the others may still call `Put` and `StopMainLoop`. -/
def meanwhile (tOnEvent : σ → XLThreadEvent → σ) (s : XLEventThread σ) (l : EventThreadStep) :
    Option (XLEventThread σ) :=
  if l.owners then none else s.next tOnEvent l

/-- With nobody to call anything. -/
def goOn (tOnEvent : σ → XLThreadEvent → σ) (s : XLEventThread σ) (l : EventThreadStep) :
    Option (XLEventThread σ) :=
  if l.own then s.next tOnEvent l else none

/-- The event of `StopMainLoop`. -/
def isExit (e : XLThreadEvent) : Bool := e.iType = eventThreadEventTypeExit

/-- The loop is over, or an `Exit` has been accepted or may still be. -/
def Ends (s : XLEventThread σ) : Prop :=
  s.loop.gone = true ∨ s.loop = .leaving ∨ 0 < s.queue.posted isExit

/-- The thread is in the `Take` of `m_Sync1`, which has been destroyed. -/
def ShutOut (s : XLEventThread σ) : Prop := s.loop = .taking ∧ s.sync1.created = false

/-- The thread is in the `Take` of `m_Sync1`, or will be if it goes on now. -/
def AtGate (s : XLEventThread σ) : Prop :=
  s.loop = .taking ∨ s.loop = .started ∧ s.sync1.created = true

end XLEventThread

/-! ### Every step is one less to do -/

namespace QueueRun

variable {α : Type} {q q' : QueueRun α} {l : QueueStep α}

/-- A call that goes on has less before it. -/
theorem Moves.load_lt (h : Moves q l q') (hl : l.inside = true) (hstock : Stocked q) :
    (q'.gets = q.gets ∧ q'.load < q.load) ∨
      ∃ (j : Nat) (g g' : GetCall α), q.gets[j]? = some g ∧ (∀ b, g.pc ≠ .returned b) ∧
        q'.gets = q.gets.set j g' ∧ q'.load + g'.pc.load < q.load + g.pc.load := by
  cases h with
  | put | get => cases hl
  | putLock hi | putCopy hi | putUnlock hi | putFail hi | putGive hi =>
      exact Or.inl ⟨rfl, QueueRun.load_lt hi rfl (by simp [PutPc.load])⟩
  | accept hi hroom =>
      refine Or.inl ⟨rfl, QueueRun.load_lt hi rfl ?_⟩
      simp only [PutPc.load, (XLLFQ.push_room hroom _).2, List.length_append, List.length_singleton]
      omega
  | refuse hi hfull =>
      refine Or.inl ⟨rfl, QueueRun.load_lt hi rfl ?_⟩
      simp only [PutPc.load, (XLLFQ.push_full hfull _).2]
      omega
  | getTake hi | getLock hi | getUnlock hi =>
      exact Or.inr ⟨_, _, _, hi, by simp, rfl, Nat.lt_succ_self _⟩
  | getPop hi hpop =>
      refine Or.inr ⟨_, _, _, hi, by simp, rfl, ?_⟩
      simp only [load, XLLFQ.pop_eq_some hpop, GetPc.load, List.length_cons]
      omega
  | getMiss hi hpop => exact absurd (XLLFQ.pop_eq_none.mp hpop) (hstock.pending_ne_nil hi rfl)

end QueueRun

/-! ### In `Destroy`

What is left until `Destroy` returns: the owner's steps, the loop's, and those of the calls in
progress.  The events that are pending count as well, since the loop takes them out first.
-/

/-- The steps `Destroy` has before it. -/
def OwnerPc.left : OwnerPc → Nat
  | taking _ => 3
  | joining _ => 2
  | joined => 1
  | idle | spawned | handled | given | queued => 0

/-- What the end of the thread adds. -/
def LoopPc.left : LoopPc → Nat
  | leaving => 1
  | _ => 0

namespace XLEventThread

variable {σ : Type} {tOnEvent : σ → XLThreadEvent → σ} {s s' : XLEventThread σ}
  {l : EventThreadStep}

/-- What there is to do until `Destroy` returns, at most. -/
def left (s : XLEventThread σ) : Nat := s.load + s.loop.left + s.owner.left

theorem goOn_eq_some : s.goOn tOnEvent l = some s' ↔
    l.own = true ∧ s.next tOnEvent l = some s' := by
  rw [goOn, Option.ite_none_right_eq_some]

theorem goOn_of_meanwhile (hown : l.own = true) (hstep : s.meanwhile tOnEvent l = some s') :
    s.goOn tOnEvent l = some s' := by
  rw [meanwhile] at hstep
  split at hstep
  · cases hstep
  · exact goOn_eq_some.mpr ⟨hown, hstep⟩

/-- A call from outside puts an event in, if it does anything. -/
theorem meanwhile_call (hown : l.own = false) (hstep : s.meanwhile tOnEvent l = some s') :
    s.next tOnEvent l = some s' ∧ l ≠ .create ∧
      (s' = s ∨ ∃ e, s' = { s with queue := s.queue.callPut e }) := by
  rw [meanwhile] at hstep
  split at hstep
  · cases hstep
  · rename_i howners
    refine ⟨hstep, ?_, ?_⟩
    · rintro rfl
      exact howners rfl
    · cases l with
      | create | destroy => exact absurd rfl howners
      | owner | loop => cases hown
      | stopMainLoop =>
          cases moves_of_next hstep with
          | stop => exact Or.inr ⟨_, rfl⟩
          | stopNone => exact Or.inl rfl
      | queue ql =>
          cases moves_of_next hstep with
          | queue hget hq =>
              cases ql with
              | get => exact absurd rfl hget
              | put e =>
                  cases hq
                  exact Or.inr ⟨e, rfl⟩
              | putLock | putCopy | putPush | putUnlock | putGive | getTake | getLock | getPop
              | getUnlock => cases hown

/-- What a call of `Put` adds. -/
theorem left_callPut (e : XLThreadEvent) :
    left { s with queue := s.queue.callPut e } ≤ s.left + 26 := by
  have hqueue := s.queue.load_put e (if s.queue.queue.created then .entered else .returned false)
  have hpc : PutPc.load (if s.queue.queue.created then .entered else .returned false) ≤ 26 := by
    split <;> decide
  simp only [left, load, getLoad, QueueRun.callPut] at hqueue ⊢
  omega

/-- The queue is there until the thread is gone. -/
theorem Ready.live (h : Ready s) (hd : s.owner.destroying = true) :
    s.created = true ∧ s.queue.queue.created = true := by
  rcases OwnerPc.destroying_cases hd with ⟨undo, ho⟩ | ho
  · exact (h.inv.owned.waits ho).2
  · obtain ⟨hcreated, hqueue, -⟩ := h.inv.owned.joined ho
    exact ⟨hcreated, hqueue⟩

/-- Whatever goes on, there is less to do. -/
theorem Ready.left_lt (h : Ready s) (hd : s.owner.destroying = true)
    (hstep : s.goOn tOnEvent l = some s') : s'.left < s.left := by
  obtain ⟨hown, hstep⟩ := goOn_eq_some.mp hstep
  obtain ⟨-, hqueue⟩ := h.live hd
  obtain ⟨hlive, hstock⟩ := h.inv.kept.live hqueue
  cases moves_of_next hstep with
  | create | createTwice | destroy | destroyBare | destroyNone | stop | stopNone => cases hown
  | spawned ho | handled ho | given ho | undo ho | queued ho =>
      rw [ho] at hd
      cases hd
  | taking ho =>
      simp [left, load, getLoad, ho, OwnerPc.left]
  | @joining undo ho =>
      cases undo <;> simp [left, load, getLoad, ho, OwnerPc.left]
  | joined ho hputs =>
      have hsame : QueueRun.load { s.queue with queue := s.queue.queue.destroy } =
          s.queue.load := by
        simp only [QueueRun.load, XLEventQueue.destroy]
        split <;> rfl
      simp only [left, load, getLoad, hsame, ho, OwnerPc.left]
      omega
  | tested hl | ungated hl | taken hl | enter hl | early hl | exitEvent hl | dispatch hl | leave hl
  | stopped hl =>
      simp [left, load, getLoad, hl, LoopPc.load, LoopPc.left]
  | synced hl =>
      cases hh : s.handle <;> simp [left, load, getLoad, hl, LoopPc.load, LoopPc.left]
  | get hl he =>
      have hget : s.queue.callGet =
          { s.queue with gets := s.queue.gets ++ [⟨.entered, none⟩] } := by
        simp [QueueRun.callGet, hqueue]
      rw [hget]
      simp [left, load, getLoad, hl, LoopPc.load, LoopPc.left, GetPc.load, QueueRun.load]
  | got hl hj | gotNone hl hj =>
      simp [left, load, getLoad, hl, hj, LoopPc.load, LoopPc.left, GetPc.load]
  | @queue ql q hget hq =>
      rcases (QueueRun.moves_of_next hlive hq).load_lt hown hstock with
        ⟨hgets, hless⟩ | ⟨j, g, g', hj, hpc, hgets, hless⟩
      · have hload : getLoad { s with queue := q } = s.getLoad := by simp [getLoad, hgets]
        simp only [left, load, hload]
        omega
      · have hloop := h.inv.getting.isOwn hj hpc
        have hload : s.getLoad = g.pc.load := by simp [getLoad, hloop, hj]
        have hload' : getLoad { s with queue := q } = g'.pc.load := by
          simp [getLoad, hloop, hgets, List.getElem?_set_self (Calls.lt_of_getElem?_eq_some hj)]
        simp only [left, load, hload, hload']
        omega

/-! ### The gate

The thread is let through `m_Sync1` while the semaphore is there.  In `Destroy` nobody gives any
more, so one that is too late for the destruction waits for good.
-/

/-- Past the gate, or with no gate any more, the thread does not come to wait there. -/
theorem not_atGate_next (h : ¬ AtGate s) (hstep : s.goOn tOnEvent l = some s') : ¬ AtGate s' := by
  obtain ⟨hown, hstep⟩ := goOn_eq_some.mp hstep
  cases moves_of_next hstep with
  | create | createTwice | destroy | destroyBare | destroyNone | stop | stopNone => cases hown
  | spawned | given | undo | queued | joining | joined | queue => exact h
  | handled ho =>
      rw [AtGate, XLSemaPhore.give_created]
      exact h
  | taking ho =>
      rintro (hl | ⟨-, hc⟩)
      · exact h (Or.inl hl)
      · rw [XLSemaPhore.destroy_created] at hc
        cases hc
  | tested hl hs => exact absurd (Or.inr ⟨hl, hs⟩) h
  | taken hl => exact absurd (Or.inl hl) h
  | ungated | enter | early | stopped | get | got | gotNone | exitEvent | dispatch | leave =>
      simp [AtGate]
  | synced =>
      dsimp only [AtGate]
      split <;> simp

/-- Once `m_Sync1` is destroyed, only a thread in its `Take` is kept by it. -/
theorem Ready.not_atGate (h : Ready s) (hout : ¬ ShutOut s)
    (ho : (∃ undo, s.owner = .joining undo) ∨ s.owner = .joined) : ¬ AtGate s := by
  have hclosed := h.closed (ho.imp_right Or.inl)
  rintro (hl | ⟨-, hc⟩)
  · exact hout ⟨hl, hclosed⟩
  · exact absurd (hclosed.symm.trans hc) (by decide)

/-- Who is shut out stays there, and `Destroy` waits. -/
theorem Ready.shutOut_next (h : Ready s) (hd : s.owner.destroying = true) (hout : ShutOut s)
    (hstep : s.goOn tOnEvent l = some s') : s'.owner.destroying = true ∧ ShutOut s' := by
  obtain ⟨hown, hstep⟩ := goOn_eq_some.mp hstep
  obtain ⟨htaking, hclosed⟩ := hout
  cases moves_of_next hstep with
  | create | createTwice | destroy | destroyBare | destroyNone | stop | stopNone => cases hown
  | spawned ho | handled ho | given ho | undo ho | queued ho =>
      rw [ho] at hd
      cases hd
  | taking ho => exact ⟨rfl, htaking, XLSemaPhore.destroy_created _⟩
  | joining ho hl =>
      rw [htaking] at hl
      cases hl
  | joined ho =>
      obtain ⟨-, -, hgone⟩ := h.inv.owned.joined ho
      rw [htaking] at hgone
      cases hgone
  | taken hl hpass => exact absurd hpass (h.shut hclosed)
  | tested hl | ungated hl | synced hl | enter hl | early hl | stopped hl | get hl | got hl
  | gotNone hl | exitEvent hl | dispatch hl | leave hl =>
      rw [htaking] at hl
      cases hl
  | queue => exact ⟨hd, htaking, hclosed⟩

/-! ### The loop comes to its end

While the `Exit` is on its way the loop does not wait in `Get` for good: a permit is there for it,
or a `Put` is under way that will give one.
-/

/-- No step of the loop, and none of the owner, takes an `Exit` back. -/
theorem Ends.of_same (h : Ends s) (hloop : s'.loop = s.loop)
    (hposted : s'.queue.posted isExit = s.queue.posted isExit) : Ends s' := by
  rw [Ends, hloop, hposted]
  exact h

theorem Ends.loop (h : Ends s) (hstep : s.next tOnEvent .loop = some s') : Ends s' := by
  cases moves_of_next hstep with
  | leave => exact Or.inl rfl
  | stopped | early => exact Or.inr (Or.inl rfl)
  | tested hl | ungated hl | taken hl | synced hl | enter hl | get hl | got hl | gotNone hl
  | exitEvent hl | dispatch hl =>
      rw [Ends, hl] at h
      refine Or.inr (Or.inr ?_)
      rcases h with h | h | h
      · cases h
      · cases h
      · exact h

/-- Nor does a call that goes on and finds room for the `Exit`. -/
theorem Ends.queue (h : Ends s) (hlive : s.queue.Live) (hex : s.queue.Exclusive)
    {ql : QueueStep XLThreadEvent} {q : QueueRun XLThreadEvent} (hinside : ql.inside = true)
    (hq : s.queue.next ql = some q) (hroom : s.queue.HasRoomFor isExit ql) :
    Ends { s with queue := q } :=
  h.of_same rfl (((QueueRun.moves_of_next hlive hq).posted hex hinside).1 hroom)

/-- The steps of the loop and of the calls do not look at where the owner is. -/
theorem exists_next_of_setOwner {owner : OwnerPc} (hl : l = .loop ∨ ∃ ql, l = .queue ql)
    (h : ({ s with owner := owner } : XLEventThread σ).next tOnEvent l = some s') :
    ∃ t, s.next tOnEvent l = some t := by
  rcases hl with rfl | ⟨ql, rfl⟩
  · have hsame : ({ s with owner := owner } : XLEventThread σ).loopStep tOnEvent =
        (s.loopStep tOnEvent).map fun u => { u with owner := owner } := by
      simp only [loopStep, onEvent]
      split <;> (try split) <;> simp
    change ({ s with owner := owner } : XLEventThread σ).loopStep tOnEvent = some s' at h
    rw [hsame] at h
    obtain ⟨t, ht, -⟩ := Option.map_eq_some_iff.mp h
    exact ⟨t, ht⟩
  · cases moves_of_next h with
    | @queue ql q hget hq =>
        refine ⟨{ s with queue := q }, ?_⟩
        cases ql with
        | get => exact absurd rfl hget
        | put | putLock | putCopy | putPush | putUnlock | putGive | getTake | getLock | getPop
        | getUnlock =>
            dsimp only at hq
            simp only [XLEventThread.next, hq, Option.map_some]

/-- An `Exit` that has been pushed is in hand or pending. -/
theorem Inv.exit_due (hs : Inv s) (hposted : 0 < s.queue.posted isExit)
    (hputs : ∀ (i : Nat) (c : PutCall XLThreadEvent), s.queue.puts[i]? = some c →
      ∃ b, c.pc = .returned b) :
    ∃ e ∈ s.inHand ++ s.queue.queue.q.pending, isExit e = true := by
  have hnone : s.queue.unpushed isExit = 0 := by
    refine Calls.countP_eq_zero fun i c hi => ?_
    obtain ⟨b, hb⟩ := hputs i c hi
    rw [hb]
    exact Bool.and_false _
  rw [QueueRun.posted, hnone, Nat.add_zero] at hposted
  obtain ⟨e, he, hexit⟩ := List.countP_pos_iff.mp hposted
  change e ∈ s.accepted at he
  rw [hs.accepted_eq, List.append_assoc, List.mem_append] at he
  refine ⟨e, he.resolve_left fun hdispatched => ?_, hexit⟩
  exact hs.logged.dispatched e hdispatched (of_decide_eq_true hexit)

/-- The thread as it was before `Destroy` was called. -/
theorem Ready.lively (h : Ready s) (hh : s.handle = true) (hcreated : s.created = true)
    (hqueue : s.queue.queue.created = true) (hexit : s.exit = false) {j : Nat}
    (hl : s.loop = .getting j) : Lively { s with owner := .idle } where
  inv := by
    refine ⟨h.inv.kept, ?_, ⟨h.inv.getting.others, h.inv.getting.own⟩,
      ⟨h.inv.logged.popped, h.inv.logged.dispatched, h.inv.logged.exit, h.inv.logged.entered⟩⟩
    unfold Owned
    dsimp only
    rw [hcreated]
    exact ⟨hh, hqueue⟩
  up := by simp [Up]
  settled := h.settled hqueue
  stays := by simp [hexit, hl]
  unborn := fun _ hc => absurd (hcreated.symm.trans hc) (by decide)
  sync1 := by simp [hl]

/-- While `Destroy` waits for the thread, the thread goes on, or a call that it waits for. -/
theorem Ready.loop_goesOn (h : Ready s) {undo : Bool} (ho : s.owner = .joining undo)
    (hends : Ends s) (hgate : ¬ AtGate s) (hended : s.loop ≠ .ended) :
    ∃ l s', s.goOn tOnEvent l = some s' ∧ Ends s' := by
  obtain ⟨hcreated, hqueue⟩ := h.live (by rw [ho]; rfl)
  obtain ⟨hlive, -⟩ := h.inv.kept.live hqueue
  have hloop : (∃ s', s.next tOnEvent .loop = some s') →
      ∃ l s', s.goOn tOnEvent l = some s' ∧ Ends s' := by
    rintro ⟨s', hs'⟩
    exact ⟨.loop, s', goOn_eq_some.mpr ⟨rfl, hs'⟩, hends.loop hs'⟩
  cases hl : s.loop with
  | off =>
      have hidle := (h.begun hl).1
      rw [ho] at hidle
      cases hidle
  | ended => exact absurd hl hended
  | taking => exact absurd (Or.inl hl) hgate
  | started | synced | handling | leaving =>
      exact hloop ⟨_, by simp only [XLEventThread.next, loopStep, hl]; rfl⟩
  | running =>
      exact hloop ⟨_, by simp only [XLEventThread.next, loopStep, hl, hcreated, if_true]; rfl⟩
  | testing =>
      cases hexit : s.exit with
      | true =>
          exact hloop ⟨_, by simp only [XLEventThread.next, loopStep, hl, hexit, if_true]; rfl⟩
      | false =>
          exact hloop ⟨_, by
            simp only [XLEventThread.next, loopStep, hl, hexit, Bool.false_eq_true, if_false]; rfl⟩
  | getting j =>
      have hexit : s.exit = false := by
        by_contra hexit
        exact (h.inv.logged.exit (by simpa using hexit)).2.1 j hl
      have hlively := h.lively (h.handle ⟨undo, Or.inr ho⟩) hcreated hqueue hexit hl
      have hcan : ∀ l t, GoesOn isExit { s with owner := .idle } l →
          XLEventThread.next tOnEvent { s with owner := .idle } l = some t →
          ∃ l s', s.goOn tOnEvent l = some s' ∧ Ends s' := by
        rintro l t hgoes ht
        rcases hgoes with rfl | ⟨ql, rfl, hinside, hroom⟩
        · exact hloop (exists_next_of_setOwner (Or.inl rfl) ht)
        · obtain ⟨s', hs'⟩ := exists_next_of_setOwner (Or.inr ⟨ql, rfl⟩) ht
          refine ⟨.queue ql, s', goOn_eq_some.mpr ⟨hinside, hs'⟩, ?_⟩
          cases moves_of_next hs' with
          | queue hget hq => exact hends.queue hlive h.inv.kept.exclusive hinside hq hroom
      rcases hlively.loop_goesOn isExit rfl hcreated (by simp [hl]) (by simp [hl]) with
        hblocked | ⟨l, t, hgoes, ht, -⟩
      · by_cases hput : ∃ (i : Nat) (c : PutCall XLThreadEvent), s.queue.puts[i]? = some c ∧
            ∀ b, c.pc ≠ .returned b
        · obtain ⟨i, c, hi, hpc⟩ := hput
          obtain ⟨l, t, hgoes, ht, -⟩ := hlively.put_goesOn isExit hblocked hi hpc
          exact hcan l t hgoes ht
        · -- Nothing is in hand, pending or on its way, and the `Exit` must be one of these.
          have hreturned : ∀ (i : Nat) (c : PutCall XLThreadEvent), s.queue.puts[i]? = some c →
              ∃ b, c.pc = .returned b := by
            intro i c hi
            by_contra hpc
            exact hput ⟨i, c, hi, fun b hb => hpc ⟨b, hb⟩⟩
          have hnil := hlively.pending_eq_nil hblocked fun i c hi => by
            obtain ⟨b, hb⟩ := hreturned i c hi
            rw [hb]
            rfl
          have hhand : s.inHand = [] := hblocked.inHand
          have hposted : 0 < s.queue.posted isExit := by
            rcases hends with hgone | hleaving | hposted
            · rw [hl] at hgone
              cases hgone
            · rw [hl] at hleaving
              cases hleaving
            · exact hposted
          obtain ⟨e, he, -⟩ := h.inv.exit_due hposted hreturned
          dsimp only at hnil
          rw [hhand, hnil] at he
          cases he
      · exact hcan l t hgoes ht

/-- `Destroy` goes on until it has returned, unless the thread is shut out. -/
theorem Ready.goesOn (h : Ready s) (hd : s.owner.destroying = true) (hends : Ends s)
    (hout : ¬ ShutOut s) : ∃ l s', s.goOn tOnEvent l = some s' ∧ Ends s' ∧ ¬ ShutOut s' := by
  obtain ⟨-, hqueue⟩ := h.live hd
  obtain ⟨hlive, -⟩ := h.inv.kept.live hqueue
  cases ho : s.owner with
  | idle | spawned | handled | given | queued =>
      rw [ho] at hd
      cases hd
  | taking undo =>
      by_cases htaking : s.loop = .taking
      · -- The thread goes first, while `m_Sync1` is there.
        have hc : s.sync1.created = true := by
          by_contra hc
          exact hout ⟨htaking, by simpa using hc⟩
        have hnext : s.next tOnEvent .loop =
            some { s with sync1 := s.sync1.raise, loop := .synced } := by
          simp only [XLEventThread.next, loopStep, htaking, if_pos (h.sync1 (Or.inr htaking) hc)]
        exact ⟨.loop, _, goOn_eq_some.mpr ⟨rfl, hnext⟩, hends.loop hnext, by simp [ShutOut]⟩
      · obtain ⟨sync2, htake⟩ := h.sync2.take
        refine ⟨.owner, { s with
          sync1 := s.sync1.destroy, sync2 := sync2.destroy, owner := .joining undo }, ?_,
          hends.of_same rfl rfl, fun hout' => htaking hout'.1⟩
        exact goOn_eq_some.mpr ⟨rfl, by
          simp only [XLEventThread.next, ownerStep, ho, htake, Option.map_some]⟩
  | joining undo =>
      have hgate := h.not_atGate hout (Or.inl ⟨undo, ho⟩)
      by_cases hended : s.loop = .ended
      · refine ⟨.owner, { s with
          handle := false, owner := if undo then .idle else .joined }, ?_, hends.of_same rfl rfl,
          hout⟩
        exact goOn_eq_some.mpr ⟨rfl, by
          simp only [XLEventThread.next, ownerStep, ho, if_pos hended]⟩
      · obtain ⟨l, s', hstep, hends'⟩ : ∃ l s', s.goOn tOnEvent l = some s' ∧ Ends s' :=
          h.loop_goesOn ho hends hgate hended
        exact ⟨l, s', hstep, hends', fun hout' => not_atGate_next hgate hstep (Or.inl hout'.1)⟩
  | joined =>
      cases hputs : s.putsReturned with
      | true =>
          refine ⟨.owner, { s with
            queue := { s.queue with queue := s.queue.queue.destroy }
            created := false
            owner := .idle }, ?_, hends.of_same rfl rfl, hout⟩
          exact goOn_eq_some.mpr ⟨rfl, by
            simp only [XLEventThread.next, ownerStep, ho, hputs, if_true]⟩
      | false =>
          obtain ⟨-, -, hgone⟩ := h.inv.owned.joined ho
          obtain ⟨i, c, hi, hpc⟩ : ∃ (i : Nat) (c : PutCall XLThreadEvent),
              s.queue.puts[i]? = some c ∧ ∀ b, c.pc ≠ .returned b := by
            by_contra hall
            refine absurd (putsReturned_iff.mpr fun i c hi => ?_) (by rw [hputs]; decide)
            by_contra hpc
            exact hall ⟨i, c, hi, fun b hb => hpc ⟨b, hb⟩⟩
          obtain ⟨ql, q, hinside, hq, -⟩ := QueueRun.some_put_goesOn (fun _ => false)
            (h.settled hqueue) hlive (fun k hk => by simp at hk) hi hpc
          exact ⟨.queue ql, { s with queue := q },
            goOn_eq_some.mpr ⟨hinside, next_queue hinside hq⟩, Or.inl hgone, hout⟩

/-! ### Without an `Exit` it never does -/

/-- An `Exit` that has been accepted stays accepted. -/
theorem ends_of_accepted {e : XLThreadEvent} (he : e ∈ s.accepted) (hexit : isExit e = true) :
    Ends s :=
  Or.inr (Or.inr (Nat.add_pos_left (List.countP_pos_iff.mpr ⟨e, he, hexit⟩) _))

/-- What has been taken out had been accepted. -/
theorem Inv.ends_of_exit (hs : Inv s) (he : s.exit = true) : Ends s := by
  refine ends_of_accepted (e := s.event) ?_ (decide_eq_true (hs.logged.exit he).1)
  rw [hs.accepted_eq, hs.inHand_of_exit he]
  simp

/-- With no `Exit` to come the loop does not end, and `Destroy` waits for it. -/
theorem Ready.not_ends_next (h : Ready s) (hd : s.owner.destroying = true) (hends : ¬ Ends s)
    (hstep : s.goOn tOnEvent l = some s') : s'.owner.destroying = true ∧ ¬ Ends s' := by
  obtain ⟨hown, hstep⟩ := goOn_eq_some.mp hstep
  obtain ⟨hcreated, hqueue⟩ := h.live hd
  obtain ⟨hlive, -⟩ := h.inv.kept.live hqueue
  have hposted : ¬ 0 < s.queue.posted isExit := fun hp => hends (Or.inr (Or.inr hp))
  have hon (loop : LoopPc) (hgone : loop.gone = false) (hleaving : loop ≠ .leaving) :
      ¬ (loop.gone = true ∨ loop = .leaving ∨ 0 < s.queue.posted isExit) := by
    rintro (hc | hc | hc)
    · exact absurd (hgone.symm.trans hc) (by decide)
    · exact hleaving hc
    · exact hposted hc
  cases moves_of_next hstep with
  | create | createTwice | destroy | destroyBare | destroyNone | stop | stopNone => cases hown
  | spawned ho | handled ho | given ho | undo ho | queued ho =>
      rw [ho] at hd
      cases hd
  | taking ho => exact ⟨rfl, hends⟩
  | joining ho hl => exact absurd (Or.inl (by rw [hl]; rfl)) hends
  | joined ho => exact absurd (Or.inl (h.inv.owned.joined ho).2.2) hends
  | tested hl | ungated hl | taken hl | enter hl | get hl | got hl | gotNone hl | exitEvent hl
  | dispatch hl =>
      exact ⟨hd, hon _ rfl (by simp)⟩
  | synced hl =>
      have hhandle : s.handle = true := by
        rcases OwnerPc.destroying_cases hd with hwaits | ho
        · exact h.handle hwaits
        · obtain ⟨-, -, hgone⟩ := h.inv.owned.joined ho
          rw [hl] at hgone
          cases hgone
      rw [hhandle]
      exact ⟨hd, hon _ rfl (by simp)⟩
  | early hl hc => exact absurd (hcreated.symm.trans hc) (by decide)
  | stopped hl he => exact absurd (h.inv.ends_of_exit he) hends
  | leave hl => exact absurd (Or.inr (Or.inl hl)) hends
  | @queue ql q hget hq =>
      have hmoves :=
        (QueueRun.moves_of_next hlive hq).posted (p := isExit) h.inv.kept.exclusive hown
      refine ⟨hd, ?_⟩
      rintro (hgone | hleaving | hq)
      · exact hends (Or.inl hgone)
      · exact hends (Or.inr (Or.inl hleaving))
      · by_cases hroom : s.queue.HasRoomFor isExit ql
        · exact hposted (hmoves.1 hroom ▸ hq)
        · have hless := hmoves.2 hroom
          omega

/-! ### Whole runs -/

/-- It goes on, or has returned. -/
theorem Ready.destroying_next (h : Ready s) (hd : s.owner.destroying = true)
    (hstep : s.goOn tOnEvent l = some s') :
    s'.owner.destroying = true ∨ s'.owner = .idle ∧ s'.created = false := by
  obtain ⟨hown, hstep⟩ := goOn_eq_some.mp hstep
  cases moves_of_next hstep with
  | create | createTwice | destroy | destroyBare | destroyNone | stop | stopNone => cases hown
  | spawned ho | handled ho | given ho | undo ho | queued ho =>
      rw [ho] at hd
      cases hd
  | taking => exact Or.inl rfl
  | joining ho =>
      rw [(h.inv.owned.waits (Or.inr ho)).1]
      exact Or.inl rfl
  | joined => exact Or.inr ⟨rfl, rfl⟩
  | tested | ungated | taken | synced | enter | early | stopped | get | got | gotNone | exitEvent
  | dispatch | leave | queue => exact Or.inl hd

/-- Once it has returned nothing is going on. -/
theorem Inv.goOn_eq_none (hs : Inv s) (ho : s.owner = .idle) (hc : s.created = false)
    (l : EventThreadStep) : s.goOn tOnEvent l = none := by
  obtain ⟨hqueue, hgone⟩ := hs.owned.down ho hc
  have hdown := hs.kept.down hqueue
  cases hnext : s.goOn tOnEvent l with
  | none => rfl
  | some u =>
      obtain ⟨hown, hstep⟩ := goOn_eq_some.mp hnext
      cases moves_of_next hstep with
      | create | createTwice | destroy | destroyBare | destroyNone | stop | stopNone => cases hown
      | spawned h | handled h | given h | undo h | queued h | taking h | joining h | joined h =>
          rw [ho] at h
          cases h
      | tested h | ungated h | taken h | synced h | enter h | early h | stopped h | get h | got h
      | gotNone h | exitEvent h | dispatch h | leave h =>
          rw [h] at hgone
          cases hgone
      | queue hget hq =>
          rw [QueueRun.next_eq_none hown hdown.puts hdown.gets] at hq
          cases hq

theorem Ready.goOn_next (h : Ready s) (hstep : s.goOn tOnEvent l = some s') : Ready s' := by
  obtain ⟨hown, hstep⟩ := goOn_eq_some.mp hstep
  exact h.next (CreatesEmpty.of_ne (by rintro rfl; cases hown)) hstep

/-- An `Exit` has been accepted. -/
def ExitAccepted (s : XLEventThread σ) : Prop := ∃ e ∈ s.accepted, isExit e = true

theorem ExitAccepted.ends (h : ExitAccepted s) : Ends s := by
  obtain ⟨e, he, hexit⟩ := h
  exact ends_of_accepted he hexit

theorem ExitAccepted.next (h : ExitAccepted s) (hs : Inv s)
    (hstep : s.goOn tOnEvent l = some s') : ExitAccepted s' := by
  obtain ⟨hown, hstep⟩ := goOn_eq_some.mp hstep
  obtain ⟨e, he, hexit⟩ := h
  have hflows := flows hs hstep (by rintro e rfl; cases hown) (by rintro rfl; cases hown)
  exact ⟨e, (hflows.pushed.map Prod.snd).subset he, hexit⟩

/-- A thread that is shut out keeps `Destroy` for good. -/
theorem Ready.never_returns (h : Ready s) (hd : s.owner.destroying = true) (hout : ShutOut s)
    {ms : List EventThreadStep} (hms : Runs.exec (goOn tOnEvent) s ms = some s') :
    Ready s' ∧ s'.owner.destroying = true ∧ ShutOut s' :=
  exec_invariant (I := fun u => Ready u ∧ u.owner.destroying = true ∧ ShutOut u)
    (fun _ _ _ hu hstep => ⟨hu.1.goOn_next hstep, hu.1.shutOut_next hu.2.1 hu.2.2 hstep⟩)
    ⟨h, hd, hout⟩ hms

/--
If every `Create` finds nothing pending: a `Destroy` in progress can still return, with nobody
calling anything more, precisely when the loop is over or leaving, or an `Exit` has been accepted
or is in a call of `Put` that may still push it, and the thread is not in the `Take` of the
destroyed `m_Sync1`.
-/
theorem destroy_returns_iff (self : σ) {ls : List EventThreadStep}
    (hempty : Along (XLEventThread.next tOnEvent) CreatesEmpty (new self) ls)
    (hrun : exec (XLEventThread.next tOnEvent) (new self) ls = some s)
    (hd : s.owner.destroying = true) :
    (∃ ms t, Runs.exec (goOn tOnEvent) s ms = some t ∧ t.owner = .idle) ↔
      Ends s ∧ ¬ ShutOut s := by
  have hready := (ready_new self).exec hempty hrun
  constructor
  · rintro ⟨ms, t, hms, hidle⟩
    refine ⟨?_, fun hout => ?_⟩
    · by_contra hends
      have hstuck := exec_invariant
        (I := fun u => Ready u ∧ u.owner.destroying = true ∧ ¬ Ends u)
        (fun _ _ _ hu hstep => ⟨hu.1.goOn_next hstep, hu.1.not_ends_next hu.2.1 hu.2.2 hstep⟩)
        ⟨hready, hd, hends⟩ hms
      rw [hidle] at hstuck
      cases hstuck.2.1
    · have hstuck := hready.never_returns hd hout hms
      rw [hidle] at hstuck
      cases hstuck.2.1
  · rintro ⟨hends, hout⟩
    have hway : ∀ u, (Ready u ∧
          (u.owner.destroying = true ∧ Ends u ∧ ¬ ShutOut u ∨ u.owner = .idle)) →
        u.owner = .idle ∨ ∃ l v, u.goOn tOnEvent l = some v ∧
          (Ready v ∧ (v.owner.destroying = true ∧ Ends v ∧ ¬ ShutOut v ∨ v.owner = .idle)) ∧
          v.left < u.left := by
      rintro u ⟨hu, ⟨hud, hue, huo⟩ | hidle⟩
      · obtain ⟨l, v, hstep, hv⟩ := hu.goesOn hud hue huo
        refine Or.inr ⟨l, v, hstep, ⟨hu.goOn_next hstep, ?_⟩, hu.left_lt hud hstep⟩
        exact (hu.destroying_next hud hstep).imp (fun hvd => ⟨hvd, hv⟩) And.left
      · exact Or.inl hidle
    obtain ⟨ms, t, hms, -, hidle⟩ :=
      exec_reaches left hway ⟨hready, Or.inl ⟨hd, hends, hout⟩⟩
    exact ⟨ms, t, hms, hidle⟩

/-- A thread that nobody has stopped cannot be destroyed. -/
theorem destroy_returns_iff_unstopped :
    ∃ s, exec (XLEventThread.next fun n _ => n + 1) (new (0 : Nat)) (createSteps ++ [.destroy]) =
        some s ∧ s.owner = .taking false ∧
      ¬ ∃ ms t, exec (goOn fun n _ => n + 1) s ms = some t ∧ t.owner = .idle := by
  obtain ⟨s, hs, hend⟩ := (Option.any_eq_true _ _).mp
    (show (exec (XLEventThread.next fun n _ => n + 1) (new (0 : Nat))
      (createSteps ++ [.destroy])).any (fun s => s.owner == .taking false &&
        s.loop == .testing && s.queue.posted isExit == 0) = true by decide)
  simp only [Bool.and_eq_true, beq_iff_eq] at hend
  obtain ⟨⟨ho, hl⟩, hnone⟩ := hend
  refine ⟨s, hs, ho, ?_⟩
  rw [destroy_returns_iff 0 (by decide) hs (by rw [ho]; rfl), Ends, hl, hnone]
  simp [LoopPc.gone]

/-- The thread has found `m_Sync1` created, and `Destroy` destroys it before the thread looks at
the count. -/
def shutOutRun : List EventThreadStep :=
  [.create, .owner, .owner, .owner, .owner, .loop, .stopMainLoop] ++ putSteps 0 ++
    [.destroy, .owner]

/-- So `Destroy` can wait for good on a thread that has been told to end. -/
theorem shut_out_never_returns :
    ∃ s, exec (XLEventThread.next fun n _ => n + 1) (new (0 : Nat)) shutOutRun = some s ∧
      s.owner = .joining false ∧ Ends s ∧
      ¬ ∃ ms t, exec (goOn fun n _ => n + 1) s ms = some t ∧ t.owner = .idle := by
  obtain ⟨s, hs, hend⟩ := (Option.any_eq_true _ _).mp
    (show (exec (XLEventThread.next fun n _ => n + 1) (new (0 : Nat)) shutOutRun).any
      (fun s => s.owner == .joining false && s.loop == .taking && !s.sync1.created &&
        decide (0 < s.queue.posted isExit)) = true by decide)
  simp only [Bool.and_eq_true, beq_iff_eq, Bool.not_eq_true', decide_eq_true_eq] at hend
  obtain ⟨⟨⟨ho, hl⟩, hc⟩, hposted⟩ := hend
  refine ⟨s, hs, ho, Or.inr (Or.inr hposted), ?_⟩
  rintro ⟨ms, t, hms, hidle⟩
  have hready := (ready_new 0).exec (by decide) hs
  obtain ⟨-, hd, -⟩ := hready.never_returns (by rw [ho]; rfl) ⟨hl, hc⟩ hms
  rw [hidle] at hd
  cases hd

/-- On its way out of `Destroy` with an `Exit` accepted, or out of it. -/
def Returning (s : XLEventThread σ) : Prop :=
  Ready s ∧ (s.owner.destroying = true ∧ ExitAccepted s ∨ s.owner = .idle ∧ s.created = false)

theorem Returning.own (h : Returning s) (hstep : s.goOn tOnEvent l = some s') :
    Returning s' ∧ s'.left < s.left := by
  obtain ⟨hs, ⟨hd, hexit⟩ | ⟨hidle, hc⟩⟩ := h
  · refine ⟨⟨hs.goOn_next hstep, ?_⟩, hs.left_lt hd hstep⟩
    exact (hs.destroying_next hd hstep).imp (fun hd' => ⟨hd', hexit.next hs.inv hstep⟩) id
  · rw [hs.inv.goOn_eq_none hidle hc] at hstep
    cases hstep

theorem Returning.call (h : Returning s) (hown : l.own = false)
    (hstep : s.meanwhile tOnEvent l = some s') : Returning s' ∧ s'.left ≤ s.left + 26 := by
  obtain ⟨hs, hcase⟩ := h
  obtain ⟨hstep, hcreate, rfl | ⟨e, rfl⟩⟩ := meanwhile_call hown hstep
  · exact ⟨⟨hs, hcase⟩, Nat.le_add_right _ _⟩
  · exact ⟨⟨hs.next (CreatesEmpty.of_ne hcreate) hstep, hcase⟩, left_callPut e⟩

theorem not_atGate_meanwhile (h : ¬ AtGate s) (hstep : s.meanwhile tOnEvent l = some s') :
    ¬ AtGate s' := by
  cases hown : l.own with
  | true => exact not_atGate_next h (goOn_of_meanwhile hown hstep)
  | false =>
      obtain ⟨-, -, rfl | ⟨e, rfl⟩⟩ := meanwhile_call hown hstep
      · exact h
      · exact h

/-- The steps the threads take by themselves are steps of theirs while others call. -/
theorem exec_meanwhile {ms : List EventThreadStep}
    (hms : Runs.exec (goOn tOnEvent) s ms = some s') :
    Runs.exec (meanwhile tOnEvent) s ms = some s' := by
  have hlift : Runs.exec (meanwhile tOnEvent) (id s) (ms.map id) = some (id s') := by
    refine exec_lift id id (fun l _ u v hstep => ?_) hms
    obtain ⟨hown, hnext⟩ := goOn_eq_some.mp hstep
    have howners : l.owners = false := by
      cases l with
      | create | destroy => cases hown
      | owner | loop | stopMainLoop | queue => rfl
    show u.meanwhile tOnEvent l = some v
    rw [meanwhile, howners]
    exact hnext
  simpa using hlift

/-- `Destroy` destroys `m_Sync1` while the thread is in its `Take`. -/
theorem Ready.shutOut_of_taking (h : Ready s) {undo : Bool} (ho : s.owner = .taking undo)
    (hl : s.loop = .taking) :
    ∃ t, s.goOn tOnEvent .owner = some t ∧ t.owner.destroying = true ∧ ShutOut t := by
  obtain ⟨sync2, htake⟩ := h.sync2.take
  refine ⟨{ s with sync1 := s.sync1.destroy, sync2 := sync2.destroy, owner := .joining undo },
    goOn_eq_some.mpr ⟨rfl, ?_⟩, rfl, hl, XLSemaPhore.destroy_created _⟩
  simp only [XLEventThread.next, ownerStep, ho, htake, Option.map_some]

/-- A thread that is at the gate can be shut out. -/
theorem Ready.shutOut_reached (h : Ready s) (hd : s.owner.destroying = true) (hgate : AtGate s) :
    ∃ ms t, Runs.exec (goOn tOnEvent) s ms = some t ∧ Ready t ∧ t.owner.destroying = true ∧
      ShutOut t := by
  by_cases hout : ShutOut s
  · exact ⟨[], s, rfl, h, hd, hout⟩
  rcases OwnerPc.destroying_cases hd with ⟨undo, ho | ho⟩ | ho
  · rcases hgate with hl | ⟨hl, hc⟩
    · obtain ⟨t, ht, hdt, houtt⟩ := h.shutOut_of_taking ho hl
      exact ⟨[.owner], t, exec_single ht, h.goOn_next ht, hdt, houtt⟩
    · have htest : s.goOn tOnEvent .loop = some { s with loop := .taking } :=
        goOn_eq_some.mpr ⟨rfl, by simp only [XLEventThread.next, loopStep, hl, hc, if_true]⟩
      have hu := h.goOn_next htest
      obtain ⟨t, ht, hdt, houtt⟩ := hu.shutOut_of_taking ho rfl
      exact ⟨[.loop, .owner], t, exec_append_some (exec_single htest) (exec_single ht),
        hu.goOn_next ht, hdt, houtt⟩
  · exact absurd hgate (h.not_atGate hout (Or.inl ⟨undo, ho⟩))
  · exact absurd hgate (h.not_atGate hout (Or.inr ho))

/-- And then the threads come to rest with `Destroy` still waiting. -/
theorem Ready.shutOut_rests (h : Ready s) (hd : s.owner.destroying = true) (hout : ShutOut s) :
    ∃ ms t, Runs.exec (goOn tOnEvent) s ms = some t ∧ (∀ l, t.goOn tOnEvent l = none) ∧
      t.owner ≠ .idle := by
  have hway : ∀ u, (Ready u ∧ u.owner.destroying = true ∧ ShutOut u) →
      (∀ l, u.goOn tOnEvent l = none) ∨ ∃ l v, u.goOn tOnEvent l = some v ∧
        (Ready v ∧ v.owner.destroying = true ∧ ShutOut v) ∧ v.left < u.left := by
    rintro u ⟨hu, hud, huo⟩
    by_cases hnone : ∀ l, u.goOn tOnEvent l = none
    · exact Or.inl hnone
    · obtain ⟨l, hl⟩ := not_forall.mp hnone
      obtain ⟨v, hstep⟩ := Option.ne_none_iff_exists'.mp hl
      exact Or.inr ⟨l, v, hstep, ⟨hu.goOn_next hstep, hu.shutOut_next hud huo hstep⟩,
        hu.left_lt hud hstep⟩
  obtain ⟨ms, t, hms, ⟨-, hdt, -⟩, hrest⟩ := exec_reaches left hway ⟨h, hd, hout⟩
  refine ⟨ms, t, hms, hrest, fun hidle => ?_⟩
  rw [hidle] at hdt
  cases hdt

/--
With an `Exit` accepted, the threads come to rest in whatever order they go on.  Others may call
`Put` and `StopMainLoop` meanwhile, and each call gives the threads a bounded number of steps more.
Where none of them has a step left, `Destroy` has returned or the thread is shut out; and it has
returned in every order precisely if the thread is not at the gate.
-/
theorem destroy_always_returns (self : σ) {ls : List EventThreadStep}
    (hempty : Along (XLEventThread.next tOnEvent) CreatesEmpty (new self) ls)
    (hrun : exec (XLEventThread.next tOnEvent) (new self) ls = some s)
    (hd : s.owner.destroying = true) (hexit : ExitAccepted s) :
    (∀ ms t, Runs.exec (meanwhile tOnEvent) s ms = some t →
      ms.countP EventThreadStep.own ≤ s.left + 26 * ms.countP (fun l => !l.own) ∧
        ((∀ l, t.goOn tOnEvent l = none) → (t.owner = .idle ↔ ¬ ShutOut t))) ∧
    ((∀ ms t, Runs.exec (meanwhile tOnEvent) s ms = some t →
        (∀ l, t.goOn tOnEvent l = none) → t.owner = .idle) ↔ ¬ AtGate s) := by
  have hready := (ready_new self).exec hempty hrun
  have hreturning : ∀ ms t, Runs.exec (meanwhile tOnEvent) s ms = some t →
      ms.countP EventThreadStep.own + t.left ≤ s.left + 26 * ms.countP (fun l => !l.own) ∧
        Returning t := fun ms t hms =>
    exec_countP_le left EventThreadStep.own 26
      (fun _ _ _ hu hl hstep => Returning.own hu (goOn_of_meanwhile hl hstep))
      (fun _ _ _ hu hl hstep => Returning.call hu hl hstep) ⟨hready, Or.inl ⟨hd, hexit⟩⟩ hms
  have hrest : ∀ ms t, Runs.exec (meanwhile tOnEvent) s ms = some t →
      (∀ l, t.goOn tOnEvent l = none) → (t.owner = .idle ↔ ¬ ShutOut t) := by
    intro ms t hms hnone
    obtain ⟨-, hready', ⟨hd', hexit'⟩ | ⟨hidle, hc⟩⟩ := hreturning ms t hms
    · refine ⟨fun hidle => ?_, fun hout => ?_⟩
      · rw [hidle] at hd'
        cases hd'
      · obtain ⟨l, u, hstep, -⟩ : ∃ l u, t.goOn tOnEvent l = some u ∧ Ends u ∧ ¬ ShutOut u :=
          hready'.goesOn hd' hexit'.ends hout
        rw [hnone l] at hstep
        cases hstep
    · refine ⟨fun _ hout => ?_, fun _ => hidle⟩
      obtain ⟨-, hgone⟩ := hready'.inv.owned.down hidle hc
      rw [hout.1] at hgone
      cases hgone
  refine ⟨fun ms t hms => ⟨?_, hrest ms t hms⟩, fun hall hgate => ?_,
    fun hgate ms t hms hnone => ?_⟩
  · obtain ⟨hcount, -⟩ := hreturning ms t hms
    omega
  · obtain ⟨ms, u, hms, hu, hdu, houtu⟩ := hready.shutOut_reached hd hgate
    obtain ⟨ks, t, hks, hnone, hidle⟩ := hu.shutOut_rests hdu houtu
    exact hidle (hall _ t (exec_meanwhile (exec_append_some hms hks)) hnone)
  · have hgate' := exec_invariant (I := fun u => ¬ AtGate u)
      (fun _ _ _ hu hstep => not_atGate_meanwhile hu hstep) hgate hms
    exact (hrest ms t hms hnone).mpr fun hout => hgate' (Or.inl hout.1)

/-- `StopMainLoop`, and `Destroy` before the loop has the event. -/
def stopDestroyRun : List EventThreadStep :=
  createSteps ++ [.stopMainLoop] ++ putSteps 0 ++ [.destroy]

/-- An event is put while `Destroy` waits; the loop goes on to its end. -/
def goOnSteps : List EventThreadStep :=
  [.owner, .queue (.put (XLThreadEvent.new.setType 20))] ++ getSteps 0 ++ [.loop, .loop, .loop] ++
    putSteps 1 ++ [.owner, .owner]

theorem destroy_always_returns_stopped :
    ∃ s t, exec (XLEventThread.next fun n _ => n + 1) (new (0 : Nat)) stopDestroyRun = some s ∧
      s.owner = .taking false ∧ exec (meanwhile fun n _ => n + 1) s goOnSteps = some t ∧
      t.owner = .idle ∧
      goOnSteps.countP EventThreadStep.own ≤
        s.left + 26 * goOnSteps.countP (fun l => !l.own) ∧
      ∀ ms u, exec (meanwhile fun n _ => n + 1) s ms = some u →
        (∀ l, u.goOn (fun n _ => n + 1) l = none) → u.owner = .idle := by
  obtain ⟨s, hs, hend⟩ := (Option.any_eq_true _ _).mp
    (show (exec (XLEventThread.next fun n _ => n + 1) (new (0 : Nat)) stopDestroyRun).any
      (fun s => s.owner == .taking false && s.accepted.any isExit && s.loop == .testing &&
        (exec (meanwhile fun n _ => n + 1) s goOnSteps).any (fun t => t.owner == .idle)) = true by
      decide)
  simp only [Bool.and_eq_true, beq_iff_eq, List.any_eq_true] at hend
  obtain ⟨⟨⟨ho, hexit⟩, hl⟩, hgo⟩ := hend
  obtain ⟨t, ht, hidle⟩ := (Option.any_eq_true _ _).mp hgo
  obtain ⟨hbound, hreturns⟩ :=
    destroy_always_returns 0 (by decide) hs (by rw [ho]; rfl) hexit
  exact ⟨s, t, hs, ho, ht, beq_iff_eq.mp hidle, (hbound _ t ht).1,
    hreturns.mpr (by simp [AtGate, hl])⟩

/-! ### With an event left over -/

/-- A loop that waits in `Get` while every `Put` has returned keeps `Destroy` for good. -/
theorem Inv.stuck (hs : Inv s) {undo : Bool} (ho : s.owner = .joining undo)
    (hblocked : s.Blocked) (hputs : s.putsReturned = true) (l : EventThreadStep) :
    s.goOn tOnEvent l = none := by
  obtain ⟨hpass, j, g, hl, hj, hentered⟩ := hblocked
  have hlive := (hs.kept.live (hs.owned.live (by rw [hl]; rfl))).1
  cases hnext : s.goOn tOnEvent l with
  | none => rfl
  | some u =>
      obtain ⟨hown, hstep⟩ := goOn_eq_some.mp hnext
      cases moves_of_next hstep with
      | create | createTwice | destroy | destroyBare | destroyNone | stop | stopNone => cases hown
      | spawned h | handled h | given h | undo h | queued h | taking h | joined h =>
          rw [ho] at h
          cases h
      | joining h hended =>
          rw [hl] at hended
          cases hended
      | tested h | ungated h | taken h | synced h | enter h | early h | stopped h | get h
      | exitEvent h | dispatch h | leave h =>
          rw [hl] at h
          cases h
      | got h hk | gotNone h hk =>
          cases hl.symm.trans h
          cases hj.symm.trans hk
          cases hentered
      | queue hget hq =>
          cases QueueRun.moves_of_next hlive hq with
          | put | get => cases hown
          | putLock hi | putCopy hi | accept hi | refuse hi | putUnlock hi | putFail hi
          | putGive hi =>
              obtain ⟨b, hb⟩ := putsReturned_iff.mp hputs _ _ hi
              cases hb
          | getTake hi hp => exact absurd hp hpass
          | getLock hi | getPop hi | getMiss hi | getUnlock hi =>
              cases hl.symm.trans (hs.getting.isOwn hi (by simp))
              cases hj.symm.trans hi
              cases hentered

/-- An event is put in a life whose thread has looked at `mCreated` too early.  In the next it
takes the permit of the `Exit`. -/
def leftOverRun : List EventThreadStep :=
  [.create, .owner, .owner, .loop, .loop, .loop, .loop, .loop, .owner, .owner] ++
    [.queue (.put (XLThreadEvent.new.setType 20))] ++ putSteps 0 ++ destroySteps ++ createSteps ++
    [.stopMainLoop] ++ putSteps 1 ++ [.destroy, .owner] ++ getSteps 0 ++ [.loop, .loop]

/-- So `Destroy` can wait for good on a thread that has been stopped. -/
theorem left_over_never_returns :
    ∃ s, exec (XLEventThread.next fun n _ => n + 1) (new (0 : Nat)) leftOverRun = some s ∧
      s.owner = .joining false ∧ ExitAccepted s ∧ ∀ l, s.goOn (fun n _ => n + 1) l = none := by
  obtain ⟨s, hs, hend⟩ := (Option.any_eq_true _ _).mp
    (show (exec (XLEventThread.next fun n _ => n + 1) (new (0 : Nat)) leftOverRun).any
      (fun s => s.owner == .joining false && s.accepted.any isExit && s.loop == .getting 1 &&
        s.putsReturned && !decide s.queue.queue.sem.Passes &&
        s.queue.gets[1]?.map (fun g => g.pc) == some .entered) = true by decide)
  simp only [Bool.and_eq_true, beq_iff_eq, List.any_eq_true, Option.map_eq_some_iff,
    Bool.not_eq_true', decide_eq_false_iff_not] at hend
  obtain ⟨⟨⟨⟨⟨ho, hexit⟩, hl⟩, hputs⟩, hpass⟩, g, hj, hentered⟩ := hend
  exact ⟨s, hs, ho, hexit, (inv_exec (inv_new 0) hs).stuck ho ⟨hpass, 1, g, hl, hj, hentered⟩ hputs⟩

end XLEventThread

end ServClient
