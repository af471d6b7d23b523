/-
The start of an event thread.

`XLSimpleThreads::Create` gives `m_Sync1` before `XLEventThread::Create` makes the queue and
sets `mCreated`.  The new thread has one look at `m_handle` and one at `mCreated`, and ends if
it finds either not set, while `Create` goes on and returns true.  Past these two the loop is
left with an `Exit` event only, and `Get` is called on a queue that is created.
-/
import ServClient.Proofs.EventThread

namespace ServClient

open Runs

/-- An event thread, and whether its loop has dequeued an `Exit` event in this life. -/
structure WatchedThread (σ : Type) where
  thread : XLEventThread σ
  sawExit : Bool

namespace WatchedThread

variable {σ : Type} {tOnEvent : σ → XLThreadEvent → σ} {s s' : WatchedThread σ}
  {l : EventThreadStep}

/-- An event thread as it is constructed, no `Exit` seen. -/
def new (self : σ) : WatchedThread σ := { thread := XLEventThread.new self, sawExit := false }

/-- A new life has seen none; an event comes into the loop's hand where `Get` returns it. -/
def watch (s : WatchedThread σ) (t : XLEventThread σ) : EventThreadStep → Bool
  | .create => s.thread.created && s.sawExit
  | .loop => s.sawExit ||
      (decide (t.loop = .handling) && decide (t.event.iType = eventThreadEventTypeExit))
  | _ => s.sawExit

/-- A step of the thread, and what is seen of it. -/
def next (tOnEvent : σ → XLThreadEvent → σ) (s : WatchedThread σ) (l : EventThreadStep) :
    Option (WatchedThread σ) :=
  (s.thread.next tOnEvent l).map fun t => { thread := t, sawExit := s.watch t l }

theorem next_eq_some :
    s.next tOnEvent l = some s' ↔
      s.thread.next tOnEvent l = some s'.thread ∧ s'.sawExit = s.watch s'.thread l := by
  rw [next, Option.map_eq_some_iff]
  constructor
  · rintro ⟨t, ht, rfl⟩
    exact ⟨ht, rfl⟩
  · rintro ⟨ht, hsaw⟩
    exact ⟨_, ht, by rw [← hsaw]⟩

/-! ### The property and its condition -/

/-- From when `Create` has returned true until `Destroy` has returned. -/
structure StaysInLoop (s : WatchedThread σ) : Prop where
  left : s.thread.created = true → s.thread.loop = .leaving ∨ s.thread.loop = .ended →
    s.sawExit = true
  queue : s.thread.loop.inLoop = true → s.thread.queue.queue.created = true

/-- A `Create` that starts a thread finds `mExit` false. -/
def CreatesFresh (s : WatchedThread σ) : EventThreadStep → Prop
  | .create => s.thread.created = false → s.thread.exit = false
  | _ => True

/-- The new thread looks at `m_handle` and at `mCreated` when they are set. -/
def LooksLate (s : WatchedThread σ) : EventThreadStep → Prop
  | .loop => (s.thread.loop = .synced → s.thread.handle = true) ∧
      (s.thread.loop = .running → s.thread.created = true)
  | _ => True

instance (s : WatchedThread σ) : ∀ l, Decidable (CreatesFresh s l)
  | .create => inferInstanceAs (Decidable (_ → _))
  | .destroy | .owner | .loop | .stopMainLoop | .queue _ => isTrue trivial

instance (s : WatchedThread σ) : ∀ l, Decidable (LooksLate s l)
  | .loop => inferInstanceAs (Decidable (_ ∧ _))
  | .create | .destroy | .owner | .stopMainLoop | .queue _ => isTrue trivial

/-! ### While the thread looks late enough

A new thread that finds `m_handle` and `mCreated` set goes into its loop, and leaves it by an
`Exit`.
-/

/-- A loop that has been left has seen an `Exit`. -/
structure Seen (s : WatchedThread σ) : Prop where
  inv : s.thread.Inv
  exit : s.thread.exit = true → s.sawExit = true
  handling : s.thread.loop = .handling → s.thread.event.iType = eventThreadEventTypeExit →
    s.sawExit = true
  left : s.thread.loop = .leaving ∨ s.thread.loop = .ended → s.sawExit = true

theorem seen_new (self : σ) : Seen (new self) where
  inv := XLEventThread.inv_new self
  exit := nofun
  handling := nofun
  left := by simp [new, XLEventThread.new]

theorem Seen.staysInLoop (h : Seen s) : StaysInLoop s where
  left := fun _ => h.left
  queue := fun hin => h.inv.owned.live hin

theorem Seen.next (h : Seen s) (hfresh : CreatesFresh s l) (hlate : LooksLate s l)
    (hstep : s.next tOnEvent l = some s') : Seen s' := by
  obtain ⟨hnext, hsaw⟩ := next_eq_some.mp hstep
  have hinv := XLEventThread.inv_step h.inv hnext
  have hm := XLEventThread.moves_of_next hnext
  obtain ⟨t', saw'⟩ := s'
  dsimp only at *
  subst hsaw
  have hold : s.sawExit = true → s.watch t' .loop = true := fun hs => by simp [watch, hs]
  cases hm with
  | create ho hc =>
      have hexit := hfresh hc
      exact ⟨hinv, fun he => absurd (hexit.symm.trans he) nofun, nofun, by simp⟩
  | createTwice hc =>
      have hwatch : s.watch s.thread .create = s.sawExit := by simp [watch, hc]
      rw [hwatch]
      exact ⟨hinv, h.exit, h.handling, h.left⟩
  | destroy | destroyBare | destroyNone | spawned | handled | given | undo | queued | taking
  | joining | joined | stop | stopNone | queue => exact ⟨hinv, h.exit, h.handling, h.left⟩
  | tested hl | ungated hl | taken hl =>
      exact ⟨hinv, fun he => hold (h.exit he), nofun, by simp⟩
  | synced hl =>
      have hhandle := hlate.1 hl
      exact ⟨hinv, fun he => hold (h.exit he), by simp [hhandle], by simp [hhandle]⟩
  | enter hl hc => exact ⟨hinv, fun he => hold (h.exit he), nofun, by simp⟩
  | early hl hc => exact absurd (hc.symm.trans (hlate.2 hl)) nofun
  | stopped hl he => exact ⟨hinv, fun he => hold (h.exit he), nofun, fun _ => hold (h.exit he)⟩
  | get hl he => exact ⟨hinv, fun he => hold (h.exit he), nofun, by simp⟩
  | @got j out hl hj =>
      refine ⟨hinv, fun he => hold (h.exit he), fun _ htype => ?_, by simp⟩
      simp [watch, show (out.getD s.thread.event).iType = _ from htype]
  | @gotNone j out hl hj =>
      obtain ⟨g, hown, hne⟩ := h.inv.getting.own j hl
      cases hown.symm.trans hj
      exact absurd rfl hne
  | exitEvent hl he => exact ⟨hinv, fun _ => hold (h.handling hl he), nofun, by simp⟩
  | dispatch hl he => exact ⟨hinv, fun he => hold (h.exit he), nofun, by simp⟩
  | leave hl => exact ⟨hinv, fun he => hold (h.exit he), nofun, fun _ => hold (h.left (Or.inl hl))⟩

/-! ### When it looks too early

A thread that looks before they are set goes to its end at once, with no `Exit` anywhere, and
`Create` returns true nevertheless.  So the condition cannot be dropped.
-/

/-- `Create` is past the start of the thread, the thread has left, and no `Exit` was seen. -/
structure LeftEarly (s : WatchedThread σ) : Prop where
  inv : s.thread.Inv
  creating : s.thread.owner = .spawned ∨ s.thread.owner = .handled ∨ s.thread.owner = .given ∨
    s.thread.owner = .queued
  left : s.thread.loop = .leaving ∨ s.thread.loop = .ended
  unseen : s.sawExit = false

theorem LeftEarly.created (h : LeftEarly s) : s.thread.created = false := by
  have howned := h.inv.owned
  unfold XLEventThread.Owned at howned
  rcases h.creating with ho | ho | ho | ho <;> rw [ho] at howned <;> exact howned.1

theorem LeftEarly.next (h : LeftEarly s) (hstep : s.next tOnEvent l = some s') :
    LeftEarly s' ∨ ¬ StaysInLoop s' := by
  obtain ⟨hnext, hsaw⟩ := next_eq_some.mp hstep
  have hinv := XLEventThread.inv_step h.inv hnext
  have hm := XLEventThread.moves_of_next hnext
  have hcreated := h.created
  obtain ⟨t', saw'⟩ := s'
  dsimp only at *
  subst hsaw
  cases hm with
  | create ho | destroy ho | destroyBare ho | taking ho | joining ho | joined ho =>
      have hcreating := h.creating
      simp [ho] at hcreating
  | createTwice hc | stop hc => exact absurd (hcreated.symm.trans hc) nofun
  | destroyNone | stopNone | queue => exact Or.inl ⟨hinv, h.creating, h.left, h.unseen⟩
  | spawned ho => exact Or.inl ⟨hinv, Or.inr (Or.inl rfl), h.left, h.unseen⟩
  | handled ho => exact Or.inl ⟨hinv, Or.inr (Or.inr (Or.inl rfl)), h.left, h.unseen⟩
  | given ho hq => exact Or.inl ⟨hinv, Or.inr (Or.inr (Or.inr rfl)), h.left, h.unseen⟩
  | undo ho hq =>
      -- The queue is always created here.
      have howned : (OwnerPc.taking true).Keeps _ _ _ _ := hinv.owned
      cases howned.1
  | queued ho =>
      refine Or.inr fun hstays => ?_
      have hsaw : s.sawExit = true := hstays.left rfl h.left
      rw [h.unseen] at hsaw
      cases hsaw
  | tested hl | ungated hl | taken hl | synced hl | enter hl | early hl | stopped hl | get hl
  | got hl | gotNone hl | exitEvent hl | dispatch hl =>
      have hleft := h.left
      simp [hl] at hleft
  | leave hl =>
      exact Or.inl ⟨hinv, h.creating, Or.inr rfl, by simp [watch, h.unseen]⟩

/-- What holds however early the thread looks. -/
structure Starting (s : WatchedThread σ) : Prop where
  inv : s.thread.Inv
  unseen : s.thread.loop = .started ∨ s.thread.loop = .taking ∨ s.thread.loop = .synced ∨
    s.thread.loop = .running → s.sawExit = false
  destroying : ∀ undo, s.thread.owner = .taking undo ∨ s.thread.owner = .joining undo →
    s.thread.handle = true

theorem starting_new (self : σ) : Starting (new self) where
  inv := XLEventThread.inv_new self
  unseen := fun _ => rfl
  destroying := by simp [new, XLEventThread.new]

theorem Starting.next (h : Starting s) (hstep : s.next tOnEvent l = some s') : Starting s' := by
  obtain ⟨hnext, hsaw⟩ := next_eq_some.mp hstep
  have hinv := XLEventThread.inv_step h.inv hnext
  have hm := XLEventThread.moves_of_next hnext
  obtain ⟨t', saw'⟩ := s'
  dsimp only at *
  subst hsaw
  cases hm with
  | create ho hc => exact ⟨hinv, fun _ => by simp [watch, hc], by simp⟩
  | createTwice hc =>
      have hwatch : s.watch s.thread .create = s.sawExit := by simp [watch, hc]
      rw [hwatch]
      exact ⟨hinv, h.unseen, h.destroying⟩
  | destroy ho hc hh => exact ⟨hinv, h.unseen, fun _ _ => hh⟩
  | taking ho => exact ⟨hinv, h.unseen, fun _ _ => h.destroying _ (Or.inl ho)⟩
  | undo ho hq =>
      have howned : (OwnerPc.taking true).Keeps _ _ _ _ := hinv.owned
      cases howned.1
  | @joining undo ho hl =>
      refine ⟨hinv, h.unseen, ?_⟩
      cases undo <;> simp
  | destroyBare | spawned | handled | given | queued | joined => exact ⟨hinv, h.unseen, by simp⟩
  | destroyNone | stop | stopNone | queue => exact ⟨hinv, h.unseen, h.destroying⟩
  | tested hl | ungated hl =>
      exact ⟨hinv, fun _ => by simp [watch, h.unseen (Or.inl hl)], h.destroying⟩
  | taken hl =>
      exact ⟨hinv, fun _ => by simp [watch, h.unseen (Or.inr (Or.inl hl))], h.destroying⟩
  | synced hl =>
      refine ⟨hinv, fun _ => ?_, h.destroying⟩
      simp only [watch, h.unseen (Or.inr (Or.inr (Or.inl hl))), Bool.false_or]
      split <;> simp
  | enter | early | stopped | get | got | gotNone | exitEvent | dispatch | leave =>
      exact ⟨hinv, by simp, h.destroying⟩

/-- A look that comes too early is one while `Create` goes on. -/
theorem Starting.leftEarly (h : Starting s) (hlate : ¬ LooksLate s l)
    (hstep : s.next tOnEvent l = some s') : LeftEarly s' := by
  obtain ⟨hnext, hsaw⟩ := next_eq_some.mp hstep
  have hinv := XLEventThread.inv_step h.inv hnext
  have hm := XLEventThread.moves_of_next hnext
  have howned := h.inv.owned
  unfold XLEventThread.Owned at howned
  obtain ⟨t', saw'⟩ := s'
  dsimp only at *
  subst hsaw
  have hcreating (hno : s.thread.created = true → s.thread.handle = true → False)
      (hgone : s.thread.loop.gone = false) : s.thread.owner = .spawned ∨
        s.thread.owner = .handled ∨ s.thread.owner = .given ∨ s.thread.owner = .queued := by
    cases ho : s.thread.owner with
    | spawned | handled | given | queued => simp
    | idle =>
        rw [ho] at howned
        cases hc : s.thread.created with
        | true => rw [hc] at howned; exact absurd howned.1 fun hh => hno hc hh
        | false => rw [hc] at howned; exact absurd (howned.2.symm.trans hgone) nofun
    | taking undo | joining undo =>
        rw [ho] at howned
        exact absurd (h.destroying undo (by simp [ho])) fun hh => hno howned.2.1 hh
    | joined =>
        rw [ho] at howned
        exact absurd (howned.2.2.symm.trans hgone) nofun
  cases hm with
  | synced hl =>
      have hhandle : s.thread.handle = false := by
        by_contra hh
        exact hlate ⟨fun _ => by simpa using hh, by simp [hl]⟩
      have hunseen := h.unseen (Or.inr (Or.inr (Or.inl hl)))
      refine ⟨hinv, hcreating (fun _ hh => absurd (hhandle.symm.trans hh) nofun) (by rw [hl]; rfl),
        ?_, ?_⟩
      · simp [hhandle]
      · simp [watch, hunseen, hhandle]
  | enter hl hc => exact absurd ⟨by simp [hl], fun _ => hc⟩ hlate
  | early hl hc =>
      have hunseen := h.unseen (Or.inr (Or.inr (Or.inr hl)))
      exact ⟨hinv, hcreating (fun hc' _ => absurd (hc.symm.trans hc') nofun) (by rw [hl]; rfl),
        Or.inl rfl, by simp [watch, hunseen]⟩
  | tested hl | ungated hl | taken hl | stopped hl | get hl | got hl | gotNone hl | exitEvent hl
  | dispatch hl | leave hl => exact absurd ⟨by simp [hl], by simp [hl]⟩ hlate
  | create | createTwice | destroy | destroyBare | destroyNone | spawned | handled | given | undo
  | queued | taking | joining | joined | stop | stopNone | queue => exact absurd trivial hlate

/--
Any number of lives, each with `mExit` false at its start: if the thread looks at `m_handle` and
at `mCreated` when they are set, it stays in its loop until it has dequeued an `Exit`, and its
queue is there; and in a run that does not stop inside a call of the owner, only then.
-/
theorem stays_in_loop_iff (self : σ) {ls : List EventThreadStep}
    (hrun : exec (next tOnEvent) (new self) ls = some s)
    (hfresh : Along (next tOnEvent) CreatesFresh (new self) ls) :
    (Along (next tOnEvent) LooksLate (new self) ls →
      Throughout (next tOnEvent) StaysInLoop (new self) ls) ∧
    (s.thread.owner = .idle → Throughout (next tOnEvent) StaysInLoop (new self) ls →
      Along (next tOnEvent) LooksLate (new self) ls) := by
  constructor
  · intro hlate
    exact throughout_of_along (I := Seen)
      (fun _ _ _ hs hq hl => hs.next hq.1 hq.2 hl) (fun _ hs => hs.staysInLoop) (seen_new self)
      (hfresh.and hlate)
  · intro hidle hall
    by_contra hmiss
    obtain ⟨before, l, after, u, v, rfl, hbefore, hlate, hstep, hafter⟩ := exists_miss hrun hmiss
    have hu := exec_invariant (I := Starting) (fun _ _ _ hs hl => hs.next hl) (starting_new self)
      hbefore
    have hlater := (hall.tail hbefore).2 v hstep
    have hend := trapped (J := LeftEarly) (fun _ _ _ hs hl => hs.next hl)
      (hu.leftEarly hlate hstep) hlater hafter
    have hcreating := hend.creating
    simp [hidle] at hcreating

/-! ### One start, in two orders -/

/-- The new thread gets to run when `Create` has returned. -/
def createFirst : List EventThreadStep :=
  [.create, .owner, .owner, .owner, .owner, .loop, .loop, .loop, .loop]

theorem stays_in_loop_iff_createFirst :
    ∃ s, exec (next fun (_ : Unit) _ => ()) (new ()) createFirst = some s ∧
      s.thread.loop = .testing ∧
      Throughout (next fun (_ : Unit) _ => ()) StaysInLoop (new ()) createFirst := by
  refine ⟨_, rfl, rfl, (stays_in_loop_iff () rfl ?_).1 ?_⟩
  · decide
  · decide

/-- The new thread waits for the `Give` and looks at `mCreated` before `Create` sets it: the loop
is over before it began, and `Create` returns true. -/
theorem leaves_before_create_returns :
    ∃ s, exec (next fun (_ : Unit) _ => ()) (new ())
        [.create, .owner, .owner, .loop, .loop, .loop, .loop, .owner, .owner, .loop] = some s ∧
      s.thread.owner = .idle ∧ s.thread.created = true ∧ s.thread.loop = .ended ∧
      s.thread.entered = false ∧ s.sawExit = false ∧ ¬ StaysInLoop s := by
  refine ⟨_, rfl, rfl, rfl, rfl, rfl, rfl, fun h => ?_⟩
  have hsaw := h.left rfl (Or.inr rfl)
  cases hsaw

end WatchedThread

end ServClient
