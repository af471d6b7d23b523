/-
Whether the events of a handler reach it.

While no accepted event has the number the loop takes for its own `Exit`, the loop goes on, and what
is accepted is handled (`Coming`): the loop waits for a call of `Put` at most, its own or another's,
and such a call goes on.  The argument fails where such an event is taken from the queue, and
`ON_DISCONNECT` has that number.

What is still in a call of `Put` when the argument starts may come behind it with any type.  So the
argument is about the events accepted by then, and not about those that come later.
-/
import ServClient.HandlerRun
import ServClient.Proofs.EventProgress

namespace ServClient

open Runs XLServerClientHandler

/-! ### A thread that looks too early -/

theorem LoopPc.gone_of_inLoop {loop : LoopPc} (h : loop.inLoop = true) : loop.gone = false := by
  cases loop with
  | testing | getting | handling => rfl
  | off | started | taking | synced | running | leaving | ended => cases h

namespace XLEventThread

variable {σ : Type} {tOnEvent : σ → XLThreadEvent → σ} {s s' : XLEventThread σ}
  {l : EventThreadStep}

/-- The thread has ended, or is about to, and has not been in the loop. -/
def Early (s : XLEventThread σ) : Prop :=
  s.entered = false ∧ (s.loop = .leaving ∨ s.loop = .ended)

theorem Early.next (h : Early s) (hstep : s.next tOnEvent l = some s') (hcreate : l ≠ .create) :
    Early s' := by
  obtain ⟨hentered, hloop⟩ := h
  cases moves_of_next hstep with
  | create | createTwice => exact absurd rfl hcreate
  | leave => exact ⟨hentered, Or.inr rfl⟩
  | tested hl | ungated hl | taken hl | synced hl | enter hl | early hl | stopped hl | get hl
  | got hl | gotNone hl | exitEvent hl | dispatch hl =>
      rw [hl] at hloop
      rcases hloop with h | h <;> cases h
  | destroy | destroyBare | destroyNone | spawned | handled | given | undo | queued | taking
  | joining | joined | stop | stopNone | queue => exact ⟨hentered, hloop⟩

/-- A thread in the loop is past all that it could have looked at too early. -/
theorem Lively.inLoop (h : Lively s) (hentered : s.entered = true) : s.loop.inLoop = true :=
  (h.inv.logged.entered hentered).resolve_right fun hexit => by
    rw [h.stays.1] at hexit
    cases hexit.1

theorem Lively.created (h : Lively s) (hin : s.loop.inLoop = true) :
    s.owner = .idle ∧ s.created = true := by
  have howned := h.inv.owned
  unfold Owned at howned
  cases howner : s.owner with
  | idle =>
      cases hcreated : s.created with
      | true => exact ⟨rfl, rfl⟩
      | false =>
          obtain ⟨-, hgone⟩ := h.inv.owned.down howner hcreated
          rw [LoopPc.gone_of_inLoop hin] at hgone
          cases hgone
  | spawned =>
      rw [howner] at howned
      exact absurd (hin.symm.trans howned.2.2) (by decide)
  | handled | given | queued =>
      rw [howner] at howned
      exact absurd (hin.symm.trans howned.2.2.2) (by decide)
  | taking undo => exact absurd howner (h.up.1 undo).1
  | joining undo => exact absurd howner (h.up.1 undo).2
  | joined => exact absurd howner h.up.2

/-- The loop goes on, or the thread has looked too early. -/
theorem Lively.next_or_early (h : Lively s) (hstep : s.next tOnEvent l = some s')
    (hkind : l = .create ∨ l = .owner ∨ l = .loop ∨ ∃ ql, l = .queue ql ∧ ql.inside = true)
    (hevent : l = .loop → s.loop = .handling → s.event.iType ≠ eventThreadEventTypeExit) :
    Lively s' ∨ Early s' := by
  by_cases hlate : l = .loop → (s.loop = .synced → s.handle = true) ∧
      (s.loop = .running → s.created = true)
  · exact Or.inl (h.next hstep hkind hlate hevent)
  · have hloop : l = .loop := by
      by_contra hl
      exact hlate fun heq => absurd heq hl
    subst hloop
    have hentered (hout : s.loop.inLoop = false) : s.entered = false := by
      by_contra hin
      exact absurd (hout.symm.trans (h.inLoop (by simpa using hin))) (by decide)
    cases moves_of_next hstep with
    | synced hl =>
        refine Or.inr ⟨hentered (by rw [hl]; rfl), Or.inl ?_⟩
        have hhandle : ¬ s.handle = true := fun hh => hlate fun _ => ⟨fun _ => hh, by simp [hl]⟩
        exact if_neg hhandle
    | early hl hc => exact Or.inr ⟨hentered (by rw [hl]; rfl), Or.inl rfl⟩
    | enter hl hc => exact absurd (fun _ => ⟨by simp [hl], fun _ => hc⟩) hlate
    | tested hl | ungated hl | taken hl | stopped hl | get hl | got hl | gotNone hl | exitEvent hl
    | dispatch hl | leave hl => exact absurd (fun _ => ⟨by simp [hl], by simp [hl]⟩) hlate

/-- While no `Exit` is accepted. -/
theorem lively_or_early_next (hs : Inv s)
    (h : (∀ e ∈ s.accepted, e.iType ≠ eventThreadEventTypeExit) → Lively s ∨ Early s)
    (hstep : s.next tOnEvent l = some s')
    (hkind : l = .create ∨ l = .owner ∨ l = .loop ∨ ∃ ql, l = .queue ql ∧ ql.inside = true)
    (hcreate : l = .create → s.loop = .off)
    (hclear : ∀ e ∈ s'.accepted, e.iType ≠ eventThreadEventTypeExit) : Lively s' ∨ Early s' := by
  have hflows := flows_inside hs hstep hkind
  have hbefore : ∀ e ∈ s.accepted, e.iType ≠ eventThreadEventTypeExit := fun e he =>
    hclear e ((hflows.pushed.map Prod.snd).subset he)
  rcases h hbefore with hlively | hearly
  · exact hlively.next_or_early hstep hkind fun _ hl =>
      hbefore _ (List.mem_of_getElem? (hs.event_accepted hl))
  · refine Or.inr (hearly.next hstep fun hl => ?_)
    have hoff := hcreate hl
    obtain ⟨-, hloop⟩ := hearly
    rw [hoff] at hloop
    rcases hloop with h | h <;> cases h

end XLEventThread

/-- `t_OnEvent` has to return from its `Put`. -/
def HandlingPc.load : HandlingPc → Nat
  | idle => 0
  | posting _ _ => 1

/-! ### What one step can do -/

/-- The event that a thread posts by this step. -/
def HandlerRunStep.event : HandlerRunStep → Option XLThreadEvent
  | putEvent type => some (eventOf type)
  | putEventWith type msg len => some (eventWith type msg len)
  | onRecieve msg len => some (eventWith serverDataRecieved msg len)
  | sendHelloToClient => some (eventOf serverClientStart)
  | start | create | startRest | loop | posted | queue _ => none

namespace HandlerRun

variable {r r' : HandlerRun} {l : HandlerRunStep}

/-- What the loop does with an event that is no `Exit`. -/
def dispatched (r : HandlerRun) : HandlerRun :=
  { r with thread := { r.thread with
      self := onEventFront r.handler r.thread.event
      loop := .testing
      dispatched := r.thread.dispatched ++ [r.thread.event] } }

/-- What one step can do, with what it finds. -/
inductive Moves (r : HandlerRun) : HandlerRunStep → HandlerRun → Prop
  | start {thread} (hs : r.start = .fresh)
      (hthread : r.thread.next onEventFront .create = some thread) :
      Moves r .start { r with thread := thread, start := .creating }
  | create {thread} (hs : r.start = .creating)
      (hthread : r.thread.next onEventFront .owner = some thread) :
      Moves r .create { r with thread := thread }
  | startRest (hs : r.start = .creating) (howner : r.thread.owner = .idle) :
      Moves r .startRest { (r.setHandler r.handler.makeSocket).put (eventOf serverClientStart) with
        start := .started }
  /-- Some thread posts an event. -/
  | post {m e} (hm : m.event = some e) : Moves r m (r.put e)
  /-- The loop goes on, and calls no `Put`. -/
  | loop {thread} (hidle : r.handling = .idle) (hposts : r.posts = none)
      (hthread : r.thread.next onEventFront .loop = some thread) :
      Moves r .loop { r with thread := thread }
  | handle {e} (hidle : r.handling = .idle) (hl : r.thread.loop = .handling)
      (he : r.thread.event.iType ≠ eventThreadEventTypeExit)
      (hposts : (r.handler.tOnEventFront r.thread.event).2 = some e) :
      Moves r .loop { r.dispatched.put e with
        handling := .posting r.thread.queue.puts.length r.thread.event.iType }
  | posted {i type} (hi : r.handling = .posting i type) (hreturned : r.putReturned i = true) :
      Moves r .posted { r.setHandler (r.handler.tOnEventBack type) with handling := .idle }
  | queue {ql q} (hinside : ql.inside = true) (hq : r.thread.queue.next ql = some q) :
      Moves r (.queue ql) { r with thread := { r.thread with queue := q } }

/-- Where the loop is if its next step calls `Put`. -/
theorem handling_of_posts {e : XLThreadEvent} (hposts : r.posts = some e) :
    (r.thread.loop = .handling ∧ r.thread.event.iType ≠ eventThreadEventTypeExit) ∧
      (r.handler.tOnEventFront r.thread.event).2 = some e := by
  unfold posts at hposts
  split at hposts
  · rename_i hin
    exact ⟨hin, hposts⟩
  · cases hposts

/-- The loop's step, where it calls `Put` and where not. -/
theorem next_loop_handle {e : XLThreadEvent} (hidle : r.handling = .idle)
    (hposts : r.posts = some e) :
    r.next .loop = some { r.dispatched.put e with
      handling := .posting r.thread.queue.puts.length r.thread.event.iType } := by
  have hin := (handling_of_posts hposts).1
  have hthread : r.thread.next onEventFront .loop = some _ :=
    XLEventThread.next_dispatch hin.1 hin.2
  simp only [next, hidle, if_true, hthread, Option.map_some, hposts]
  rfl

theorem next_loop {thread : XLEventThread XLServerClientHandler} (hidle : r.handling = .idle)
    (hposts : r.posts = none) (hthread : r.thread.next onEventFront .loop = some thread) :
    r.next .loop = some { r with thread := thread } := by
  simp only [next, if_pos hidle, hthread, Option.map_some, hposts]

theorem moves_of_next (h : r.next l = some r') : Moves r l r' := by
  cases l with
  | start =>
      simp only [next] at h
      split at h
      · rename_i hs
        obtain ⟨thread, hthread, rfl⟩ := Option.map_eq_some_iff.mp h
        exact .start hs hthread
      · cases h
  | create =>
      simp only [next] at h
      split at h
      · rename_i hs
        obtain ⟨thread, hthread, rfl⟩ := Option.map_eq_some_iff.mp h
        exact .create hs hthread
      · cases h
  | startRest =>
      simp only [next] at h
      split at h
      · rename_i hs
        cases h
        exact .startRest hs.1 hs.2
      · cases h
  | putEvent | putEventWith | onRecieve | sendHelloToClient => cases h; exact .post rfl
  | loop =>
      by_cases hidle : r.handling = .idle
      · cases hposts : r.posts with
        | some e =>
            obtain ⟨hin, hfront⟩ := handling_of_posts hposts
            rw [next_loop_handle hidle hposts] at h
            cases h
            exact .handle hidle hin.1 hin.2 hfront
        | none =>
            simp only [next, if_pos hidle, hposts] at h
            obtain ⟨thread, hthread, rfl⟩ := Option.map_eq_some_iff.mp h
            exact .loop hidle hposts hthread
      · simp only [next, if_neg hidle] at h
        cases h
  | posted =>
      simp only [next] at h
      split at h
      · rename_i hi
        split at h
        · rename_i hreturned
          cases h
          exact .posted hi hreturned
        · cases h
      · cases h
  | queue ql =>
      simp only [next] at h
      split at h
      · rename_i hinside
        obtain ⟨thread, hthread, rfl⟩ := Option.map_eq_some_iff.mp h
        cases XLEventThread.moves_of_next hthread with
        | queue hl hq => exact .queue hinside hq
      · cases h

/-! ### What every step keeps

The handler's `Put` goes to its own queue and can find it full.  The loop is then in `t_OnEvent`
until the call has returned, and nothing else moves the handler meanwhile.
-/

/-- While `t_OnEvent` waits for its `Put`, the loop is where it will go on. -/
def Posting (r : HandlerRun) : Prop :=
  ∀ i type, r.handling = .posting i type →
    i < r.thread.queue.puts.length ∧ r.thread.loop = .testing

theorem Posting.idle (h : r.handling = .idle) : Posting r := fun i type hi => by
  rw [h] at hi
  cases hi

@[simp] theorem put_puts (r : HandlerRun) (e : XLThreadEvent) :
    (r.put e).thread.queue.puts.length = r.thread.queue.puts.length + 1 := by
  simp [put, QueueRun.callPut]

@[simp] theorem put_dispatched (r : HandlerRun) (e : XLThreadEvent) :
    (r.put e).thread.dispatched = r.thread.dispatched := rfl

theorem Posting.put (h : Posting r) (e : XLThreadEvent) : Posting (r.put e) := fun i type hi => by
  obtain ⟨hlt, hl⟩ := h i type hi
  exact ⟨by rw [put_puts]; omega, hl⟩

/-- What every step keeps of a handler whose loop is not told to end. -/
structure Kept (r : HandlerRun) : Prop where
  inv : r.thread.Inv
  fresh : r.start = .fresh → r.thread.loop = .off
  posting : Posting r
  life : (∀ e ∈ r.thread.accepted, e.iType ≠ eventThreadEventTypeExit) →
    r.thread.Lively ∨ r.thread.Early

theorem kept_new (identifier : Int) (config : SocketConfig)
    (configListener recieveListener : Bool) :
    Kept (new identifier config configListener recieveListener) where
  inv := XLEventThread.inv_new _
  fresh := fun _ => rfl
  posting := Posting.idle rfl
  life := fun _ => Or.inl (XLEventThread.lively_new _)

theorem Kept.put (h : Kept r) (e : XLThreadEvent) : Kept (r.put e) where
  inv := by
    have hstep : r.thread.next onEventFront (.queue (.put e)) = some (r.put e).thread := rfl
    exact XLEventThread.inv_step h.inv hstep
  fresh := h.fresh
  posting := h.posting.put e
  life := fun hclear => (h.life hclear).imp (fun hlively => hlively.put e) id

theorem Kept.setHandler (h : Kept r) (x : XLServerClientHandler) : Kept (r.setHandler x) where
  inv := h.inv.setSelf x
  fresh := h.fresh
  posting := h.posting
  life := fun hclear => (h.life hclear).imp (fun hlively => hlively.setSelf x) id

/-- Those that go on in the loop have come past all that they could have looked at too early. -/
theorem not_late (h : r.thread.Lively) (hentered : r.thread.entered = true) :
    (r.thread.loop = .synced → r.thread.handle = true) ∧
      (r.thread.loop = .running → r.thread.created = true) := by
  have hin := h.inLoop hentered
  refine ⟨fun hl => ?_, fun hl => ?_⟩ <;> rw [hl] at hin <;> cases hin

/-- The steps of the owner and of the calls in progress leave the loop where it is. -/
theorem Posting.thread (h : Posting r) (hs : r.thread.Inv) {tl : EventThreadStep}
    {thread : XLEventThread XLServerClientHandler}
    (hstep : r.thread.next onEventFront tl = some thread)
    (hkind : tl = .owner ∨ tl = .loop ∧ r.handling = .idle ∨
      ∃ ql, tl = .queue ql ∧ ql.inside = true) : Posting { r with thread := thread } := by
  intro i type hi
  have hflows := XLEventThread.flows_inside hs hstep
    (Or.inr (hkind.imp_right (Or.imp_left And.left)))
  obtain ⟨hlt, hl⟩ := h i type hi
  refine ⟨hflows.putsLength ▸ hlt, ?_⟩
  rcases hkind with rfl | ⟨-, hidle⟩ | ⟨ql, rfl, -⟩
  · cases XLEventThread.moves_of_next hstep <;> exact hl
  · rw [hidle] at hi
    cases hi
  · cases XLEventThread.moves_of_next hstep
    exact hl

/-- A step of the event thread. -/
theorem Kept.thread (h : Kept r) {tl : EventThreadStep}
    {thread : XLEventThread XLServerClientHandler}
    (hstep : r.thread.next onEventFront tl = some thread)
    (hkind : tl = .owner ∨ tl = .loop ∧ r.handling = .idle ∨
      ∃ ql, tl = .queue ql ∧ ql.inside = true)
    (hfresh : r.start = .fresh → thread.loop = .off) : Kept { r with thread := thread } where
  inv := XLEventThread.inv_step h.inv hstep
  fresh := hfresh
  posting := h.posting.thread h.inv hstep hkind
  life := XLEventThread.lively_or_early_next h.inv h.life hstep
    (Or.inr (hkind.imp id (Or.imp And.left id))) (by rintro rfl; simp at hkind)

theorem Kept.next (h : Kept r) (hstep : r.next l = some r') : Kept r' := by
  cases moves_of_next hstep with
  | start hs hthread =>
      refine ⟨XLEventThread.inv_step h.inv hthread, (fun hf => by cases hf), ?_,
        XLEventThread.lively_or_early_next h.inv h.life hthread (Or.inl rfl) fun _ => h.fresh hs⟩
      intro i type hi
      have htesting := (h.posting i type hi).2
      rw [h.fresh hs] at htesting
      cases htesting
  | create hs hthread =>
      exact h.thread hthread (Or.inl rfl) fun hf => by rw [hs] at hf; cases hf
  | startRest hs howner =>
      have hput := (h.setHandler r.handler.makeSocket).put (eventOf serverClientStart)
      exact ⟨hput.inv, (fun hf => by cases hf), hput.posting, hput.life⟩
  | post hm => exact h.put _
  | loop hidle hposts hthread =>
      refine h.thread hthread (Or.inr (Or.inl ⟨rfl, hidle⟩)) fun hf => ?_
      have hoff := h.fresh hf
      simp [XLEventThread.next, XLEventThread.loopStep, hoff] at hthread
  | @handle e hidle hl he hposts =>
      have hthread : r.thread.next onEventFront .loop = some _ :=
        XLEventThread.next_dispatch hl he
      have hput := (h.thread hthread (Or.inr (Or.inl ⟨rfl, hidle⟩)) fun hf => by
        rw [h.fresh hf] at hl
        cases hl).put e
      refine ⟨hput.inv, hput.fresh, fun i type hi => ?_, hput.life⟩
      cases hi
      exact ⟨by simp [HandlerRun.put, QueueRun.callPut, dispatched], rfl⟩
  | posted hi hreturned =>
      have hset := h.setHandler (r.handler.tOnEventBack ‹Int›)
      exact ⟨hset.inv, hset.fresh, Posting.idle rfl, hset.life⟩
  | queue hinside hq =>
      exact h.thread (XLEventThread.next_queue hinside hq) (Or.inr (Or.inr ⟨_, rfl, hinside⟩))
        h.fresh

/-! ### What there is to do

Each event that is accepted can still be handled.  What makes it so is a measure in which an answer
weighs less than the event it answers.
-/

/-- The events of `base` are accepted, and on their way to the handler. -/
structure Coming (base : List XLThreadEvent) (r : HandlerRun) : Prop where
  lively : r.thread.Lively
  entered : r.thread.entered = true
  posting : Posting r
  accepted : base <+: r.thread.accepted

/-- An event that is handled takes more off than its answer puts on. -/
def load (base : List XLThreadEvent) (r : HandlerRun) : Nat :=
  r.thread.load + 40 * (base.length - r.thread.dispatched.length) + r.handling.load

variable {base : List XLThreadEvent}

/-- While events of `base` are not handled, the next one is one of them. -/
theorem Coming.event_mem (h : Coming base r) (hl : r.thread.loop = .handling)
    (hleft : r.thread.dispatched.length < base.length) : r.thread.event ∈ base := by
  have haccepted := h.lively.inv.event_accepted hl
  obtain ⟨more, hmore⟩ := h.accepted
  rw [← hmore, List.getElem?_append_left hleft] at haccepted
  exact List.mem_of_getElem? haccepted

/-- A step of the event thread in which nothing is handled. -/
theorem Coming.thread (h : Coming base r) {tl : EventThreadStep}
    {thread : XLEventThread XLServerClientHandler}
    (hstep : r.thread.next onEventFront tl = some thread)
    (hkind : tl = .loop ∧ r.handling = .idle ∧ r.thread.loop ≠ .handling ∨
      ∃ ql, tl = .queue ql ∧ ql.inside = true) :
    Coming base { r with thread := thread } ∧ thread.dispatched = r.thread.dispatched := by
  have hinside : tl = .create ∨ tl = .owner ∨ tl = .loop ∨
      ∃ ql, tl = .queue ql ∧ ql.inside = true := Or.inr (Or.inr (hkind.imp_left And.left))
  have hflows := XLEventThread.flows_inside h.lively.inv hstep hinside
  have hquiet : tl = .loop → r.thread.loop ≠ .handling := by
    rintro rfl
    simpa using And.right (hkind.resolve_right (by rintro ⟨ql, hql, -⟩; cases hql)).2
  refine ⟨⟨?_, ?_, ?_, h.accepted.trans (hflows.pushed.map Prod.snd)⟩, ?_⟩
  · exact h.lively.next hstep hinside
      (fun _ => not_late h.lively h.entered) fun hl hh => absurd hh (hquiet hl)
  · have hentered := h.entered
    rcases hkind with ⟨rfl, -, -⟩ | ⟨ql, rfl, -⟩ <;>
      cases XLEventThread.moves_of_next hstep <;> first | rfl | exact hentered
  · exact h.posting.thread h.lively.inv hstep (Or.inr (hkind.imp (fun hk => ⟨hk.1, hk.2.1⟩) id))
  · rcases XLEventThread.dispatch_or_quiet hstep with hsame | ⟨hl, hh, -⟩
    · exact hsame.2
    · exact absurd hh (hquiet hl)

/-- Such a step, where it makes the thread's load less. -/
theorem Coming.ofThread (h : Coming base r) {tl : EventThreadStep}
    {thread : XLEventThread XLServerClientHandler}
    (hstep : r.thread.next onEventFront tl = some thread)
    (hkind : tl = .loop ∧ r.handling = .idle ∧ r.thread.loop ≠ .handling ∨
      ∃ ql, tl = .queue ql ∧ ql.inside = true)
    (hless : thread.load < r.thread.load) :
    ∃ l r', r.goOn l = some r' ∧ Coming base r' ∧ load base r' < load base r := by
  obtain ⟨hcoming, hsame⟩ := h.thread hstep hkind
  have hload : load base { r with thread := thread } < load base r := by
    simp only [load, hsame]
    omega
  rcases hkind with ⟨rfl, hidle, hl⟩ | ⟨ql, rfl, hinside⟩
  · have hposts : r.posts = none := if_neg fun hin => hl hin.1
    exact ⟨.loop, _, (if_pos rfl).trans (next_loop hidle hposts hstep), hcoming, hload⟩
  · have hnext : r.next (.queue ql) = some { r with thread := thread } := by
      simp only [next, hinside, if_true, hstep, Option.map_some]
    exact ⟨.queue ql, _, (if_pos hinside).trans hnext, hcoming, hload⟩

/-- The loop handles an event of `base`. -/
theorem Coming.handles (h : Coming base r)
    (hbase : ∀ e ∈ base, e.iType ≠ eventThreadEventTypeExit)
    (hleft : r.thread.dispatched.length < base.length) (hidle : r.handling = .idle)
    (hl : r.thread.loop = .handling) :
    ∃ l r', r.goOn l = some r' ∧ Coming base r' ∧ load base r' < load base r := by
  have he := hbase _ (h.event_mem hl hleft)
  have hthread : r.thread.next onEventFront .loop = some _ := XLEventThread.next_dispatch hl he
  have hlively : XLEventThread.Lively r.dispatched.thread :=
    h.lively.next hthread (by simp) (fun _ => not_late h.lively h.entered) fun _ _ => he
  have hlength : r.dispatched.thread.dispatched.length = r.thread.dispatched.length + 1 := by
    simp [dispatched]
  have hload : r.dispatched.thread.load + 6 = r.thread.load := by
    simp [XLEventThread.load, XLEventThread.getLoad, dispatched, hl, LoopPc.load]
  cases hposts : r.posts with
  | none =>
      refine ⟨.loop, r.dispatched, (if_pos rfl).trans (next_loop hidle hposts hthread),
        ⟨hlively, h.entered, Posting.idle hidle, h.accepted⟩, ?_⟩
      simp only [load, hlength]
      show _ + r.handling.load < _
      omega
  | some e =>
      refine ⟨.loop, _, (if_pos rfl).trans (next_loop_handle hidle hposts),
        ⟨hlively.put e, h.entered, fun i type hi => ?_, h.accepted⟩, ?_⟩
      · cases hi
        exact ⟨by simp [put, QueueRun.callPut, dispatched], rfl⟩
      · have hput : (r.dispatched.put e).thread.load ≤ r.dispatched.thread.load + 26 :=
          XLEventThread.load_callPut e rfl
        simp only [load, put_dispatched, hlength, hidle, HandlingPc.load]
        omega

/-- A step is taken while there is one to take. -/
theorem Coming.goesOn (h : Coming base r)
    (hbase : ∀ e ∈ base, e.iType ≠ eventThreadEventTypeExit)
    (hleft : r.thread.dispatched.length < base.length) :
    ∃ l r', r.goOn l = some r' ∧ Coming base r' ∧ load base r' < load base r := by
  have hin := h.lively.inLoop h.entered
  obtain ⟨howner, hcreated⟩ := h.lively.created hin
  obtain ⟨hlive, -⟩ := h.lively.inv.kept.live (h.lively.inv.owned.live hin)
  cases hh : r.handling with
  | idle =>
      by_cases hl : r.thread.loop = .handling
      · exact h.handles hbase hleft hh hl
      have hoff : r.thread.loop ≠ .off := fun hoff => by
        rw [hoff] at hin
        cases hin
      have hstep (hgoes : ∃ tl thread, r.thread.GoesOn (fun _ => false) tl ∧
          r.thread.next onEventFront tl = some thread ∧ thread.load < r.thread.load) :
          ∃ l r', r.goOn l = some r' ∧ Coming base r' ∧ load base r' < load base r := by
        obtain ⟨tl, thread, hgoes, hthread, hless⟩ := hgoes
        exact h.ofThread hthread
          (hgoes.imp (fun htl => ⟨htl, hh, hl⟩) fun ⟨ql, htl, hinside, _⟩ => ⟨ql, htl, hinside⟩)
          hless
      rcases h.lively.loop_goesOn (fun _ => false) howner hcreated hoff hl with hblocked | hgoes
      · refine hstep ?_
        -- The loop waits, so what is not handled is still in its call of `Put`.
        by_contra hstuck
        have hnil := h.lively.pending_eq_nil hblocked fun i c hi => by
          by_contra hgive
          refine hstuck (h.lively.put_goesOn (fun _ => false) hblocked hi fun b hb => ?_)
          rw [hb] at hgive
          exact hgive rfl
        have haccepted := h.lively.inv.accepted_eq
        rw [hblocked.inHand, hnil, List.append_nil, List.append_nil] at haccepted
        have hle := h.accepted.length_le
        rw [haccepted] at hle
        omega
      · exact hstep hgoes
  | posting i type =>
      obtain ⟨hlt, htesting⟩ := h.posting i type hh
      obtain ⟨c, hi⟩ : ∃ c, r.thread.queue.puts[i]? = some c :=
        ⟨_, List.getElem?_eq_getElem hlt⟩
      by_cases hreturned : r.putReturned i = true
      · have hnext : r.next .posted =
            some { r.setHandler (r.handler.tOnEventBack type) with handling := .idle } := by
          simp only [next, hh, hreturned, if_true]
        refine ⟨.posted, _, (if_pos rfl).trans hnext,
          ⟨h.lively.setSelf _, h.entered, Posting.idle rfl, h.accepted⟩, ?_⟩
        simp only [load, hh, HandlingPc.load, setHandler]
        show r.thread.load + _ + 0 < _
        omega
      · have hpc : ∀ b, c.pc ≠ .returned b := fun b hb => hreturned (by simp [putReturned, hi, hb])
        obtain ⟨ql, q, hinside, hq, -, hgets, hless⟩ :=
          QueueRun.some_put_goesOn (fun _ => false) h.lively.settled hlive
            (fun k hk => by simp at hk) hi hpc
        refine h.ofThread (XLEventThread.next_queue hinside hq) (Or.inr ⟨ql, rfl, hinside⟩) ?_
        simp only [XLEventThread.load, XLEventThread.getLoad, htesting]
        omega

/-! ### Whole runs -/

/-- The main loop is running. -/
def Running (r : HandlerRun) : Prop := r.thread.loop.inLoop = true ∧ r.thread.exit = false

/-- What is accepted is passed to `t_OnEvent` once and in order. -/
structure Heard (r : HandlerRun) : Prop where
  inOrder : r.thread.dispatched <+: r.thread.accepted
  running : Running r
  /-- Nobody has to post or call anything more for that. -/
  reached : ∃ ls t, exec goOn r ls = some t ∧ r.thread.accepted <+: t.thread.dispatched ∧ Running t

theorem goOn_eq_some (h : r.goOn l = some r') : r.next l = some r' := by
  unfold goOn at h
  split at h
  · exact h
  · cases h

theorem dispatched_inOrder (h : r.thread.Inv) : r.thread.dispatched <+: r.thread.accepted := by
  rw [h.accepted_eq, List.append_assoc]
  exact List.prefix_append _ _

theorem running_of_lively (h : r.thread.Lively) (hentered : r.thread.entered = true) : Running r :=
  ⟨h.inLoop hentered, h.stays.1⟩

/-- What is on its way arrives. -/
theorem Coming.reaches (h : Coming base r)
    (hbase : ∀ e ∈ base, e.iType ≠ eventThreadEventTypeExit) :
    ∃ ls t, exec goOn r ls = some t ∧ base <+: t.thread.dispatched ∧ Running t := by
  obtain ⟨ls, t, hrun, ht, hall⟩ := exec_reaches (I := Coming base)
    (G := fun t => base.length ≤ t.thread.dispatched.length) (load base) (fun u hu => by
      by_cases hleft : u.thread.dispatched.length < base.length
      · exact Or.inr (hu.goesOn hbase hleft)
      · exact Or.inl (Nat.le_of_not_lt hleft)) h
  refine ⟨ls, t, hrun, ?_, running_of_lively ht.lively ht.entered⟩
  exact List.prefix_of_prefix_length_le ht.accepted (dispatched_inOrder ht.lively.inv) hall

/-- `ON_DISCONNECT` has the number of the loop's `Exit`. -/
theorem msgOnDisconnect_eq : msgOnDisconnect = eventThreadEventTypeExit := by decide

variable {identifier : Int} {config : SocketConfig} {configListener recieveListener : Bool}
  {ls : List HandlerRunStep}

/--
In every state of a run whose loop has been entered: every accepted event is passed to `t_OnEvent`
once and in order, with the main loop running after it, if and only if none of them is an
`ON_DISCONNECT`.
-/
theorem heard_iff
    (hrun : exec next (new identifier config configListener recieveListener) ls = some r)
    (hentered : r.thread.entered = true) :
    Heard r ↔ ∀ e ∈ r.thread.accepted, e.iType ≠ msgOnDisconnect := by
  have hkept : Kept r := exec_invariant (fun _ _ _ hu hstep => hu.next hstep) (kept_new ..) hrun
  rw [msgOnDisconnect_eq]
  constructor
  · intro hheard e he
    obtain ⟨ms, t, hreach, hall, -⟩ := hheard.reached
    have ht : Kept t := exec_invariant (fun _ _ _ hu hstep => hu.next (goOn_eq_some hstep)) hkept
      hreach
    exact ht.inv.logged.dispatched e (hall.subset he)
  · intro hclear
    have hlively := (hkept.life hclear).resolve_right fun hearly => by
      rw [hearly.1] at hentered
      cases hentered
    have hcoming : Coming r.thread.accepted r :=
      ⟨hlively, hentered, hkept.posting, List.prefix_rfl⟩
    exact ⟨dispatched_inOrder hkept.inv, running_of_lively hlively hentered,
      hcoming.reaches hclear⟩

/-- `Start`, up to where the loop is entered; `Put` call 0 is that of `Start`. -/
def startSteps : List HandlerRunStep :=
  [.start, .create, .create, .create, .create, .startRest, .loop, .loop, .loop, .loop]

/-- `Put` call `i` on its own. -/
def putSteps (i : Nat) : List HandlerRunStep :=
  [.queue (.putLock i), .queue (.putCopy i), .queue (.putPush i), .queue (.putUnlock i),
    .queue (.putGive i)]

/-- The loop gets an event in its call `j`, and looks at it. -/
def eventSteps (j : Nat) : List HandlerRunStep :=
  [.loop, .queue (.getTake j), .queue (.getLock j), .queue (.getPop j), .queue (.getUnlock j),
    .loop, .loop]

/-- The hello of `Start` is handled, and then data comes in, which the loop answers. -/
def dataRun : List HandlerRunStep :=
  startSteps ++ putSteps 0 ++ eventSteps 0 ++
    [.onRecieve (some [104, 105]) 2, .putEvent msgOnAlive] ++ putSteps 1 ++ putSteps 2 ++
    eventSteps 1 ++ putSteps 3

theorem heard_iff_data : ∃ r, exec next (new 5 SocketConfig.new false true) dataRun = some r ∧
    r.thread.accepted.map XLThreadEvent.iType =
      [serverClientStart, serverDataRecieved, msgOnAlive, msgOnRecieve] ∧ Heard r := by
  obtain ⟨r, hr, hrest⟩ := (Option.any_eq_true _ _).mp
    (show (exec next (new 5 SocketConfig.new false true) dataRun).any
      (fun r => decide (r.thread.entered = true ∧ r.thread.accepted.map XLThreadEvent.iType =
        [serverClientStart, serverDataRecieved, msgOnAlive, msgOnRecieve])) = true by
      decide +kernel)
  obtain ⟨hentered, htypes⟩ := of_decide_eq_true hrest
  refine ⟨r, hr, htypes, (heard_iff hr hentered).mpr fun e he heq => ?_⟩
  have hmem : msgOnDisconnect ∈ r.thread.accepted.map XLThreadEvent.iType :=
    heq ▸ List.mem_map_of_mem he
  rw [htypes] at hmem
  exact absurd hmem (by decide)

/-- An `ON_DISCONNECT`, and an `ON_ALIVE` behind it. -/
def disconnectRun : List HandlerRunStep :=
  startSteps ++ putSteps 0 ++ eventSteps 0 ++ [.putEvent msgOnDisconnect, .putEvent msgOnAlive] ++
    putSteps 1 ++ putSteps 2 ++ eventSteps 1 ++ [.loop, .loop]

theorem disconnect_not_heard :
    ∃ r, exec next (new 5 SocketConfig.new false true) disconnectRun = some r ∧
      r.thread.entered = true ∧
      r.thread.accepted = [eventOf serverClientStart, eventOf msgOnDisconnect, eventOf msgOnAlive] ∧
      r.thread.dispatched = [eventOf serverClientStart] ∧ r.thread.loop = .ended ∧ ¬ Heard r := by
  obtain ⟨r, hr, hrest⟩ := (Option.any_eq_true _ _).mp
    (show (exec next (new 5 SocketConfig.new false true) disconnectRun).any
      (fun r => decide (r.thread.entered = true ∧
        r.thread.accepted =
          [eventOf serverClientStart, eventOf msgOnDisconnect, eventOf msgOnAlive] ∧
        r.thread.dispatched = [eventOf serverClientStart] ∧ r.thread.loop = .ended)) = true by
      decide +kernel)
  obtain ⟨hentered, haccepted, hdispatched, hended⟩ := of_decide_eq_true hrest
  refine ⟨r, hr, hentered, haccepted, hdispatched, hended, fun hheard => ?_⟩
  have hin := hheard.running.1
  rw [hended] at hin
  cases hin

end HandlerRun

end ServClient
