/-
Whether the peer can steer the event loop of a client.

`OnListen` puts what comes from the peer into the queue the loop takes its own events from,
whatever its type.  Every event handled can be traced to `Start` or to a call of `OnListen`
(`Sourced`).  As long as those of the second kind have other types than `Exit` and
`START_THREAD`, the loop goes on, the `START_THREAD` branch is taken for the event of
`Start`, and the others are passed on; the first that has one of these types ends the loop,
or takes the branch again and gets no further.
-/
import ServClient.ClientThread
import ServClient.Proofs.EventLoop
import ServClient.Proofs.Listening
import ServClient.Proofs.Restart

namespace ServClient

open Runs

namespace XLClientThread

variable (t : XLClientThread) {e : XLThreadEvent}

@[simp] theorem tOnEvent_listener : (t.tOnEvent e).listener = t.listener := by
  unfold tOnEvent forward startDataListen
  split
  · split <;> rfl
  · split
    · rfl
    · split <;> rfl

theorem tOnEvent_start (he : e.iType = startThread) :
    (t.tOnEvent e).startBranches = t.startBranches + 1 ∧
      (t.tOnEvent e).forwarded = t.forwarded := by
  rw [tOnEvent, if_pos he]
  unfold startDataListen
  exact ⟨rfl, by split <;> rfl⟩

theorem tOnEvent_other (he : e.iType ≠ startThread) :
    (t.tOnEvent e).startBranches = t.startBranches ∧ (t.listener = true →
      (t.tOnEvent e).forwarded = t.forwarded ++ if e.iType ≠ lifeBeat then [e] else []) := by
  rw [tOnEvent, if_neg he]
  by_cases hbeat : e.iType = lifeBeat
  · simp [hbeat]
  · rw [if_neg hbeat, forward]
    refine ⟨by split <;> rfl, fun hlistener => ?_⟩
    rw [if_pos hlistener, if_pos hbeat]

end XLClientThread

namespace ClientRun

open XLClientThread (tOnEvent startThread lifeBeat startEvent)

variable {s s' : ClientRun} {l : ClientRunStep}

/-- The state after the handler has had the event. -/
def handled (s : ClientRun) : ClientRun :=
  { s with thread := { s.thread with
      self := s.client.tOnEvent s.thread.event
      loop := .testing
      dispatched := s.thread.dispatched ++ [s.thread.event] } }

/-! ### What one step can do -/

/-- What one step can do, with what it finds. -/
inductive Moves (s : ClientRun) : ClientRunStep → ClientRun → Prop
  | start {thread} (hfresh : s.start = .fresh)
      (hthread : s.thread.next tOnEvent .create = some thread) :
      Moves s .start { s with thread := thread, start := .creating }
  /-- The event thread moves, without a call of `Put` or of the handler. -/
  | thread {l tl thread} (hlabel : l ≠ .start)
      (hthread : s.thread.next tOnEvent tl = some thread)
      (htl : tl = .owner ∨ tl = .loop ∧ l = .loop ∨ ∃ ql, tl = .queue ql ∧ ql.inside = true)
      (hself : thread.self = s.thread.self)
      (hdispatched : thread.dispatched = s.thread.dispatched) :
      Moves s l { s with thread := thread }
  | postStart (hstart : s.start = .creating) :
      Moves s .postStart { s.put startEvent with
        start := .started, startPut := some s.thread.queue.puts.length }
  | notCreated : Moves s .postStart { s with start := .started }
  | onListen {e} : Moves s (.onListen e) { s.put e with
      listened := s.listened ++ [s.thread.queue.puts.length] }
  | dispatch (hl : s.thread.loop = .handling)
      (he : s.thread.event.iType ≠ eventThreadEventTypeExit) :
      Moves s .loop s.handled

theorem moves_of_next (h : s.next l = some s') : Moves s l s' := by
  cases l with
  | start =>
      simp only [next] at h
      split at h
      · rename_i hfresh
        obtain ⟨thread, hthread, rfl⟩ := Option.map_eq_some_iff.mp h
        exact .start hfresh hthread
      · cases h
  | create =>
      simp only [next] at h
      split at h
      · obtain ⟨thread, hthread, rfl⟩ := Option.map_eq_some_iff.mp h
        rcases XLEventThread.dispatch_or_quiet hthread with ⟨hself, hd⟩ | ⟨hl, -⟩
        · exact .thread (by simp) hthread (Or.inl rfl) hself hd
        · cases hl
      · cases h
  | postStart =>
      simp only [next] at h
      split at h
      · rename_i hstart
        split at h
        · cases h; exact .postStart hstart.1
        · cases h; exact .notCreated
      · cases h
  | onListen e =>
      simp only [next] at h
      split at h
      · cases h; exact .onListen
      · cases h
  | loop =>
      simp only [next] at h
      obtain ⟨thread, hthread, rfl⟩ := Option.map_eq_some_iff.mp h
      rcases XLEventThread.dispatch_or_quiet hthread with ⟨hself, hd⟩ | ⟨-, hl, he, rfl⟩
      · exact .thread (by simp) hthread (Or.inr (Or.inl ⟨rfl, rfl⟩)) hself hd
      · exact .dispatch hl he
  | queue ql =>
      simp only [next] at h
      split at h
      · rename_i hinside
        obtain ⟨thread, hthread, rfl⟩ := Option.map_eq_some_iff.mp h
        rcases XLEventThread.dispatch_or_quiet hthread with ⟨hself, hd⟩ | ⟨hl, -⟩
        · exact .thread (by simp) hthread (Or.inr (Or.inr ⟨ql, rfl, hinside⟩)) hself hd
        · cases hl
      · cases h

/-! ### Where the events come from

The loop's events are those of `Start` and those that `OnListen` was given.  Only the latter can be
the peer's, so an invariant over the calls of `Put` tells them apart.
-/

/-- `START_THREAD` comes from `Start`, and every other event was given to `OnListen`. -/
structure Sourced (s : ClientRun) : Prop where
  clean : s.thread.Clean
  fresh : s.start = .fresh → ∃ listener, s = new listener
  creating : s.start = .creating → s.startPut = none
  startPut : ∀ i, s.startPut = some i → i ∉ s.listened ∧
    ∃ c, s.thread.queue.puts[i]? = some c ∧ c.event = startEvent
  listened : ∀ i ∈ s.listened, i < s.thread.queue.puts.length
  puts : ∀ i, i < s.thread.queue.puts.length → s.startPut = some i ∨ i ∈ s.listened

theorem sourced_new (listener : Bool) : Sourced (new listener) where
  clean := XLEventThread.clean_new _
  fresh := fun _ => ⟨listener, rfl⟩
  creating := fun _ => rfl
  startPut := fun i hi => by cases hi
  listened := fun i hi => by cases hi
  puts := fun i hi => absurd hi (Nat.not_lt_zero i)

/-- Before `Start` there is nothing else to do. -/
theorem next_new {listener : Bool} (h : (new listener).next l = some s') : l = .start := by
  cases l with
  | start => rfl
  | create | postStart | onListen | loop => cases h
  | queue ql =>
      cases ql with
      | put | get | putLock | putCopy | putPush | putUnlock | putGive | getTake | getLock | getPop
      | getUnlock => cases h

theorem Sourced.begun (hs : Sourced s) (hl : l ≠ .start) (h : s.next l = some s') :
    s.start ≠ .fresh := by
  intro hfresh
  obtain ⟨listener, rfl⟩ := hs.fresh hfresh
  exact hl (next_new h)

/-- A call of `Put` by any thread is a step of the event thread. -/
theorem put_next (s : ClientRun) (e : XLThreadEvent) :
    s.thread.next tOnEvent (.queue (.put e)) = some (s.put e).thread := rfl

theorem put_puts (s : ClientRun) (e : XLThreadEvent) :
    ∃ pc, (s.put e).thread.queue.puts = s.thread.queue.puts ++ [⟨e, pc⟩] := ⟨_, rfl⟩

theorem Sourced.put (hs : Sourced s) (e : XLThreadEvent) : (s.put e).thread.Clean :=
  hs.clean.step (l := .queue (.put e)) trivial (put_next s e)

/-- The steps of the event thread that are not calls from outside. -/
theorem thread_flows {tl : EventThreadStep} {thread : XLEventThread XLClientThread}
    (hs : s.thread.Inv) (hthread : s.thread.next tOnEvent tl = some thread)
    (htl : tl = .owner ∨ tl = .loop ∧ l = .loop ∨ ∃ ql, tl = .queue ql ∧ ql.inside = true) :
    XLEventThread.Flows s.thread thread :=
  XLEventThread.flows_inside hs hthread (Or.inr (htl.imp_right (Or.imp_left And.left)))

theorem Sourced.step (hs : Sourced s) (h : s.next l = some s') : Sourced s' := by
  cases moves_of_next h with
  | start hfresh hthread =>
      obtain ⟨listener, rfl⟩ := hs.fresh hfresh
      refine ⟨hs.clean.step (l := .create) (fun _ => ⟨rfl, rfl⟩) hthread, (fun hf => by cases hf),
        fun _ => rfl, (fun i hi => by cases hi), (fun i hi => by cases hi), ?_⟩
      cases hthread
      exact hs.puts
  | @thread _ tl thread hlabel hthread htl hself hd =>
      have hclean : s.thread.CreatesClean tl := by
        rcases htl with rfl | ⟨rfl, -⟩ | ⟨ql, rfl, -⟩ <;> trivial
      have hflows := thread_flows hs.clean.inv hthread htl
      refine ⟨hs.clean.step hclean hthread, fun hf => absurd hf (hs.begun hlabel h), hs.creating,
        fun i hi => ?_, fun i hi => ?_, fun i hi => ?_⟩
      · obtain ⟨hnot, c, hc, he⟩ := hs.startPut i hi
        have hlt : i < thread.queue.puts.length := by
          rw [hflows.putsLength]
          exact Calls.lt_of_getElem?_eq_some hc
        obtain ⟨c', hc', hevent⟩ := hflows.puts i _ (List.getElem?_eq_getElem hlt)
        cases hc.symm.trans hc'
        exact ⟨hnot, _, List.getElem?_eq_getElem hlt, hevent.trans he⟩
      · dsimp only
        rw [hflows.putsLength]
        exact hs.listened i hi
      · dsimp only at hi
        rw [hflows.putsLength] at hi
        exact hs.puts i hi
  | postStart hstart =>
      obtain ⟨pc, hputs⟩ := put_puts s startEvent
      refine ⟨hs.put _, (fun hf => by cases hf), (fun hf => by cases hf), fun i hi => ?_,
        fun i hi => ?_, fun i hi => ?_⟩
      · cases hi
        exact ⟨fun hmem => absurd (hs.listened _ hmem) (Nat.lt_irrefl _),
          _, by rw [hputs]; exact List.getElem?_concat_length, rfl⟩
      · rw [hputs, List.length_append]
        exact Nat.lt_add_right _ (hs.listened i hi)
      · rw [hputs, List.length_append, List.length_singleton] at hi
        rcases Nat.lt_succ_iff_lt_or_eq.mp hi with hlt | rfl
        · have := hs.puts i hlt
          rw [hs.creating hstart] at this
          exact Or.inr (this.resolve_left (by simp))
        · exact Or.inl rfl
  | notCreated =>
      exact ⟨hs.clean, (fun hf => by cases hf), (fun hf => by cases hf), hs.startPut, hs.listened,
        hs.puts⟩
  | @onListen e =>
      obtain ⟨pc, hputs⟩ := put_puts s e
      refine ⟨hs.put _, fun hf => absurd hf (hs.begun (by simp) h), hs.creating, fun i hi => ?_,
        fun i hi => ?_, fun i hi => ?_⟩
      · obtain ⟨hnot, c, hc, he⟩ := hs.startPut i hi
        have hlt := Calls.lt_of_getElem?_eq_some hc
        refine ⟨fun hmem => ?_, c, by rw [hputs, List.getElem?_append_left hlt, hc], he⟩
        rcases List.mem_append.mp hmem with hold | hnew
        · exact hnot hold
        · rw [List.mem_singleton.mp hnew] at hlt
          exact Nat.lt_irrefl _ hlt
      · rw [hputs, List.length_append, List.length_singleton]
        rcases List.mem_append.mp hi with hold | hnew
        · exact Nat.lt_succ_of_lt (hs.listened i hold)
        · rw [List.mem_singleton.mp hnew]
          exact Nat.lt_succ_self _
      · rw [hputs, List.length_append, List.length_singleton] at hi
        rcases Nat.lt_succ_iff_lt_or_eq.mp hi with hlt | rfl
        · exact (hs.puts i hlt).imp id (List.mem_append_left _)
        · exact Or.inr (List.mem_append_right _ List.mem_cons_self)
  | dispatch hl he =>
      exact ⟨hs.clean.step (l := .loop) trivial (XLEventThread.next_dispatch hl he),
        fun hf => absurd hf (hs.begun (by simp) h), hs.creating, hs.startPut, hs.listened, hs.puts⟩

/-! ### What the peer may send -/

/-- The event in hand was given to `OnListen`. -/
def fromPeer (s : ClientRun) : Bool :=
  (s.thread.queue.pushed[s.thread.dispatched.length]?).any fun r => r.1 ∈ s.listened

/-- If the loop is about to handle an event from `OnListen`, its type is not one of the loop's
own. -/
def TypeApart (s : ClientRun) : ClientRunStep → Prop
  | .loop => s.thread.loop = .handling → s.fromPeer = true →
      s.thread.event.iType ≠ eventThreadEventTypeExit ∧ s.thread.event.iType ≠ startThread
  | _ => True

instance (s : ClientRun) : ∀ l, Decidable (TypeApart s l)
  | .loop => inferInstanceAs (Decidable (_ → _ → _ ∧ _))
  | .start | .create | .postStart | .onListen _ | .queue _ => isTrue trivial

/-- The event in hand is one of the peer's, or that of `Start`. -/
theorem Sourced.inHand (hs : Sourced s) (hl : s.thread.loop = .handling) :
    ∃ i, s.thread.queue.pushed[s.thread.dispatched.length]? = some (i, s.thread.event) ∧
      (i ∈ s.listened ∧ s.fromPeer = true ∨
        s.startPut = some i ∧ i ∉ s.listened ∧ s.thread.event = startEvent) := by
  obtain ⟨i, hi⟩ := hs.clean.inv.event_pushed hl
  obtain ⟨c, hc, hevent⟩ := hs.clean.inv.put_of_pushed (List.mem_of_getElem? hi)
  refine ⟨i, hi, ?_⟩
  rcases hs.puts i (Calls.lt_of_getElem?_eq_some hc) with hstart | hlistened
  · obtain ⟨hnot, c', hc', he⟩ := hs.startPut i hstart
    cases hc.symm.trans hc'
    exact Or.inr ⟨hstart, hnot, hevent.symm.trans he⟩
  · exact Or.inl ⟨hlistened, by simp [fromPeer, hi, hlistened]⟩

/-- The peer has not steered the loop, and what it has sent has gone to the listener. -/
structure Unsteered (s : ClientRun) : Prop where
  exit : s.thread.exit = false
  handled : s.thread.handledPuts.map Prod.snd = s.thread.dispatched
  branch : s.client.startBranches =
    s.thread.handledPuts.countP fun r => r.2.iType = startThread
  start : ∀ r ∈ s.thread.handledPuts, r.2.iType = startThread → s.startPut = some r.1
  /-- Each event of the peer's that has been handled, once, unless it is a `LIFE_BEAT`. -/
  forwarded : s.client.listener = true → s.client.forwarded =
    (s.thread.handledPuts.filter fun r => r.1 ∈ s.listened ∧ r.2.iType ≠ lifeBeat).map Prod.snd
  /-- Where the loop waits for more, all that were accepted have been handled. -/
  caughtUp : s.thread.Waits → s.thread.putsReturned = true →
    s.thread.handledPuts = s.thread.queue.pushed
  accepted : Calls.Logged QueueRun.putEntry s.thread.queue.puts s.thread.queue.pushed

/-- What the handled events have come to, as long as the loop has not been told to end. -/
structure Steady (s : ClientRun) : Prop where
  sourced : Sourced s
  exit : s.thread.exit = false
  branch : s.client.startBranches =
    s.thread.handledPuts.countP fun r => r.2.iType = startThread
  start : ∀ r ∈ s.thread.handledPuts, r.2.iType = startThread → s.startPut = some r.1
  forwarded : s.client.listener = true → s.client.forwarded =
    (s.thread.handledPuts.filter fun r => r.1 ∈ s.listened ∧ r.2.iType ≠ lifeBeat).map Prod.snd

theorem steady_new (listener : Bool) : Steady (new listener) where
  sourced := sourced_new listener
  exit := rfl
  branch := rfl
  start := fun r hr => by cases hr
  forwarded := fun _ => rfl

theorem Steady.unsteered (hs : Steady s) : Unsteered s where
  exit := hs.exit
  handled := hs.sourced.clean.inv.map_handledPuts
  branch := hs.branch
  start := hs.start
  forwarded := hs.forwarded
  caughtUp := by
    intro hw hputs
    obtain ⟨hhand, hnil⟩ := hs.sourced.clean.pending_of_waits hw hputs
    have hlength := congrArg List.length hs.sourced.clean.inv.accepted_eq
    rw [hhand, hnil, List.append_nil, List.append_nil, XLEventThread.accepted,
      List.length_map] at hlength
    rw [XLEventThread.handledPuts, ← hlength, List.take_length]
  accepted := hs.sourced.clean.inv.kept.ordered.puts

/-- No event is handled. -/
theorem Steady.quiet (hs : Steady s) (hsourced : Sourced s') (hexit : s'.thread.exit = false)
    (hclient : s'.client = s.client) (hhandled : s'.thread.handledPuts = s.thread.handledPuts)
    (hstart : ∀ r ∈ s.thread.handledPuts, s.startPut = some r.1 → s'.startPut = some r.1)
    (hlistened : ∀ r ∈ s.thread.handledPuts, (r.1 ∈ s'.listened ↔ r.1 ∈ s.listened)) :
    Steady s' where
  sourced := hsourced
  exit := hexit
  branch := by
    rw [hclient, hhandled]
    exact hs.branch
  start := fun r hr htype => by
    rw [hhandled] at hr
    exact hstart r hr (hs.start r hr htype)
  forwarded := fun hlistener => by
    rw [hclient] at hlistener ⊢
    rw [hs.forwarded hlistener, hhandled]
    congr 1
    exact List.filter_congr fun r hr => by rw [decide_eq_decide, hlistened r hr]

theorem Sourced.handled_lt (hs : Sourced s) {r : Nat × XLThreadEvent}
    (hr : r ∈ s.thread.handledPuts) : r.1 < s.thread.queue.puts.length :=
  hs.clean.inv.kept.ordered.puts.inRange _ _ (List.mem_of_mem_take hr)

theorem handled_puts {i : Nat}
    (hi : s.thread.queue.pushed[s.thread.dispatched.length]? = some (i, s.thread.event)) :
    s.handled.thread.handledPuts = s.thread.handledPuts ++ [(i, s.thread.event)] :=
  XLEventThread.handledPuts_concat hi _ _ _

/-- An event is handled. -/
theorem Steady.dispatch (hs : Steady s) (hl : s.thread.loop = .handling)
    (hQ : s.fromPeer = true → s.thread.event.iType ≠ eventThreadEventTypeExit ∧
      s.thread.event.iType ≠ startThread) (hsourced : Sourced s.handled) : Steady s.handled := by
  obtain ⟨i, hpushed, hsource⟩ := hs.sourced.inHand hl
  have hhandled := handled_puts hpushed
  have hclient : s.handled.client = s.client.tOnEvent s.thread.event := rfl
  have hlistened : s.handled.listened = s.listened := rfl
  rcases hsource with ⟨hi, hpeer⟩ | ⟨hstart, hi, hevent⟩
  · have htype := (hQ hpeer).2
    obtain ⟨hbranch, hforward⟩ := s.client.tOnEvent_other htype
    refine ⟨hsourced, hs.exit, ?_, fun r hr hr' => ?_, fun hlistener => ?_⟩
    · rw [hclient, hbranch, hhandled, List.countP_append, ← hs.branch,
        List.countP_singleton, if_neg (by simpa using htype)]
      rfl
    · rw [hhandled] at hr
      rcases List.mem_append.mp hr with hold | hnew
      · exact hs.start r hold hr'
      · rw [List.mem_singleton.mp hnew] at hr'
        exact absurd hr' htype
    · rw [hclient, XLClientThread.tOnEvent_listener] at hlistener
      rw [hclient, hforward hlistener, hs.forwarded hlistener, hhandled, hlistened,
        List.filter_append, List.map_append]
      congr 1
      by_cases hbeat : s.thread.event.iType = lifeBeat
      · rw [if_neg (by simpa using hbeat), List.filter_cons_of_neg (by simp [hbeat])]
        rfl
      · rw [if_pos hbeat, List.filter_cons_of_pos (by simp [hi, hbeat])]
        rfl
  · have htype : s.thread.event.iType = startThread := by rw [hevent]; rfl
    obtain ⟨hbranch, hforward⟩ := s.client.tOnEvent_start htype
    refine ⟨hsourced, hs.exit, ?_, fun r hr hr' => ?_, fun hlistener => ?_⟩
    · rw [hclient, hbranch, hhandled, List.countP_append, ← hs.branch,
        List.countP_singleton, if_pos (by simpa using htype)]
    · rw [hhandled] at hr
      rcases List.mem_append.mp hr with hold | hnew
      · exact hs.start r hold hr'
      · rw [List.mem_singleton.mp hnew]
        exact hstart
    · rw [hclient, XLClientThread.tOnEvent_listener] at hlistener
      rw [hclient, hforward, hs.forwarded hlistener, hhandled, hlistened,
        List.filter_append, List.filter_cons_of_neg (by simp [hi]), List.filter_nil,
        List.append_nil]

theorem Steady.step (hs : Steady s) (hQ : TypeApart s l) (h : s.next l = some s') :
    Steady s' := by
  have hsourced := hs.sourced.step h
  cases moves_of_next h with
  | start hfresh hthread =>
      obtain ⟨listener, rfl⟩ := hs.sourced.fresh hfresh
      cases hthread
      exact hs.quiet hsourced hs.exit rfl rfl (fun _ _ => id) fun _ _ => Iff.rfl
  | @thread _ tl thread hlabel hthread htl hself hd =>
      have hinv := hs.sourced.clean.inv
      refine hs.quiet hsourced (Bool.eq_false_iff.mpr fun he => ?_) hself
        ((thread_flows hinv hthread htl).handledPuts hinv hd) (fun _ _ => id) fun _ _ => Iff.rfl
      rcases (XLEventThread.exit_iff hinv hthread).mp he with hold | ⟨rfl, hl, htype⟩
      · exact absurd (hs.exit.symm.trans hold) (by decide)
      · obtain htl | ⟨-, rfl⟩ | ⟨ql, htl, -⟩ := htl <;> try cases htl
        obtain ⟨i, -, ⟨-, hpeer⟩ | ⟨-, -, hstart⟩⟩ := hs.sourced.inHand hl
        · exact (hQ hl hpeer).1 htype
        · rw [hstart] at htype
          cases htype
  | postStart hstart =>
      refine hs.quiet hsourced hs.exit rfl rfl (fun r _ hr => ?_) fun _ _ => Iff.rfl
      rw [hs.sourced.creating hstart] at hr
      cases hr
  | notCreated => exact hs.quiet hsourced hs.exit rfl rfl (fun _ _ => id) fun _ _ => Iff.rfl
  | @onListen e =>
      refine hs.quiet hsourced hs.exit rfl rfl (fun _ _ => id) fun r hr => ?_
      have hlt := hs.sourced.handled_lt hr
      rw [List.mem_append, List.mem_singleton, or_iff_left (Nat.ne_of_lt hlt)]
  | dispatch hl he => exact hs.dispatch hl (hQ hl) hsourced

/-! ### The condition is exact

An event of the peer's with a type of the loop's own is not passed on, and an `Exit` ends the loop:
each breaks the property at the step that handles it.
-/

theorem Steady.steered (hs : Steady s) (hQ : ¬ TypeApart s l) (h : s.next l = some s') :
    ¬ Unsteered s' := by
  intro hlaw
  cases l with
  | start | create | postStart | onListen | queue => exact hQ trivial
  | loop =>
      have hmiss : s.thread.loop = .handling ∧ s.fromPeer = true ∧
          (s.thread.event.iType ≠ eventThreadEventTypeExit →
            s.thread.event.iType = startThread) := by
        by_contra hno
        exact hQ fun hl hpeer => by
          by_contra htype
          exact hno ⟨hl, hpeer, fun he => by
            by_contra hstart
            exact htype ⟨he, hstart⟩⟩
      obtain ⟨hl, hpeer, htype⟩ := hmiss
      simp only [next] at h
      obtain ⟨thread, hthread, rfl⟩ := Option.map_eq_some_iff.mp h
      by_cases he : s.thread.event.iType = eventThreadEventTypeExit
      · have hexit := (XLEventThread.exit_iff hs.sourced.clean.inv hthread).mpr
          (Or.inr ⟨rfl, hl, he⟩)
        exact absurd (hlaw.exit.symm.trans hexit) (by decide)
      · rw [XLEventThread.next_dispatch hl he] at hthread
        cases hthread
        obtain ⟨i, hpushed, hsource⟩ := hs.sourced.inHand hl
        have hi : i ∈ s.listened := by simpa [fromPeer, hpushed] using hpeer
        have hnow : Unsteered s.handled := hlaw
        have hmem : (i, s.thread.event) ∈ s.handled.thread.handledPuts := by
          rw [handled_puts hpushed]
          exact List.mem_append_right _ List.mem_cons_self
        exact (hs.sourced.startPut i (hnow.start _ hmem (htype he))).1 hi

/--
Throughout a run the peer has not steered the loop, and what it sends goes to the listener,
exactly if no event from `OnListen` that gets to be handled is an `Exit` or a `START_THREAD`.
-/
theorem peer_cannot_steer_iff (listener : Bool) {ls : List ClientRunStep}
    (hrun : exec next (new listener) ls = some s) :
    Throughout next Unsteered (new listener) ls ↔ Along next TypeApart (new listener) ls :=
  throughout_iff_along (I := Steady) (fun _ hu => hu.unsteered)
    (fun _ _ _ hu hQ hstep => hu.step hQ hstep)
    (fun _ _ _ hu hQ hstep => hu.steered hQ hstep) (steady_new listener) hrun

/-- The steps of `Put` call `i`, and those of the loop's `Get` call `j` with the handling. -/
def putSteps (i : Nat) : List ClientRunStep :=
  [.queue (.putLock i), .queue (.putCopy i), .queue (.putPush i), .queue (.putUnlock i),
    .queue (.putGive i)]

/-- The loop gets the next event with `Get` call `j`, and handles it. -/
def eventSteps (j : Nat) : List ClientRunStep :=
  [.loop, .queue (.getTake j), .queue (.getLock j), .queue (.getPop j), .queue (.getUnlock j),
    .loop, .loop]

/-- `Start`, and its event is handled. -/
def startSteps : List ClientRunStep :=
  [.start, .create, .create, .create, .create, .loop, .loop, .loop, .loop, .postStart] ++
    putSteps 0 ++ eventSteps 0

/-- An event of this type and eight bytes of payload, as it is read from what the peer sends. -/
def peerEvent (iType : UInt8) : XLThreadEvent :=
  XLThreadEvent.ofBuffer (some ([iType, 0, 0, 0, 8, 0, 0, 0] ++ List.replicate 42 65))
    maxMessLength

/-- The peer sends an event, `Put` call `i`, and the loop handles it. -/
def peerSteps (iType : UInt8) (i : Nat) : List ClientRunStep :=
  .onListen (peerEvent iType) :: (putSteps i ++ eventSteps i)

/-- The peer sends a `USR_MSG` and a `LIFE_BEAT`, and the loop waits for more. -/
theorem peer_cannot_steer_iff_message :
    Throughout next Unsteered (new true) (startSteps ++ peerSteps 18 1 ++ peerSteps 16 2) ∧
      ∃ s, exec next (new true) (startSteps ++ peerSteps 18 1 ++ peerSteps 16 2) = some s ∧
        s.client.forwarded = [peerEvent 18] := by
  obtain ⟨s, hs, hend⟩ := (Option.any_eq_true _ _).mp
    (show (exec next (new true) (startSteps ++ peerSteps 18 1 ++ peerSteps 16 2)).any
      (fun s => s.client.forwarded = [peerEvent 18]) = true by decide)
  exact ⟨(peer_cannot_steer_iff true hs).mpr (by decide), s, hs, by simpa using hend⟩

/-- The peer sends a `START_THREAD`, then an `Exit`: the branch is taken twice, the listener gets
nothing, and the loop ends. -/
theorem peer_steers_the_loop :
    ∃ s, exec next (new true) (startSteps ++ peerSteps 14 1 ++ peerSteps 12 2) = some s ∧
      s.client.startBranches = 2 ∧ s.client.forwarded = [] ∧ s.thread.exit = true ∧
      ¬ Unsteered s := by
  obtain ⟨s, hs, hend⟩ := (Option.any_eq_true _ _).mp
    (show (exec next (new true) (startSteps ++ peerSteps 14 1 ++ peerSteps 12 2)).any
      (fun s => s.client.startBranches == 2 && s.client.forwarded == [] && s.thread.exit) = true
      by decide)
  simp only [Bool.and_eq_true, beq_iff_eq] at hend
  obtain ⟨⟨hbranch, hnil⟩, hexit⟩ := hend
  exact ⟨s, hs, hbranch, hnil, hexit, fun hlaw => absurd (hlaw.exit.symm.trans hexit) (by decide)⟩

/-! ### A condition on what is sent -/

/-- The types of the events `OnListen` has put into the queue are not those of the loop's own. -/
def PeerTypes (s : ClientRun) : Prop :=
  ∀ i ∈ s.listened, ∀ c, s.thread.queue.puts[i]? = some c →
    c.event.iType ≠ eventThreadEventTypeExit ∧ c.event.iType ≠ startThread

/-- An event given to `OnListen` has another type than the loop's own. -/
def SentApart (_ : ClientRun) : ClientRunStep → Prop
  | .onListen e => e.iType ≠ eventThreadEventTypeExit ∧ e.iType ≠ startThread
  | _ => True

theorem Sourced.peerTypes (hs : Sourced s) (hQ : SentApart s l) (hp : PeerTypes s)
    (h : s.next l = some s') : PeerTypes s' := by
  cases moves_of_next h with
  | start hfresh hthread =>
      obtain ⟨listener, rfl⟩ := hs.fresh hfresh
      intro i hi
      cases hi
  | thread hlabel hthread htl hself hd =>
      intro i hi c' hc'
      obtain ⟨c, hc, hevent⟩ := (thread_flows hs.clean.inv hthread htl).puts i c' hc'
      rw [hevent]
      exact hp i hi c hc
  | notCreated | dispatch => exact hp
  | postStart hstart =>
      obtain ⟨pc, hputs⟩ := put_puts s startEvent
      intro i hi c hc
      rw [hputs, List.getElem?_append_left (hs.listened i hi)] at hc
      exact hp i hi c hc
  | @onListen e =>
      obtain ⟨pc, hputs⟩ := put_puts s e
      intro i hi c hc
      rw [hputs] at hc
      rcases List.mem_append.mp hi with hold | hnew
      · rw [List.getElem?_append_left (hs.listened i hold)] at hc
        exact hp i hold c hc
      · rw [List.mem_singleton.mp hnew, List.getElem?_concat_length] at hc
        cases hc
        exact hQ

theorem Sourced.typeApart (hs : Sourced s) (hp : PeerTypes s) : TypeApart s l := by
  cases l with
  | start | create | postStart | onListen | queue => trivial
  | loop =>
      intro hl hpeer
      obtain ⟨i, hi, hsource⟩ := hs.inHand hl
      obtain ⟨c, hc, hevent⟩ := hs.clean.inv.put_of_pushed (List.mem_of_getElem? hi)
      have hlistened : i ∈ s.listened := by simpa [fromPeer, hi] using hpeer
      rw [← hevent]
      exact hp i hlistened c hc

/-- A peer that sends no event of these types does not steer the loop. -/
theorem unsteered_of_sent (listener : Bool) {ls : List ClientRunStep}
    (hQ : Along next SentApart (new listener) ls) :
    Throughout next Unsteered (new listener) ls :=
  throughout_of_along (I := fun u => Steady u ∧ PeerTypes u)
    (fun _ _ _ hu hl hstep => ⟨hu.1.step (hu.1.sourced.typeApart hu.2) hstep,
      hu.1.sourced.peerTypes hl hu.2 hstep⟩)
    (fun _ hu => hu.1.unsteered) ⟨steady_new listener, fun i hi => by cases hi⟩ hQ

/-- `m_DataListenTh` as it is never has such an event: the one it hands on, time and again, is of
type 0. -/
theorem unsteered_by_listening (listener : Bool) {ls : List ClientRunStep}
    (uninitEvent uninitStorage : Vector UInt8 maxMessLength) (results : List RecvResult)
    (hsent : ∀ e, .onListen e ∈ ls →
      e ∈ (XLListeningThread.new uninitEvent uninitStorage).setListener.runProgram results) :
    Throughout next Unsteered (new listener) ls := by
  refine unsteered_of_sent listener (along_of_forall fun l hl u => ?_)
  cases l with
  | start | create | postStart | loop | queue => trivial
  | onListen e =>
      have he := hsent e hl
      rw [XLListeningThread.runProgram_deaf results
        (XLListeningThread.deaf_new uninitEvent uninitStorage)] at he
      rw [List.eq_of_mem_replicate he]
      exact ⟨by show (0 : Int) ≠ 12; decide, by show (0 : Int) ≠ 14; decide⟩

end ClientRun

end ServClient
