/-
The steps of a serving thread and its threads, and what every step keeps.

Most steps are steps of the event thread that leave the serving thread alone.  The others
are those of `Start` and of the acceptor on the serving thread's own members, and the
handling of an event.  Whoever posts, the events that reach the handler are events that
were put.
-/
import ServClient.ServingRun
import ServClient.Proofs.EventLoop
import ServClient.Proofs.ServingRoster

namespace ServClient

open Runs

namespace ServingRun

open XLServingThread (Roster)

variable {posts : Int → Bool} {s s' : ServingRun} {l : ServingRunStep}

/-- The state after the handler has had the event. -/
def handled (s : ServingRun) : ServingRun :=
  { s with
    thread := { s.thread with
      self := s.serving.tOnEvent s.thread.event
      loop := .testing
      dispatched := s.thread.dispatched ++ [s.thread.event] }
    registered := s.registered ++
      (newClients s.serving (s.serving.tOnEvent s.thread.event)).map
        fun p => (p, s.thread.dispatched.length) }

/-! ### What one step can do -/

/-- What one step can do, with what it finds. -/
inductive Moves (posts : Int → Bool) (s : ServingRun) : ServingRunStep → ServingRun → Prop
  /-- The event thread moves, without a call of `Put` or of the handler. -/
  | thread {l tl thread start}
      (hthread : s.thread.next XLServingThread.tOnEvent tl = some thread)
      (htl : (tl = .create ∨ tl = .owner ∨ tl = .loop) ∨ ∃ ql, tl = .queue ql ∧ l = .queue ql ∧
        ql.inside = true)
      (hself : thread.self = s.thread.self)
      (hdispatched : thread.dispatched = s.thread.dispatched) :
      Moves posts s l { s with thread := thread, start := start }
  | post {l e start} (he : e.iType = XLServingThread.startThread ∨ posts e.iType = true) :
      Moves posts s l { s.put e with start := start }
  | postAccept {p ssl} (ha : s.acceptor = .pushed p ssl) :
      Moves posts s .postAccept { s.put XLServingThread.acceptEvent with
        acceptor := .posting p ssl s.thread.queue.puts.length }
  | dispatch (hl : s.thread.loop = .handling)
      (he : s.thread.event.iType ≠ eventThreadEventTypeExit) :
      Moves posts s .loop s.handled
  | assign {a} (hnull : s.serving.heap.getData s.serving.pSocket = none) :
      Moves posts s (.assign a)
        { s.setServing (s.serving.setSocket (some a)) with start := .assigned }
  | assigned {a} : Moves posts s (.assign a) { s with start := .started }
  | accept {a ssl} (hidle : s.acceptor = .idle) (ha : s.serving.accepts a = true) :
      Moves posts s (.accept a ssl) (s.accept a ssl)
  | reject {a} (hidle : s.acceptor = .idle) (ha : s.serving.accepts a = true) :
      Moves posts s (.reject a) (s.setServing { s.serving with
        heap := (s.serving.heap.adopt (some a)).drop (some s.serving.heap.counters.length) })
  | acceptDone {p ssl i e ret} (ha : s.acceptor = .posting p ssl i)
      (hi : s.thread.queue.puts[i]? = some ⟨e, .returned ret⟩) :
      Moves posts s .acceptDone s.acceptDone

theorem newClients_self (t : XLServingThread) : newClients t t = [] := by
  simp [newClients]

theorem moves_of_next (h : s.next posts l = some s') : Moves posts s l s' := by
  cases l with
  | start =>
      simp only [next] at h
      split at h
      · obtain ⟨thread, hthread, rfl⟩ := Option.map_eq_some_iff.mp h
        rcases XLEventThread.dispatch_or_quiet hthread with ⟨hself, hd⟩ | ⟨hl, -⟩
        · exact .thread hthread (Or.inl (Or.inl rfl)) hself hd
        · cases hl
      · cases h
  | create =>
      simp only [next] at h
      split at h
      · obtain ⟨thread, hthread, rfl⟩ := Option.map_eq_some_iff.mp h
        rcases XLEventThread.dispatch_or_quiet hthread with ⟨hself, hd⟩ | ⟨hl, -⟩
        · exact .thread hthread (Or.inl (Or.inr (Or.inl rfl))) hself hd
        · cases hl
      · cases h
  | assign a =>
      simp only [next] at h
      split at h
      · split at h
        · rename_i hnull; cases h; exact .assign (Option.isNone_iff_eq_none.mp hnull)
        · cases h; exact .assigned
      · cases h
  | postStart =>
      simp only [next] at h
      split at h
      · cases h; exact .post (Or.inl rfl)
      · cases h
  | post e =>
      simp only [next] at h
      split at h
      · rename_i he; cases h; exact .post (Or.inr he)
      · cases h
  | accept a ssl =>
      simp only [next] at h
      split at h
      · rename_i ha; cases h; exact .accept ha.1 ha.2
      · cases h
  | reject a =>
      simp only [next] at h
      split at h
      · rename_i ha; cases h; exact .reject ha.1 ha.2
      · cases h
  | postAccept =>
      simp only [next] at h
      split at h
      · rename_i ha; cases h; exact .postAccept ha
      · cases h
  | acceptDone =>
      simp only [next] at h
      split at h
      · rename_i ha
        split at h
        · rename_i hi; cases h; exact .acceptDone ha hi
        · cases h
      · cases h
  | loop =>
      simp only [next] at h
      obtain ⟨thread, hthread, rfl⟩ := Option.map_eq_some_iff.mp h
      rcases XLEventThread.dispatch_or_quiet hthread with ⟨hself, hd⟩ | ⟨-, hl, he, rfl⟩
      · have hmove : Moves posts s .loop { s with thread := thread, start := s.start } :=
          .thread hthread (Or.inl (Or.inr (Or.inr rfl))) hself hd
        have hsame : newClients s.serving thread.self = [] := by
          rw [hself]
          exact newClients_self _
        rw [hsame]
        simpa using hmove
      · exact .dispatch hl he
  | queue ql =>
      simp only [next] at h
      split at h
      · rename_i hinside
        obtain ⟨thread, hthread, rfl⟩ := Option.map_eq_some_iff.mp h
        rcases XLEventThread.dispatch_or_quiet hthread with ⟨hself, hd⟩ | ⟨hl, -⟩
        · exact .thread hthread (Or.inr ⟨ql, rfl, rfl, hinside⟩) hself hd
        · cases hl
      · cases h

/-! ### What every step keeps -/

/-- What every step keeps, while nobody posts a `USR_MSG`. -/
structure Kept (s : ServingRun) : Prop where
  thread : s.thread.Inv
  roster : Roster s.acceptor.handles s.serving
  noMsg : ∀ (i : Nat) (c : PutCall XLThreadEvent), s.thread.queue.puts[i]? = some c →
    c.event.iType ≠ XLServingThread.usrMsg

theorem kept_new (listener : Bool) : Kept (new listener) where
  thread := XLEventThread.inv_new _
  roster := Roster.init listener
  noMsg := by simp [new, XLEventThread.new, QueueRun.ofQueue]

/-- A call of `Put` by any thread is a step of the event thread. -/
theorem put_next (s : ServingRun) (e : XLThreadEvent) :
    s.thread.next XLServingThread.tOnEvent (.queue (.put e)) = some (s.put e).thread := rfl

theorem Kept.put (hs : Kept s) {e : XLThreadEvent} (he : e.iType ≠ XLServingThread.usrMsg) :
    (s.put e).thread.Inv ∧ ∀ (i : Nat) (c : PutCall XLThreadEvent),
      (s.put e).thread.queue.puts[i]? = some c → c.event.iType ≠ XLServingThread.usrMsg :=
  ⟨XLEventThread.inv_step hs.thread (put_next s e), Calls.forall_concat he hs.noMsg⟩

/-- The event in hand is not a `USR_MSG`. -/
theorem Kept.event_ne (hs : Kept s) (hl : s.thread.loop = .handling) :
    s.thread.event.iType ≠ XLServingThread.usrMsg := by
  obtain ⟨i, hpushed⟩ := hs.thread.event_pushed hl
  obtain ⟨c, hi, hc⟩ := hs.thread.put_of_pushed (List.mem_of_getElem? hpushed)
  rw [← hc]
  exact hs.noMsg i c hi

theorem accept_adopted (s : ServingRun) (a : UInt64) (ssl : Bool) :
    (s.accept a ssl).serving.heap.adopted = s.serving.heap.adopted ++ [some a] := by
  have haccept : (s.accept a ssl).serving.heap.adopted =
      (if ssl then (s.serving.heap.adopt (some a)).share (some s.serving.heap.counters.length)
        else s.serving.heap.adopt (some a)).adopted :=
    XLServingThread.pushIncoming_adopted _ _
  rw [haccept]
  cases ssl with
  | false => rfl
  | true =>
      rw [if_pos rfl, PtrHeap.share_adopted]
      rfl

theorem acceptDone_adopted (s : ServingRun) :
    s.acceptDone.serving.heap.adopted = s.serving.heap.adopted := by
  unfold acceptDone
  rw [show ∀ heap : PtrHeap UInt64, ({ s.setServing { s.serving with heap := heap } with
    acceptor := .idle } : ServingRun).serving.heap = heap from fun _ => rfl,
    PtrHeap.dropAll_adopted]
  cases s.acceptor with
  | idle | pushed => rfl
  | posting p ssl i =>
      dsimp only
      split
      · rw [PtrHeap.drop_adopted, PtrHeap.share_adopted]
      · rfl

theorem acceptDone_roster (hs : Kept s) :
    Roster [] s.acceptDone.serving := by
  have hr := hs.roster
  unfold acceptDone
  cases ha : s.acceptor with
  | idle =>
      rw [ha] at hr
      exact hr
  | pushed p ssl =>
      rw [ha] at hr
      exact hr.dropAll
  | posting p ssl i =>
      rw [ha] at hr
      have hp : p ∈ (AcceptPc.posting p ssl i).handles := by
        cases ssl <;> exact List.mem_cons_self
      dsimp only
      split
      · exact (hr.copy hp).dropAll
      · exact hr.dropAll

theorem Moves.kept (h : Moves posts s l s') (hmsg : posts XLServingThread.usrMsg = false)
    (hs : Kept s) : Kept s' := by
  cases h with
  | @thread _ tl thread start hthread htl hself hd =>
      refine ⟨XLEventThread.inv_step hs.thread hthread, ?_, fun i c' hi => ?_⟩
      · show Roster _ _
        rw [serving, hself]
        exact hs.roster
      · have hflows : XLEventThread.Flows s.thread thread := by
          refine XLEventThread.flows_inside hs.thread hthread ?_
          rcases htl with (h | h | h) | ⟨ql, h, -, hin⟩
          · exact Or.inl h
          · exact Or.inr (Or.inl h)
          · exact Or.inr (Or.inr (Or.inl h))
          · exact Or.inr (Or.inr (Or.inr ⟨ql, h, hin⟩))
        obtain ⟨c, hc, hevent⟩ := hflows.puts i c' hi
        rw [hevent]
        exact hs.noMsg i c hc
  | @post l e start he =>
      obtain ⟨hthread, hputs⟩ := hs.put (e := e) (by
        rintro hmsg'
        rcases he with hstart | hpost
        · rw [hmsg'] at hstart
          cases hstart
        · rw [hmsg', hmsg] at hpost
          cases hpost)
      exact ⟨hthread, hs.roster, hputs⟩
  | postAccept ha =>
      obtain ⟨hthread, hputs⟩ := hs.put (e := XLServingThread.acceptEvent) (by decide)
      have hr := hs.roster
      rw [ha] at hr
      exact ⟨hthread, hr, hputs⟩
  | dispatch hl he =>
      exact ⟨XLEventThread.inv_step hs.thread (XLEventThread.next_dispatch hl he),
        hs.roster.event (hs.event_ne hl), hs.noMsg⟩
  | assign hnull =>
      exact ⟨hs.thread.setSelf _, hs.roster.setSocket hnull _, hs.noMsg⟩
  | assigned => exact ⟨hs.thread, hs.roster, hs.noMsg⟩
  | @accept a ssl hidle ha =>
      have hr := hs.roster
      rw [hidle] at hr
      exact ⟨hs.thread.setSelf _, hr.accept ha ssl, hs.noMsg⟩
  | reject hidle ha =>
      have hr := hs.roster
      rw [hidle] at hr
      refine ⟨hs.thread.setSelf _, ?_, hs.noMsg⟩
      show Roster s.acceptor.handles _
      rw [hidle]
      exact hr.reject ((Bool.and_eq_true _ _).mp ha).2
  | acceptDone ha hi => exact ⟨hs.thread.setSelf _, acceptDone_roster hs, hs.noMsg⟩

end ServingRun

end ServClient
