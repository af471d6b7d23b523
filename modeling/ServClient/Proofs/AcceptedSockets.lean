/-
Whether a socket that was accepted becomes a client.

`OnAccept` puts the socket in one queue and an `ACCEPT_INCOMING` in another, and the loop takes
one of each.  The two stay in step as long as every such event is pushed (`Booked`).  A `Put`
that finds the event queue full turns its event away, and nothing takes the socket out of
`m_IncomingQueue` again.
-/
import ServClient.Proofs.Broadcasts
import ServClient.Proofs.PostedEvents

namespace ServClient

open Runs

/-- The event `OnAccept` has not yet called `Put` with. -/
def AcceptPc.owes : AcceptPc → Nat
  | pushed _ _ => 1
  | idle | posting _ _ _ => 0

namespace ServingRun

open XLServingThread (Roster Handled toAll)

variable {posts : Int → Bool} {s s' : ServingRun} {l : ServingRunStep}

/-! ### The two queues

`OnAccept` pushes a socket and then puts an `ACCEPT_INCOMING`, and the loop takes one of each.  So
the two queues go together as long as no event is turned away: the account below says what each has
been given and has given out.
-/

/-- The event of `OnAccept`. -/
def isAccept (e : XLThreadEvent) : Bool := e.iType = XLServingThread.acceptIncoming

/-- The `ACCEPT_INCOMING` events that are queued, being handled or about to be posted. -/
def outstanding (s : ServingRun) : Nat :=
  (s.thread.inHand ++ s.thread.queue.queue.q.pending).countP isAccept +
    s.thread.queue.unpushed isAccept + s.acceptor.owes

/-- The sockets that wait are as many as the events for them, and without any every socket is a
client. -/
structure Paired (s : ServingRun) : Prop where
  waiting : s.serving.incomingQueue.pending.length = s.outstanding
  registered : s.outstanding = 0 → ∀ a ∈ s.offered,
    ∃ p ∈ s.serving.clientIDs, s.serving.heap.getData p = some a

/-- If this step pushes an `ACCEPT_INCOMING` event, the queue has room. -/
def FindsRoom (s : ServingRun) : ServingRunStep → Prop
  | .queue l => s.thread.queue.HasRoomFor isAccept l
  | _ => True

instance (s : ServingRun) : ∀ l, Decidable (FindsRoom s l)
  | .queue l => inferInstanceAs (Decidable (s.thread.queue.HasRoomFor isAccept l))
  | .start | .create | .assign _ | .postStart | .post _ | .accept _ _ | .reject _ | .postAccept
  | .acceptDone | .loop => isTrue trivial

/-- What the two queues have been given and have given out. -/
structure Booked (s : ServingRun) : Prop where
  kept : Kept s
  up : s.thread.Up
  sized : s.thread.queue.Sized
  created : s.serving.acceptorThread.isSome = true → s.thread.queue.queue.created = true
  running : s.acceptor ≠ .idle → s.serving.acceptorThread.isSome = true
  own : ∀ (i : Nat) (c : PutCall XLThreadEvent), s.thread.queue.puts[i]? = some c →
    isAccept c.event = true → (∀ b, c.pc ≠ .returned b) → ∃ p ssl, s.acceptor = .posting p ssl i
  bound : s.serving.incomingQueue.maxSize = maxDef
  posted : s.thread.queue.posted isAccept + s.acceptor.owes = s.offered.length
  popped : s.thread.dispatched.countP isAccept + s.serving.incomingQueue.pending.length =
    s.offered.length
  sockets : ∀ a ∈ s.offered, ∃ p ∈ s.serving.rows, s.serving.heap.madeFor p = some a

theorem booked_new (listener : Bool) : Booked (new listener) where
  kept := kept_new listener
  up := by simp [new, XLEventThread.new, XLEventThread.Up]
  sized := ⟨rfl, (fun hc => by cases hc), Nat.zero_le 256⟩
  created := fun hacc => by cases hacc
  running := fun hacc => absurd rfl hacc
  own := by simp [new, XLEventThread.new, QueueRun.ofQueue]
  bound := rfl
  posted := rfl
  popped := rfl
  sockets := by simp [new]

/-- An event posted has been handled, or is outstanding. -/
theorem Kept.outstanding_eq (hs : Kept s) :
    s.thread.dispatched.countP isAccept + s.outstanding =
      s.thread.queue.posted isAccept + s.acceptor.owes := by
  have hcount := congrArg (List.countP isAccept) hs.thread.accepted_eq
  rw [List.append_assoc, List.countP_append] at hcount
  rw [outstanding, QueueRun.posted, show s.thread.queue.pushed.map Prod.snd = s.thread.accepted
    from rfl, hcount]
  omega

theorem Booked.outstanding_eq (hs : Booked s) :
    s.serving.incomingQueue.pending.length = s.outstanding := by
  have hkept := hs.kept.outstanding_eq
  have hposted := hs.posted
  have hpopped := hs.popped
  omega

theorem Booked.paired (hs : Booked s) : Paired s where
  waiting := hs.outstanding_eq
  registered := fun hnone a ha => by
    have hnil : s.serving.incomingQueue.pending = [] :=
      List.length_eq_zero_iff.mp (hs.outstanding_eq.trans hnone)
    obtain ⟨p, hp, hpa⟩ := hs.sockets a ha
    have hclient : p ∈ s.serving.clientIDs := by
      rw [XLServingThread.rows, hnil, List.append_nil] at hp
      exact hp
    exact ⟨p, hclient, by rw [hs.kept.roster.getData hp, hpa]⟩

/-- With no call of `OnAccept` under way there is room for another socket. -/
theorem Booked.room (hs : Booked s) (hidle : s.acceptor = .idle) :
    s.serving.incomingQueue.pending.length < s.serving.incomingQueue.maxSize := by
  have hunpushed : s.thread.queue.unpushed isAccept = 0 := by
    refine Calls.countP_eq_zero fun i c hi => ?_
    rw [Bool.eq_false_iff, Ne, Bool.and_eq_true]
    intro hboth
    obtain ⟨p, ssl, hposting⟩ := hs.own i c hi hboth.1 (by
      rintro b hb
      rw [hb] at hboth
      cases hboth.2)
    rw [hidle] at hposting
    cases hposting
  have hcount := List.countP_le_length (p := isAccept)
    (l := s.thread.inHand ++ s.thread.queue.queue.q.pending)
  have hhand := s.thread.inHand_length_le
  have hpending := hs.sized.pending
  rw [List.length_append] at hcount
  rw [hs.outstanding_eq, hs.bound, outstanding, hunpushed, hidle]
  simp only [AcceptPc.owes, maxDef]
  omega

/-! ### What every step keeps

The account is kept by every step that finds room.  Most steps leave one side of it alone, so there
is a lemma for each thing that can move: the serving thread, a call of `Put`, the loop, the
acceptor.
-/

/-- The serving thread's own members are as they were. -/
theorem Booked.of_serving (hs : Booked s) (hkept : Kept s') (hup : s'.thread.Up)
    (hsized : s'.thread.queue.Sized) (hserving : s'.serving = s.serving)
    (hoffered : s'.offered = s.offered) (hdispatched : s'.thread.dispatched = s.thread.dispatched)
    (hcreated : s.thread.queue.queue.created = true → s'.thread.queue.queue.created = true)
    (hrunning : s'.acceptor ≠ .idle → s.acceptor ≠ .idle)
    (hown : ∀ (i : Nat) (c : PutCall XLThreadEvent), s'.thread.queue.puts[i]? = some c →
      isAccept c.event = true → (∀ b, c.pc ≠ .returned b) → ∃ p ssl, s'.acceptor = .posting p ssl i)
    (hposted : s'.thread.queue.posted isAccept + s'.acceptor.owes =
      s.thread.queue.posted isAccept + s.acceptor.owes) : Booked s' where
  kept := hkept
  up := hup
  sized := hsized
  created := fun hacc => hcreated (hs.created (by rw [← hserving]; exact hacc))
  running := fun hacc => by rw [hserving]; exact hs.running (hrunning hacc)
  own := hown
  bound := by rw [hserving]; exact hs.bound
  posted := by rw [hposted, hs.posted, hoffered]
  popped := by rw [hdispatched, hserving, hoffered]; exact hs.popped
  sockets := by rw [hoffered, hserving]; exact hs.sockets

/-- A call of `Put` with an event of another kind. -/
theorem Booked.post (hs : Booked s) {e : XLThreadEvent} {start : StartPc}
    (he : isAccept e = false) (hkept : Kept { s.put e with start := start }) :
    Booked { s.put e with start := start } := by
  refine hs.of_serving hkept hs.up ⟨hs.sized.config, hs.sized.bound, hs.sized.pending⟩ rfl rfl rfl
    id id (Calls.forall_concat (fun hacc => ?_) hs.own) ?_
  · rw [he] at hacc
    cases hacc
  · show QueueRun.posted isAccept { s.thread.queue with puts := _ } + _ = _
    rw [QueueRun.posted_put, he]
    rfl

/-- `OnAccept` calls `Put`. -/
theorem Booked.postAccept (hs : Booked s) {p : Option Nat} {ssl : Bool}
    (ha : s.acceptor = .pushed p ssl)
    (hkept : Kept { s.put XLServingThread.acceptEvent with
      acceptor := .posting p ssl s.thread.queue.puts.length }) :
    Booked { s.put XLServingThread.acceptEvent with
      acceptor := .posting p ssl s.thread.queue.puts.length } := by
  have hlive := hs.created (hs.running (by rw [ha]; simp))
  refine hs.of_serving hkept hs.up ⟨hs.sized.config, hs.sized.bound, hs.sized.pending⟩ rfl rfl rfl
    id (fun _ => by rw [ha]; simp)
    (Calls.forall_concat (fun _ _ => ⟨p, ssl, rfl⟩) fun i c hi hacc hpc => ?_) ?_
  · obtain ⟨p', ssl', hposting⟩ := hs.own i c hi hacc hpc
    rw [ha] at hposting
    cases hposting
  · show QueueRun.posted isAccept { s.thread.queue with puts := _ } + _ = _
    rw [QueueRun.posted_put, hlive, ha]
    rfl

/-- The `ACCEPT_INCOMING` event in hand is one of those that are outstanding. -/
theorem Booked.waiting_ne_nil (hs : Booked s) (hl : s.thread.loop = .handling)
    (hacc : isAccept s.thread.event = true) : s.serving.incomingQueue.pending ≠ [] := by
  intro hnil
  have hout := hs.outstanding_eq
  rw [hnil, outstanding, XLEventThread.inHand, hl, List.singleton_append,
    List.countP_cons_of_pos hacc] at hout
  simp only [List.length_nil] at hout
  omega

theorem handled_countP (s : ServingRun) : s.handled.thread.dispatched.countP isAccept =
    s.thread.dispatched.countP isAccept + if isAccept s.thread.event then 1 else 0 :=
  Calls.countP_concat _ _ _

/-- The event leaves the calls of `Put` and the acceptor as they were. -/
theorem Booked.of_handled (hs : Booked s) (hl : s.thread.loop = .handling)
    (hkept : Kept s.handled) (hbound : s.handled.serving.incomingQueue.maxSize = maxDef)
    (hpopped : s.handled.thread.dispatched.countP isAccept +
      s.handled.serving.incomingQueue.pending.length = s.offered.length)
    (hsockets : ∀ a ∈ s.offered, ∃ p ∈ s.handled.serving.rows,
      s.handled.serving.heap.madeFor p = some a) : Booked s.handled where
  kept := hkept
  up := hs.up
  sized := hs.sized
  created := fun _ => hs.kept.thread.owned.live (by rw [hl]; rfl)
  running := by
    intro hne
    obtain ⟨-, hacceptor⟩ := XLServingThread.tOnEvent_rest s.serving s.thread.event
    rcases hacceptor with hsame | ⟨-, hsome⟩
    · show (s.serving.tOnEvent s.thread.event).acceptorThread.isSome = true
      rw [hsame]
      exact hs.running hne
    · exact Option.ne_none_iff_isSome.mp hsome
  own := hs.own
  bound := hbound
  posted := hs.posted
  popped := hpopped
  sockets := hsockets

/-- The loop hands the event over. -/
theorem Booked.dispatch (hs : Booked s) (hl : s.thread.loop = .handling)
    (hkept : Kept s.handled) : Booked s.handled := by
  cases hs.kept.roster.tOnEvent (hs.kept.event_ne hl) with
  | quiet htype hsends hsound hclients hqueue hadopted hnone =>
      have hnot : isAccept s.thread.event = false := by
        by_contra hacc
        rw [Bool.not_eq_false] at hacc
        exact hs.waiting_ne_nil hl hacc (hnone (by simpa [isAccept] using hacc))
      have hqueue' : s.handled.serving.incomingQueue = s.serving.incomingQueue := hqueue
      refine hs.of_handled hl hkept (by rw [hqueue', hs.bound]) ?_ fun a ha => ?_
      · rw [handled_countP, hqueue', hnot]
        exact hs.popped
      · obtain ⟨p, hp, hpa⟩ := hs.sockets a ha
        refine ⟨p, ?_, PtrHeap.madeFor_of_prefix hadopted hpa⟩
        show p ∈ (s.serving.tOnEvent s.thread.event).rows
        rw [XLServingThread.rows, hclients, hqueue]
        exact hp
  | register q p b htype hpop hb hsends hsound hclients hqueue hadopted =>
      have hqueue' : s.handled.serving.incomingQueue = q := hqueue
      have hpending := XLLFQ.pop_eq_some hpop
      refine hs.of_handled hl hkept (by rw [hqueue', XLLFQ.pop_maxSize hpop, hs.bound]) ?_
        fun a ha => ?_
      · have hpopped := hs.popped
        rw [hpending, List.length_cons] at hpopped
        rw [handled_countP, hqueue', show isAccept s.thread.event = true by simp [isAccept, htype],
          if_pos rfl]
        omega
      · obtain ⟨r, hr, hra⟩ := hs.sockets a ha
        refine ⟨r, ?_, PtrHeap.madeFor_of_prefix (PtrHeap.prefix_of_eq hadopted) hra⟩
        show r ∈ (s.serving.tOnEvent s.thread.event).rows
        rw [XLServingThread.rows, hpending] at hr
        rw [XLServingThread.rows, hqueue, List.mem_append, hclients.mem_iff]
        rcases List.mem_append.mp hr with hclient | hwaiting
        · exact Or.inl (List.mem_cons_of_mem p hclient)
        · rcases List.mem_cons.mp hwaiting with rfl | hrest
          · exact Or.inl List.mem_cons_self
          · exact Or.inr hrest
  | passOn htype heq =>
      have hserving : s.handled.serving = s.serving.send s.serving.clientIDs s.thread.event := heq
      have hnot : isAccept s.thread.event = false := by
        by_contra hacc
        rw [Bool.not_eq_false, isAccept, decide_eq_true_eq] at hacc
        rw [toAll, hacc] at htype
        cases htype
      refine hs.of_handled hl hkept (by rw [hserving]; exact hs.bound) ?_
        (by rw [hserving]; exact hs.sockets)
      rw [handled_countP, hserving, hnot]
      exact hs.popped

/-- `OnAccept` pushes the socket. -/
theorem Booked.accept (hs : Booked s) {a : UInt64} {ssl : Bool} (hidle : s.acceptor = .idle)
    (ha : s.serving.accepts a = true) (hkept : Kept (s.accept a ssl)) :
    Booked (s.accept a ssl) := by
  have hpush := XLLFQ.push_room (hs.room hidle) (some s.serving.heap.counters.length)
  have hpending : (s.accept a ssl).serving.incomingQueue.pending =
      s.serving.incomingQueue.pending ++ [some s.serving.heap.counters.length] := hpush.2
  have hadopted := accept_adopted s a ssl
  have hmade : (s.accept a ssl).serving.heap.madeFor =
      (s.serving.heap.adopt (some a)).madeFor := PtrHeap.madeFor_congr hadopted
  have hposted := hs.posted
  rw [hidle] at hposted
  refine ⟨hkept, hs.up, hs.sized, hs.created, fun _ => ((Bool.and_eq_true _ _).mp ha).1,
    fun i c hi hacc hpc => ?_, (XLLFQ.push_maxSize _ _).trans hs.bound, ?_, ?_, fun b hb => ?_⟩
  · obtain ⟨p, ssl', hposting⟩ := hs.own i c hi hacc hpc
    rw [hidle] at hposting
    cases hposting
  · show s.thread.queue.posted isAccept + 1 = (s.offered ++ [a]).length
    rw [List.length_append, ← hposted]
    rfl
  · have hpopped := hs.popped
    show s.thread.dispatched.countP isAccept + _ = (s.offered ++ [a]).length
    rw [hpending, List.length_append, List.length_append, ← Nat.add_assoc, hpopped]
    rfl
  · rw [XLServingThread.rows, hpending, hmade]
    rcases List.mem_append.mp hb with hold | hnew
    · obtain ⟨p, hp, hpb⟩ := hs.sockets b hold
      refine ⟨p, ?_, PtrHeap.madeFor_of_prefix (List.prefix_append _ _) hpb⟩
      rw [← List.append_assoc]
      exact List.mem_append_left _ hp
    · rw [List.mem_singleton.mp hnew]
      exact ⟨_, by simp, hs.kept.roster.madeFor_adopt a⟩

/-- The threads' own handles come and go. -/
theorem Booked.of_heap (hs : Booked s) (hkept : Kept s')
    (hthread : s'.thread.queue = s.thread.queue) (hup : s'.thread.Up)
    (hdispatched : s'.thread.dispatched = s.thread.dispatched)
    (hoffered : s'.offered = s.offered) (hacceptor : s'.acceptor ≠ .idle → s.acceptor ≠ .idle)
    (hown : ∀ (i : Nat) (c : PutCall XLThreadEvent), s.thread.queue.puts[i]? = some c →
      isAccept c.event = true → (∀ b, c.pc ≠ .returned b) → ∃ p ssl, s'.acceptor = .posting p ssl i)
    (howes : s'.acceptor.owes = s.acceptor.owes)
    (hrunning : s'.serving.acceptorThread = s.serving.acceptorThread)
    (hqueue : s'.serving.incomingQueue = s.serving.incomingQueue)
    (hclients : s'.serving.clientIDs = s.serving.clientIDs)
    (hadopted : s.serving.heap.adopted <+: s'.serving.heap.adopted) : Booked s' where
  kept := hkept
  up := hup
  sized := by rw [hthread]; exact hs.sized
  created := by rw [hrunning, hthread]; exact hs.created
  running := fun hne => by rw [hrunning]; exact hs.running (hacceptor hne)
  own := by rw [hthread]; exact hown
  bound := by rw [hqueue]; exact hs.bound
  posted := by rw [hthread, howes, hoffered]; exact hs.posted
  popped := by rw [hdispatched, hqueue, hoffered]; exact hs.popped
  sockets := by
    rw [hoffered, XLServingThread.rows, hclients, hqueue]
    intro a ha
    obtain ⟨p, hp, hpa⟩ := hs.sockets a ha
    exact ⟨p, hp, PtrHeap.madeFor_of_prefix hadopted hpa⟩

/-- A call of `Put` or `Get` goes on. -/
theorem Booked.queueMoves (hs : Booked s) {ql : QueueStep XLThreadEvent}
    {q : QueueRun XLThreadEvent} (hinside : ql.inside = true)
    (hq : s.thread.queue.next ql = some q) :
    QueueRun.Live s.thread.queue ∧ QueueRun.Moves s.thread.queue ql q := by
  rcases hs.kept.thread.kept.phase with ⟨hlive, -⟩ | hdown
  · exact ⟨hlive, QueueRun.moves_of_next hlive hq⟩
  · rw [QueueRun.next_eq_none hinside hdown.puts hdown.gets] at hq
    cases hq

theorem Booked.queue (hs : Booked s) {ql : QueueStep XLThreadEvent}
    {q : QueueRun XLThreadEvent} {start : StartPc} (hinside : ql.inside = true)
    (hq : s.thread.queue.next ql = some q) (hQ : s.thread.queue.HasRoomFor isAccept ql)
    (hkept : Kept { s with thread := { s.thread with queue := q }, start := start }) :
    Booked { s with thread := { s.thread with queue := q }, start := start } := by
  obtain ⟨hlive, hmoves⟩ := hs.queueMoves hinside hq
  have hexclusive := hs.kept.thread.kept.exclusive
  have hcontinues := hmoves.continues hexclusive hinside
  have hcreated := QueueRun.created_next hs.kept.thread.kept
    (by rintro rfl; cases hinside) hq
  have hconfig : q.queue.maxSize = s.thread.queue.queue.maxSize := by cases hmoves <;> rfl
  refine hs.of_serving hkept hs.up ⟨hconfig.trans hs.sized.config, fun hc => ?_, ?_⟩ rfl rfl rfl
    (fun hc => hcreated.trans hc) id (fun i c' hi hacc hpc => ?_) ?_
  · rw [hcontinues.maxSize, hs.sized.bound (hcreated.symm.trans hc)]
  · exact hmoves.pending_le (Nat.le_of_eq (hs.sized.bound hlive.created)) hs.sized.pending
  · obtain ⟨c, hc, hevent, hreturned⟩ := hcontinues.puts i c' hi
    refine hs.own i c hc (by rw [← hevent]; exact hacc) fun b hb => hpc b ?_
    rw [hreturned b hb, hb]
  · show q.posted isAccept + _ = _
    rw [(hmoves.posted hexclusive hinside).1 hQ]

theorem Moves.booked (h : Moves posts s l s') (hmsg : posts XLServingThread.usrMsg = false)
    (haccept : posts XLServingThread.acceptIncoming = false) (hQ : FindsRoom s l)
    (hs : Booked s) : Booked s' := by
  have hkept := h.kept hmsg hs.kept
  cases h with
  | @thread l tl thread start hthread htl hself hd =>
      rcases htl with htl | ⟨ql, rfl, rfl, hinside⟩
      · have hstill := (XLEventThread.moves_of_next hthread).still hs.kept.thread hs.up hs.sized htl
        refine hs.of_serving hkept hstill.up hstill.sized hself rfl hd hstill.created id ?_ ?_
        · rw [hstill.puts]
          exact hs.own
        · show thread.queue.posted isAccept + _ = _
          rw [QueueRun.posted, QueueRun.unpushed, hstill.puts, hstill.pushed]
          rfl
      · cases XLEventThread.moves_of_next hthread with
        | queue hget hq => exact hs.queue hinside hq hQ hkept
  | @post l e start he =>
      refine hs.post ?_ hkept
      by_contra hacc
      rw [Bool.not_eq_false, isAccept, decide_eq_true_eq] at hacc
      rw [hacc, haccept] at he
      rcases he with he | he <;> cases he
  | postAccept ha => exact hs.postAccept ha hkept
  | dispatch hl he => exact hs.dispatch hl hkept
  | assign hnull =>
      refine hs.of_heap hkept rfl hs.up rfl rfl id hs.own rfl rfl rfl rfl ?_
      show s.serving.heap.adopted <+: (s.serving.heap.drop _).adopted ++ _
      rw [PtrHeap.drop_adopted]
      exact List.prefix_append _ _
  | assigned => exact hs.of_heap hkept rfl hs.up rfl rfl id hs.own rfl rfl rfl rfl List.prefix_rfl
  | accept hidle ha => exact hs.accept hidle ha hkept
  | reject hidle =>
      refine hs.of_heap hkept rfl hs.up rfl rfl id hs.own rfl rfl rfl rfl ?_
      show s.serving.heap.adopted <+: ((s.serving.heap.adopt _).drop _).adopted
      rw [PtrHeap.drop_adopted]
      exact List.prefix_append _ _
  | acceptDone ha hi =>
      refine hs.of_heap hkept rfl hs.up rfl rfl (fun hne => absurd rfl hne)
        (fun j c hj hacc hpc => ?_) (by rw [ha]; rfl) rfl rfl rfl
        (PtrHeap.prefix_of_eq (acceptDone_adopted s))
      -- The acceptor's call has returned.
      obtain ⟨p', ssl', hposting⟩ := hs.own j c hj hacc hpc
      rw [ha] at hposting
      cases hposting
      cases hi.symm.trans hj
      exact absurd rfl (hpc _)

/-- An event turned away leaves its socket behind. -/
theorem Booked.unpaired (hs : Booked s) (hmsg : posts XLServingThread.usrMsg = false)
    (hQ : ¬ FindsRoom s l) (h : s.next posts l = some s') : ¬ Paired s' := by
  have hmoves := moves_of_next h
  have hkept := hmoves.kept hmsg hs.kept
  intro hpaired
  have hout := hkept.outstanding_eq
  have hpopped := hs.popped
  have hposted := hs.posted
  rw [← hpaired.waiting] at hout
  cases l with
  | queue ql =>
      simp only [next] at h
      split at h
      · rename_i hinside
        obtain ⟨thread, hthread, rfl⟩ := Option.map_eq_some_iff.mp h
        cases XLEventThread.moves_of_next hthread with
        | queue hget hq =>
            have hless := ((hs.queueMoves hinside hq).2.posted hs.kept.thread.kept.exclusive
              hinside).2 hQ
            simp only [serving] at hout hpopped
            omega
      · cases h
  | start | create | assign | postStart | post | accept | reject | postAccept | acceptDone | loop =>
      exact hQ trivial

/-! ### Whole runs -/

/--
Sockets and `ACCEPT_INCOMING` events stay in step throughout a run exactly if every such event
finds room in the event queue when it is pushed.
-/
theorem no_socket_forgotten_iff (listener : Bool) {ls : List ServingRunStep}
    (hmsg : posts XLServingThread.usrMsg = false)
    (haccept : posts XLServingThread.acceptIncoming = false)
    (hrun : exec (next posts) (new listener) ls = some s) :
    Throughout (next posts) Paired (new listener) ls ↔
      Along (next posts) FindsRoom (new listener) ls :=
  throughout_iff_along (I := Booked) (fun _ hu => hu.paired)
    (fun _ _ _ hu hQ hstep => (moves_of_next hstep).booked hmsg haccept hQ hu)
    (fun _ _ _ hu hQ hstep => hu.unpaired hmsg hQ hstep) (booked_new listener) hrun

/-- The events of `Broadcast` and of `OnAlarm`. -/
def alarmsAndBroadcasts (iType : Int) : Bool :=
  iType = XLServingThread.lifeBeat || iType = XLServingThread.usrMsgBdcst

theorem no_socket_forgotten_iff_two_clients :
    Throughout (next alarmsAndBroadcasts) Paired (new true) broadcastRun ∧
      ∃ s, exec (next alarmsAndBroadcasts) (new true) broadcastRun = some s ∧
        s.outstanding = 0 ∧ s.offered = [32, 48] := by
  obtain ⟨s, hs, hend⟩ := (Option.any_eq_true _ _).mp
    (show (exec (next alarmsAndBroadcasts) (new true) broadcastRun).any
      (fun s => s.outstanding = 0 && s.offered = [32, 48]) = true by decide)
  exact ⟨(no_socket_forgotten_iff true (by decide) (by decide) hs).mpr (by decide +kernel), s, hs,
    by simpa using hend⟩

/-! ### A run that fills the event queue

The condition is not met for nothing: 256 calls of `Broadcast` fill the queue, and the event of a
socket that is pushed meanwhile is turned away.  The run is put together from whole calls, so that
nothing has to be evaluated at length.
-/

/-- The state with another queue. -/
def withQueue (s : ServingRun) (q : QueueRun XLThreadEvent) : ServingRun :=
  { s with thread := { s.thread with queue := q } }

/-- The step of a serving thread that is this step of its queue. -/
def ofQueueStep : QueueStep XLThreadEvent → ServingRunStep
  | .put e => .post e
  | l => .queue l

/-- The steps of a queue are steps of the serving thread, if its events are ones that are posted. -/
theorem exec_queue (posts : Int → Bool) (s : ServingRun) {qls : List (QueueStep XLThreadEvent)}
    {q q' : QueueRun XLThreadEvent}
    (hposts : ∀ ql ∈ qls, ql.inside = true ∨ ∃ e, ql = .put e ∧ posts e.iType = true)
    (h : exec QueueRun.next q qls = some q') :
    exec (next posts) (s.withQueue q) (qls.map ofQueueStep) = some (s.withQueue q') := by
  refine exec_lift s.withQueue ofQueueStep (fun ql hql u v hstep => ?_) h
  rcases hposts ql hql with hinside | ⟨e, rfl, he⟩
  · cases ql with
    | put | get => cases hinside
    | putLock | putCopy | putPush | putUnlock | putGive | getTake | getLock | getPop
    | getUnlock =>
        simp [next, ofQueueStep, withQueue, QueueStep.inside, XLEventThread.next, hstep]
  · cases hstep
    exact if_pos he

/-- The event is posted `n` times, `Put` call `i` the first. -/
def postSteps (e : XLThreadEvent) (i n : Nat) : List ServingRunStep :=
  (List.range' i n).flatMap fun k => .post e :: putSteps k

theorem postSteps_eq (e : XLThreadEvent) (i n : Nat) :
    postSteps e i n = (QueueRun.putAll e i n).map ofQueueStep := by
  rw [postSteps, QueueRun.putAll, List.map_flatMap]
  rfl

theorem exec_posts {posts : Int → Bool} {e : XLThreadEvent} (hposts : posts e.iType = true)
    {n : Nat} {s : ServingRun} (hlive : QueueRun.Live s.thread.queue)
    (hfree : s.thread.queue.queue.mut1.owner = none)
    (hroom : s.thread.queue.queue.q.pending.length + n ≤ s.thread.queue.queue.q.maxSize) :
    ∃ q, exec (next posts) s (postSteps e s.thread.queue.puts.length n) =
        some { s with thread := { s.thread with queue := q } } ∧
      QueueRun.Live q ∧ q.queue.mut1.owner = none ∧
      q.queue.q.maxSize = s.thread.queue.queue.q.maxSize ∧
      q.queue.q.pending = s.thread.queue.queue.q.pending ++ List.replicate n e ∧
      q.puts = s.thread.queue.puts ++ List.replicate n ⟨e, .returned true⟩ := by
  obtain ⟨q, hq, hrest⟩ := QueueRun.exec_putAll e hlive hfree hroom
  refine ⟨q, ?_, hrest⟩
  rw [postSteps_eq]
  refine exec_queue posts s (fun ql hql => ?_) hq
  obtain ⟨k, -, hk⟩ := List.mem_flatMap.mp hql
  simp only [List.mem_cons, List.not_mem_nil, or_false] at hk
  rcases hk with rfl | rfl | rfl | rfl | rfl | rfl
  · exact Or.inr ⟨_, rfl, hposts⟩
  all_goals exact Or.inl rfl

/-- What `Broadcast` posts. -/
def broadcast : XLThreadEvent := XLServingThread.broadcastEvent (some [104, 105]) 2

/-- A socket is pushed, `Broadcast` is called 256 times before the loop gets an event, and then the
event of the socket is turned away. -/
def refusedRun : List ServingRunStep :=
  startSteps ++ [.accept 32 false] ++ postSteps broadcast 1 256 ++
    [.postAccept, .queue (.putLock 257), .queue (.putCopy 257), .queue (.putPush 257),
      .queue (.putUnlock 257)]

/-- `OnAccept` calls `Put`, which turns the event away. -/
theorem exec_postAccept_full (posts : Int → Bool) {s : ServingRun} {p : Option Nat} {ssl : Bool}
    (ha : s.acceptor = .pushed p ssl) (hlive : QueueRun.Live s.thread.queue)
    (hfree : s.thread.queue.queue.mut1.owner = none)
    (hfull : ¬ s.thread.queue.queue.q.pending.length < s.thread.queue.queue.q.maxSize) :
    ∃ q, exec (next posts) s ([.postAccept] ++ ([.putLock s.thread.queue.puts.length,
        .putCopy s.thread.queue.puts.length, .putPush s.thread.queue.puts.length,
        .putUnlock s.thread.queue.puts.length] : List (QueueStep XLThreadEvent)).map .queue) =
        some { s with
          thread := { s.thread with queue := q }
          acceptor := .posting p ssl s.thread.queue.puts.length } ∧
      q.queue.q.pending = s.thread.queue.queue.q.pending ∧
      q.puts = s.thread.queue.puts ++ [⟨XLServingThread.acceptEvent, .returned false⟩] := by
  have hpost : s.next posts .postAccept = some { s.put XLServingThread.acceptEvent with
      acceptor := .posting p ssl s.thread.queue.puts.length } := by
    simp only [next, ha]
  have hput := QueueRun.exec_put_full hlive hfree hfull XLServingThread.acceptEvent
  have hrest := exec_queue posts { s.put XLServingThread.acceptEvent with
    acceptor := .posting p ssl s.thread.queue.puts.length } (by simp [QueueStep.inside]) hput
  exact ⟨_, exec_append_some (exec_single hpost) hrest, (XLLFQ.push_full hfull _).2, rfl⟩

theorem socket_forgotten_when_full :
    ∃ s, exec (next alarmsAndBroadcasts) (new true) refusedRun = some s ∧
      s.outstanding = 0 ∧ s.offered = [32] ∧ s.serving.clientIDs = [] ∧ ¬ Paired s := by
  obtain ⟨s, hs, hstart⟩ := (Option.any_eq_true _ _).mp
    (show (exec (next alarmsAndBroadcasts) (new true) (startSteps ++ [.accept 32 false])).any
      (fun s => decide ((s.thread.queue.queue.created = true ∧
          s.thread.queue.queue.sem.created = true ∧ s.thread.queue.queue.mut1.created = true ∧
          s.thread.queue.queue.properties &&& XLEventQueue.multiWriter ≠ 0) ∧
        s.thread.queue.queue.mut1.owner = none ∧ s.thread.queue.queue.q.maxSize = 256 ∧
        s.thread.queue.queue.q.pending = [] ∧ s.thread.queue.puts.length = 1 ∧
        s.thread.queue.unpushed isAccept = 0 ∧ s.thread.inHand = [] ∧ s.thread.loop = .testing ∧
        s.acceptor = .pushed (some 3) false ∧ s.offered = [32] ∧ s.serving.clientIDs = [])) = true
      by decide)
  obtain ⟨⟨hcreated, hsem, hmut, hwriter⟩, hfree, hmax, hpending, hcalls, hunpushed, hhand, hloop,
    hacceptor, hoffered, hclients⟩ := of_decide_eq_true hstart
  obtain ⟨q, hq, hlive, hfree', hmax', hpending', hputs⟩ := exec_posts (e := broadcast) (n := 256)
    (show alarmsAndBroadcasts broadcast.iType = true by decide) (s := s)
    ⟨hcreated, hsem, hmut, hwriter⟩ hfree (by rw [hpending, hmax]; decide)
  have hlength : q.puts.length = 257 := by
    rw [hputs, List.length_append, hcalls, List.length_replicate]
  obtain ⟨q', hq', hpending'', hputs'⟩ := exec_postAccept_full alarmsAndBroadcasts
    (s := { s with thread := { s.thread with queue := q } }) hacceptor hlive hfree' (by
      rw [hpending', hmax', hpending, hmax, List.nil_append, List.length_replicate]
      decide)
  dsimp only at hq' hpending'' hputs'
  rw [hcalls] at hq
  rw [hlength] at hq'
  have hnone : outstanding { s with
      thread := { s.thread with queue := q' }, acceptor := .posting (some 3) false 257 } = 0 := by
    have hhand' : XLEventThread.inHand { s.thread with queue := q' } = [] := by
      simpa only [XLEventThread.inHand, hloop] using hhand
    have hunpushed' : q'.unpushed isAccept = 0 := by
      rw [QueueRun.unpushed, hputs', hputs, List.countP_append, List.countP_append,
        show s.thread.queue.puts.countP _ = 0 from hunpushed, List.countP_replicate]
      rfl
    rw [outstanding, hhand', hunpushed', hpending'', hpending', hpending, List.nil_append,
      List.nil_append, List.countP_replicate]
    rfl
  refine ⟨_, exec_append_some (exec_append_some hs hq) hq', hnone, hoffered, hclients,
    fun hpaired => ?_⟩
  obtain ⟨p, hp, -⟩ := hpaired.registered hnone 32 (hoffered ▸ List.mem_cons_self)
  exact absurd (hclients ▸ hp : p ∈ []) List.not_mem_nil

end ServingRun

end ServClient
