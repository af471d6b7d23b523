/-
Which frames each client of a serving thread gets.

A client's frames begin with the one for the event that made it a client; from then on it
has one for each event that goes to all, and so the frames are a feed of the events handled
(`feed`).  A socket that is no client has none.  Each event keeps this: an
`ACCEPT_INCOMING` starts a feed for a socket that had none, an event that goes to all adds
its frame to every feed, the others add nothing to the events passed on.
-/
import ServClient.Lib.Feeds
import ServClient.Proofs.Messages
import ServClient.Proofs.ServingRun

namespace ServClient

open Runs

/-! ### The frames of one socket -/

/-- What has been sent on socket `a`. -/
def framesTo (sends : List (UInt64 × List UInt8)) (a : UInt64) : List (List UInt8) :=
  (sends.filter fun r => r.1 = a).map Prod.snd

theorem framesTo_append (sends more : List (UInt64 × List UInt8)) (a : UInt64) :
    framesTo (sends ++ more) a = framesTo sends a ++ framesTo more a := by
  simp [framesTo]

theorem framesTo_single (a b : UInt64) (f : List UInt8) :
    framesTo [(b, f)] a = if b = a then [f] else [] := by
  by_cases h : b = a <;> simp [framesTo, h]

/-- The same frame on each of several sockets. -/
theorem framesTo_all {socket : Option Nat → Option UInt64} {ps : List (Option Nat)}
    (hdistinct : (ps.map socket).Nodup) (a : UInt64) (f : List UInt8) :
    framesTo (ps.filterMap fun p => (socket p).map (·, f)) a =
      if some a ∈ ps.map socket then [f] else [] := by
  induction ps with
  | nil => rfl
  | cons p rest ih =>
      rw [List.map_cons, List.nodup_cons] at hdistinct
      have hrest := ih hdistinct.2
      cases hp : socket p with
      | none =>
          rw [List.filterMap_cons, hp, Option.map_none, hrest]
          simp [hp]
      | some b =>
          have hfirst : ((p :: rest).filterMap fun p => (socket p).map (·, f)) =
              [(b, f)] ++ rest.filterMap fun p => (socket p).map (·, f) := by simp [hp]
          rw [hfirst, framesTo_append, hrest, framesTo_single]
          by_cases hba : b = a
          · subst hba
            rw [hp] at hdistinct
            rw [if_pos rfl, if_neg hdistinct.1, if_pos (by rw [List.map_cons, hp]; simp)]
            rfl
          · have hne : some a ≠ some b := fun h => hba (Option.some.inj h).symm
            simp [hba, hp, Ne.symm hba]

namespace ServingRun

open XLServingThread (toAll frame Roster)

variable {posts : Int → Bool} {s s' : ServingRun} {l : ServingRunStep}

/-! ### The feeds

Each client has a feed: the frame of the event that registered it, and those of the broadcasts after
that.  Who is registered later starts later, and nobody misses any.
-/

/-- Client `r` was registered by the event at its place, and has had that frame and those of the
events after it that go to all. -/
def Fed (s : ServingRun) (r : Option Nat × Nat) : Prop :=
  ∃ a e, s.serving.heap.madeFor r.1 = some a ∧ s.thread.dispatched[r.2]? = some e ∧
    e.iType = XLServingThread.acceptIncoming ∧
    framesTo s.serving.sends a = frame e :: feed toAll frame s.thread.dispatched (r.2 + 1)

theorem Fed.lt {r : Option Nat × Nat} (h : Fed s r) : r.2 < s.thread.dispatched.length := by
  obtain ⟨a, e, -, he, -⟩ := h
  exact Calls.lt_of_getElem?_eq_some he

/-- Every client has its feed, and nobody else has any frame. -/
structure Feeds (s : ServingRun) : Prop where
  kept : Kept s
  clients : (s.registered.map Prod.fst).Perm s.serving.clientIDs
  fed : ∀ r ∈ s.registered, Fed s r
  ordered : s.registered.Pairwise fun r r' => r.2 < r'.2
  others : ∀ a, (∀ p ∈ s.serving.clientIDs, s.serving.heap.madeFor p ≠ some a) →
    framesTo s.serving.sends a = []

theorem feeds_new (listener : Bool) : Feeds (new listener) where
  kept := kept_new listener
  clients := List.Perm.refl _
  fed := by simp [new]
  ordered := List.Pairwise.nil
  others := fun _ _ => rfl

/-- A step that neither registers nor sends: the clients and the frames are as they were. -/
theorem Feeds.keep (h : Feeds s) (hkept : Kept s') (hregistered : s'.registered = s.registered)
    (hplace : ∀ i < s.thread.dispatched.length,
      s'.thread.dispatched[i]? = s.thread.dispatched[i]? ∧
        feed toAll frame s'.thread.dispatched (i + 1) =
          feed toAll frame s.thread.dispatched (i + 1))
    (hclients : s'.serving.clientIDs = s.serving.clientIDs)
    (hsends : s'.serving.sends = s.serving.sends)
    (hadopted : s.serving.heap.adopted <+: s'.serving.heap.adopted) : Feeds s' where
  kept := hkept
  clients := by
    rw [hregistered, hclients]
    exact h.clients
  fed := by
    rw [hregistered]
    intro r hr
    obtain ⟨hat, hfeed⟩ := hplace r.2 (h.fed r hr).lt
    obtain ⟨a, e, ha, he, htype, hframes⟩ := h.fed r hr
    refine ⟨a, e, PtrHeap.madeFor_of_prefix hadopted ha, ?_, htype, ?_⟩
    · rw [hat, he]
    · rw [hsends, hfeed, hframes]
  ordered := by
    rw [hregistered]
    exact h.ordered
  others := by
    rw [hclients, hsends]
    intro a hnone
    refine h.others a fun p hp hpa => ?_
    exact hnone p hp (PtrHeap.madeFor_of_prefix hadopted hpa)

/-- A step that handles no event. -/
theorem Feeds.move (h : Feeds s) (hkept : Kept s') (hregistered : s'.registered = s.registered)
    (hdispatched : s'.thread.dispatched = s.thread.dispatched)
    (hclients : s'.serving.clientIDs = s.serving.clientIDs)
    (hsends : s'.serving.sends = s.serving.sends)
    (hadopted : s.serving.heap.adopted <+: s'.serving.heap.adopted) : Feeds s' :=
  h.keep hkept hregistered (fun i _ => by rw [hdispatched]; exact ⟨rfl, rfl⟩) hclients hsends
    hadopted

/-- A registered client is a client. -/
theorem Feeds.mem_clients (h : Feeds s) {r : Option Nat × Nat} (hr : r ∈ s.registered) :
    r.1 ∈ s.serving.clientIDs :=
  h.clients.mem_iff.mp (List.mem_map_of_mem hr)

/-- No new client: what an event that is not passed on leaves. -/
theorem newClients_eq_nil {t t' : XLServingThread} (h : t'.clientIDs = t.clientIDs) :
    newClients t t' = [] := by
  simp [newClients, h]

theorem newClients_eq_single {t t' : XLServingThread} {p : Option Nat}
    (h : t'.clientIDs.Perm (p :: t.clientIDs)) (hp : p ∉ t.clientIDs) : newClients t t' = [p] := by
  have hperm : (newClients t t').Perm ((p :: t.clientIDs).filter fun c => c ∉ t.clientIDs) :=
    h.filter _
  have hsingle : ((p :: t.clientIDs).filter fun c => c ∉ t.clientIDs) = [p] := by
    rw [List.filter_cons_of_pos (by simpa using hp), List.filter_eq_nil_iff.mpr (by simp)]
  rw [hsingle] at hperm
  exact List.perm_singleton.mp hperm

/-- The event handled is the last one, and is passed on or not. -/
theorem handled_place {i : Nat} (hi : i < s.thread.dispatched.length) :
    s.handled.thread.dispatched[i]? = s.thread.dispatched[i]? ∧
      feed toAll frame s.handled.thread.dispatched (i + 1) =
        feed toAll frame s.thread.dispatched (i + 1) ++
          if toAll s.thread.event then [frame s.thread.event] else [] :=
  ⟨List.getElem?_append_left hi, feed_concat hi⟩

theorem handled_registered (s : ServingRun) : s.handled.registered = s.registered ++
    (newClients s.serving s.handled.serving).map fun p => (p, s.thread.dispatched.length) := rfl

/-- Nobody is registered. -/
theorem handled_registered_same (h : s.handled.serving.clientIDs = s.serving.clientIDs) :
    s.handled.registered = s.registered := by
  rw [handled_registered, newClients_eq_nil h, List.map_nil, List.append_nil]

/-- An event that registers nobody and is not passed on. -/
theorem Feeds.quiet (h : Feeds s) (hkept : Kept s.handled) (htype : toAll s.thread.event = false)
    (hsends : s.handled.serving.sends = s.serving.sends)
    (hclients : s.handled.serving.clientIDs = s.serving.clientIDs)
    (hadopted : s.serving.heap.adopted <+: s.handled.serving.heap.adopted) : Feeds s.handled := by
  refine h.keep hkept (handled_registered_same hclients) (fun i hi => ?_) hclients hsends hadopted
  obtain ⟨hat, hfeed⟩ := handled_place hi
  rw [htype, if_neg (by decide), List.append_nil] at hfeed
  exact ⟨hat, hfeed⟩

/-- An `ACCEPT_INCOMING` event that finds socket `a`. -/
theorem Feeds.register (h : Feeds s) (hkept : Kept s.handled) {q : XLLFQ (Option Nat)}
    {p : Option Nat} {a : UInt64} (htype : s.thread.event.iType = XLServingThread.acceptIncoming)
    (hpop : s.serving.incomingQueue.pop = some (q, p)) (ha : s.serving.heap.madeFor p = some a)
    (hsends : s.handled.serving.sends = s.serving.sends ++ [(a, frame s.thread.event)])
    (hclients : s.handled.serving.clientIDs.Perm (p :: s.serving.clientIDs))
    (hadopted : s.handled.serving.heap.adopted = s.serving.heap.adopted) : Feeds s.handled := by
  obtain ⟨-, hnew⟩ := h.kept.roster.pop hpop
  have hnot : p ∉ s.serving.clientIDs := fun hmem => hnew p hmem rfl
  have hregistered : s.handled.registered =
      s.registered ++ [(p, s.thread.dispatched.length)] := by
    rw [handled_registered, newClients_eq_single hclients hnot, List.map_singleton]
  have hmade : s.handled.serving.heap.madeFor = s.serving.heap.madeFor :=
    PtrHeap.madeFor_congr hadopted
  have hall : toAll s.thread.event = false := by
    rw [toAll, htype]
    rfl
  have hframes : ∀ b, framesTo s.handled.serving.sends b =
      framesTo s.serving.sends b ++ if a = b then [frame s.thread.event] else [] := by
    intro b
    rw [hsends, framesTo_append, framesTo_single]
  refine ⟨hkept, ?_, ?_, ?_, ?_⟩
  · rw [hregistered, List.map_append]
    exact (List.perm_append_comm.trans (h.clients.cons p)).trans hclients.symm
  · rw [hregistered]
    intro r hr
    rcases List.mem_append.mp hr with hold | hlast
    · obtain ⟨hat, hfeed⟩ := handled_place (h.fed r hold).lt
      obtain ⟨b, e, hb, he, haccept, hbefore⟩ := h.fed r hold
      have hba : a ≠ b := fun hab => hnew r.1 (h.mem_clients hold) (by rw [hb, ha, hab])
      refine ⟨b, e, by rw [hmade, hb], by rw [hat, he], haccept, ?_⟩
      rw [hframes, if_neg hba, List.append_nil, hbefore, hfeed, hall, if_neg (by decide),
        List.append_nil]
    · -- The new client: no frame before, and no event after.
      rw [List.mem_singleton.mp hlast]
      have hbefore : framesTo s.serving.sends a = [] :=
        h.others a fun c hc hca => hnew c hc (by rw [hca, ha])
      have hlength : s.thread.dispatched.length + 1 = s.handled.thread.dispatched.length := by
        simp [handled]
      refine ⟨a, s.thread.event, by rw [hmade, ha], by simp [handled], htype, ?_⟩
      rw [hframes, hbefore, if_pos rfl, hlength, feed_length]
      rfl
  · rw [hregistered, List.pairwise_append]
    refine ⟨h.ordered, List.pairwise_singleton _ _, fun r hr r' hr' => ?_⟩
    rw [List.mem_singleton.mp hr']
    exact (h.fed r hr).lt
  · intro b hno
    have hbefore : framesTo s.serving.sends b = [] :=
      h.others b fun c hc hcb => hno c (hclients.mem_iff.mpr (List.mem_cons_of_mem p hc))
        (by rw [hmade, hcb])
    have hab : a ≠ b := by
      rintro rfl
      exact hno p (hclients.mem_iff.mpr List.mem_cons_self) (by rw [hmade, ha])
    rw [hframes, hbefore, if_neg hab]
    rfl

/-- Each client is sent the frame, on its own socket and once. -/
theorem Kept.framesTo_send (h : Kept s) (a : UInt64) :
    framesTo (s.serving.send s.serving.clientIDs s.thread.event).sends a =
      framesTo s.serving.sends a ++
        if some a ∈ s.serving.clientIDs.map s.serving.heap.madeFor then [frame s.thread.event]
        else [] := by
  have hdata : s.serving.clientIDs.map (XLServingThread.socketAt s.serving.heap) =
      s.serving.clientIDs.map s.serving.heap.madeFor :=
    List.map_congr_left fun p hp => h.roster.socketAt (List.mem_append_left _ hp)
  have hdistinct : (s.serving.clientIDs.map (XLServingThread.socketAt s.serving.heap)).Nodup := by
    have hrows := h.roster.distinct
    rw [XLServingThread.rows, List.map_append, List.nodup_append] at hrows
    rw [hdata]
    exact hrows.1
  rw [XLServingThread.send, framesTo_append, framesTo_all hdistinct, hdata]

/-- An event that goes to all. -/
theorem Feeds.passOn (h : Feeds s) (hkept : Kept s.handled) (htype : toAll s.thread.event = true)
    (heq : s.handled.serving = s.serving.send s.serving.clientIDs s.thread.event) :
    Feeds s.handled := by
  have hclients : s.handled.serving.clientIDs = s.serving.clientIDs := by
    rw [heq]
    rfl
  have hmade : s.handled.serving.heap.madeFor = s.serving.heap.madeFor := by
    rw [heq]
    rfl
  have hregistered := handled_registered_same hclients
  refine ⟨hkept, ?_, ?_, ?_, ?_⟩
  · rw [hregistered, hclients]
    exact h.clients
  · rw [hregistered]
    intro r hr
    obtain ⟨hat, hfeed⟩ := handled_place (h.fed r hr).lt
    obtain ⟨a, e, ha, he, haccept, hbefore⟩ := h.fed r hr
    refine ⟨a, e, by rw [hmade, ha], by rw [hat, he], haccept, ?_⟩
    rw [heq, h.kept.framesTo_send, hbefore, hfeed, htype, if_pos rfl, if_pos]
    · rfl
    · exact List.mem_map.mpr ⟨r.1, h.mem_clients hr, ha⟩
  · rw [hregistered]
    exact h.ordered
  · rw [hclients, hmade]
    intro a hno
    rw [heq, h.kept.framesTo_send, h.others a hno, if_neg]
    · rfl
    · intro hmem
      obtain ⟨p, hp, hpa⟩ := List.mem_map.mp hmem
      exact hno p hp hpa

theorem Feeds.dispatch (h : Feeds s) (hl : s.thread.loop = .handling) (hkept : Kept s.handled) :
    Feeds s.handled := by
  cases h.kept.roster.tOnEvent (h.kept.event_ne hl) with
  | quiet htype hsends hsound hclients hqueue hadopted hnone =>
      exact h.quiet hkept htype hsends hclients hadopted
  | register q p a htype hpop ha hsends hsound hclients hqueue hadopted =>
      exact h.register hkept htype hpop ha hsends hclients hadopted
  | passOn htype heq => exact h.passOn hkept htype heq

theorem Moves.feeds (h : Moves posts s l s') (hmsg : posts XLServingThread.usrMsg = false)
    (hs : Feeds s) : Feeds s' := by
  have hkept := h.kept hmsg hs.kept
  cases h with
  | @thread l tl thread start hthread htl hself hd =>
      have hserving : ServingRun.serving { s with thread := thread, start := start } = s.serving :=
        hself
      exact hs.move hkept rfl hd (by rw [hserving]) (by rw [hserving])
        (PtrHeap.prefix_of_eq (by rw [hserving]))
  | post | postAccept | assigned => exact hs.move hkept rfl rfl rfl rfl List.prefix_rfl
  | dispatch hl he => exact hs.dispatch hl hkept
  | assign hnull =>
      refine hs.move hkept rfl rfl rfl rfl ?_
      show s.serving.heap.adopted <+: (s.serving.heap.drop _).adopted ++ _
      rw [PtrHeap.drop_adopted]
      exact List.prefix_append _ _
  | accept hidle ha =>
      refine hs.move hkept rfl rfl rfl rfl ?_
      rw [accept_adopted]
      exact List.prefix_append _ _
  | reject hidle ha =>
      refine hs.move hkept rfl rfl rfl rfl ?_
      show s.serving.heap.adopted <+: ((s.serving.heap.adopt _).drop _).adopted
      rw [PtrHeap.drop_adopted]
      exact List.prefix_append _ _
  | acceptDone ha hi =>
      exact hs.move hkept rfl rfl rfl rfl (PtrHeap.prefix_of_eq (acceptDone_adopted s))

theorem feeds_exec {ls : List ServingRunStep} (hmsg : posts XLServingThread.usrMsg = false)
    (hs : Feeds s) (h : exec (next posts) s ls = some s') : Feeds s' :=
  exec_invariant (fun _ _ _ hu hstep => (moves_of_next hstep).feeds hmsg hu) hs h

/-! ### The order of broadcasts -/

/-- The places of the events client `r` has a frame of. -/
def placesOf (s : ServingRun) (r : Option Nat × Nat) : List Nat :=
  r.2 :: places toAll s.thread.dispatched (r.2 + 1)

/-- The frames of the events at these places. -/
def framesAt (s : ServingRun) (ms : List Nat) : List (List UInt8) :=
  ms.filterMap fun m => s.thread.dispatched[m]?.map frame

/-- Every client has the frames of the same events, in the same order, from its own on. -/
structure TotalOrder (s : ServingRun) : Prop where
  /-- No socket that is gone has been called. -/
  sound : s.serving.fault = false
  handled : s.thread.dispatched <+: untilExit s.thread.accepted
  clients : (s.registered.map Prod.fst).Perm s.serving.clientIDs
  frames : ∀ r ∈ s.registered, ∃ a e, s.serving.heap.getData r.1 = some a ∧
    s.thread.dispatched[r.2]? = some e ∧ e.iType = XLServingThread.acceptIncoming ∧
    framesTo s.serving.sends a = frame e :: feed toAll frame s.thread.dispatched (r.2 + 1) ∧
    framesTo s.serving.sends a = s.framesAt (s.placesOf r)
  others : ∀ a, (∀ p ∈ s.serving.clientIDs, s.serving.heap.getData p ≠ some a) →
    framesTo s.serving.sends a = []
  suffix : ∀ r ∈ s.registered, ∀ r' ∈ s.registered, r.2 < r'.2 → ∀ a a',
    s.serving.heap.getData r.1 = some a → s.serving.heap.getData r'.1 = some a' →
      (framesTo s.serving.sends a').drop 1 <:+ framesTo s.serving.sends a
  /-- A broadcast that was accepted and has been handled is in the frames of each client
  registered before it once, and in those of no other. -/
  once : ∀ (m : Nat) (msg : List UInt8) (len : Int), 0 < len → len ≤ intMax - 8 →
    len ≤ msg.length →
    s.thread.accepted[m]? = some (XLServingThread.broadcastEvent (some msg) len) →
    m < s.thread.dispatched.length →
      s.framesAt [m] =
        [Bytes.ofInt 4 XLServingThread.usrMsgBdcst ++ Bytes.ofInt 4 len ++ msg.take len.toNat] ∧
      ∀ r ∈ s.registered, (s.placesOf r).count m = if r.2 < m then 1 else 0

theorem Feeds.getData (h : Feeds s) {p : Option Nat} (hp : p ∈ s.serving.clientIDs) :
    s.serving.heap.getData p = s.serving.heap.madeFor p :=
  h.kept.roster.getData (List.mem_append_left _ hp)

theorem Feeds.totalOrder (h : Feeds s) : TotalOrder s := by
  have hs := h.kept.thread
  have hdata : ∀ r ∈ s.registered, s.serving.heap.getData r.1 = s.serving.heap.madeFor r.1 :=
    fun r hr => h.getData (h.mem_clients hr)
  have hfed : ∀ r ∈ s.registered, ∀ a, s.serving.heap.getData r.1 = some a → ∃ e,
      framesTo s.serving.sends a = frame e :: feed toAll frame s.thread.dispatched (r.2 + 1) := by
    intro r hr a ha
    obtain ⟨b, e, hb, -, -, hframes⟩ := h.fed r hr
    rw [hdata r hr, hb] at ha
    cases ha
    exact ⟨e, hframes⟩
  have hplace : ∀ m, m < s.thread.dispatched.length →
      s.thread.accepted[m]? = s.thread.dispatched[m]? := by
    intro m hm
    rw [hs.accepted_eq, List.append_assoc, List.getElem?_append_left hm]
  refine ⟨h.kept.roster.sound, ?_, h.clients, fun r hr => ?_, fun a hno => ?_,
    fun r hr r' hr' hlt a a' ha ha' => ?_, fun m msg len hlen hfits hmsg haccepted hm => ?_⟩
  · rw [hs.accepted_eq, List.append_assoc, XLEventThread.untilExit_append hs.logged.dispatched]
    exact List.prefix_append _ _
  · obtain ⟨a, e, ha, he, htype, hframes⟩ := h.fed r hr
    refine ⟨a, e, by rw [hdata r hr, ha], he, htype, hframes, ?_⟩
    rw [hframes, framesAt, placesOf, List.filterMap_cons_some (by rw [he]; rfl), feed_eq_places]
  · exact h.others a fun p hp hpa => hno p hp (by rw [h.getData hp, hpa])
  · obtain ⟨e, hframes⟩ := hfed r hr a ha
    obtain ⟨e', hframes'⟩ := hfed r' hr' a' ha'
    rw [hframes, hframes', List.drop_one, List.tail_cons]
    exact (feed_suffix (by omega)).trans (List.suffix_cons _ _)
  · rw [hplace m hm] at haccepted
    refine ⟨?_, fun r hr => ?_⟩
    · rw [framesAt, List.filterMap_cons_some (by rw [haccepted]; rfl), List.filterMap_nil,
        XLServingThread.frame_broadcastEvent hlen hfits hmsg]
    · have hall : toAll (XLServingThread.broadcastEvent (some msg) len) = true := rfl
      have hne : r.2 ≠ m := by
        rintro rfl
        obtain ⟨a, e, -, he, htype, -⟩ := h.fed r hr
        rw [haccepted] at he
        cases he
        cases htype
      rw [placesOf, List.count_cons_of_ne hne, count_places, haccepted]
      exact if_congr (and_iff_left hall) rfl rfl

/--
In every interleaving of the acceptor, any number of threads that post and the loop, and for any
number of clients: the frames of each client are those of the events handled from its own on.
-/
theorem broadcasts_in_order (listener : Bool) {ls : List ServingRunStep}
    (hmsg : posts XLServingThread.usrMsg = false)
    (hrun : exec (next posts) (new listener) ls = some s) : TotalOrder s :=
  (feeds_exec hmsg (feeds_new listener) hrun).totalOrder

/-- The steps of `Put` call `i`, and those of the loop's `Get` call `j` with the handling. -/
def putSteps (i : Nat) : List ServingRunStep :=
  [.queue (.putLock i), .queue (.putCopy i), .queue (.putPush i), .queue (.putUnlock i),
    .queue (.putGive i)]

/-- The loop gets the next event with `Get` call `j`, and handles it. -/
def eventSteps (j : Nat) : List ServingRunStep :=
  [.loop, .queue (.getTake j), .queue (.getLock j), .queue (.getPop j), .queue (.getUnlock j),
    .loop, .loop]

/-- `Start`, and its event is handled. -/
def startSteps : List ServingRunStep :=
  [.start, .create, .create, .create, .create, .loop, .loop, .loop, .loop, .assign 16,
    .postStart] ++ putSteps 0 ++ eventSteps 0

/-- `OnAccept`, whose event is `Put` call `i`. -/
def acceptSteps (clientSock : UInt64) (ssl : Bool) (i : Nat) : List ServingRunStep :=
  [.accept clientSock ssl, .postAccept] ++ putSteps i ++ [.acceptDone]

/-- A broadcast is put between the events of two clients. -/
def broadcastRun : List ServingRunStep :=
  startSteps ++ acceptSteps 32 false 1 ++
    [.post (XLServingThread.broadcastEvent (some [72, 105]) 2)] ++ putSteps 2 ++
    acceptSteps 48 true 3 ++ eventSteps 1 ++ eventSteps 2 ++ eventSteps 3

theorem broadcasts_in_order_two_clients :
    ∃ s, exec (next fun iType => iType ≠ XLServingThread.usrMsg) (new true) broadcastRun = some s ∧
      s.registered.length = 2 ∧ TotalOrder s := by
  obtain ⟨s, hs, hcount⟩ := (Option.any_eq_true _ _).mp
    (show (exec (next fun iType => iType ≠ XLServingThread.usrMsg) (new true) broadcastRun).any
      (fun s => s.registered.length = 2) = true by decide)
  exact ⟨s, hs, by simpa using hcount, broadcasts_in_order true (by decide) hs⟩

end ServingRun

end ServClient
