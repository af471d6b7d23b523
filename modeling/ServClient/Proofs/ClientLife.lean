/-
A client that is stopped.

The listening thread hands on one and the same event whatever `recv` brings
(`ServClient/Proofs/Listening.lean`).  Its type is none of the event loop's own, so with a
listening thread of this kind nothing but the contents of `m_DataStorage` depends on the network.

It also means that no `Exit` is ever put.  `Stop` ends the listening thread, and then destroys the
event thread without telling it to end its loop, so once the loop has been entered `Stop` waits in
`join` for good.

What could fail is that the event changes after all; `Muted` keeps that it does not.
-/
import ServClient.ClientLife
import ServClient.Proofs.ClientThread

namespace ServClient

open Runs

namespace XLListeningThread

/-- Where the event is too large for the buffer, it stays as it is. -/
theorem receive_of_large {t : XLListeningThread}
    (h : (maxMessLength : Int) < t.event.writableSize) (r : RecvResult) :
    t.receive r = ({ t with dataStorage := (SocketUtility.recieve t.dataStorage r).1 },
      if t.listener then some t.event else none) := by
  have hread := XLThreadEvent.readFrom_of_small h (some (SocketUtility.recieve t.dataStorage r).1)
  simp only [receive, XLSocket.recieve, SocketUtility.recieve_noError, if_true, hread]
  split <;> rfl

end XLListeningThread

/-- What is passed on is the event in hand. -/
theorem XLClientThread.mem_forwarded {t : XLClientThread} {e x : XLThreadEvent}
    (h : x ∈ (t.tOnEvent e).forwarded) : x ∈ t.forwarded ∨ x = e := by
  by_cases he : e.iType = startThread
  · rw [(t.tOnEvent_start he).2] at h
    exact Or.inl h
  · rw [tOnEvent, if_neg he] at h
    split at h
    · exact Or.inl h
    · rw [forward] at h
      split at h
      · simpa using h
      · exact Or.inl h

theorem XLListeningThread.receive_bExit (t : XLListeningThread) (r : RecvResult) :
    (t.receive r).1.bExit = t.bExit := by
  unfold receive
  dsimp only
  split
  · split <;> rfl
  · rfl

theorem LoopPc.not_gone {pc : LoopPc} (h : pc.inLoop = true) : pc.gone = false := by
  cases pc <;> first | rfl | cases h

/-- Where the listening thread goes from outside of `Recieve`. -/
def ListenPc.after (handle exit : Bool) : ListenPc → Option ListenPc
  | off | receiving | ended => none
  | started => some synced
  | synced => some (if handle then connecting else leaving)
  | connecting | listening _ => some testing
  | testing => some (if exit then closing else receiving)
  | closing => some leaving
  | leaving => some ended

namespace ClientLife

open XLClientThread (tOnEvent startEvent)

variable {s s' : ClientLife} {l : ClientLifeStep} {e : XLThreadEvent}

/-! ### What one step can do -/

/-- What one step can do, with what it finds. -/
inductive Moves (s : ClientLife) : ClientLifeStep → ClientLife → Prop
  | start {thread} (hc : s.owner = .fresh)
      (hthread : s.thread.next tOnEvent .create = some thread) :
      Moves s .start { s with thread := thread, owner := .creating }
  | stop (hc : s.owner = .running) (hcreated : s.thread.created = true) :
      Moves s .stop { s with data := s.data.setExit, owner := .exiting }
  | stopNone (hc : s.owner = .running) (hcreated : ¬ s.thread.created = true) :
      Moves s .stop { s with owner := .stopped }
  | create {thread} (hc : s.owner = .creating) (hidle : s.thread.owner ≠ .idle)
      (hthread : s.thread.next tOnEvent .owner = some thread) :
      Moves s .owner { s with thread := thread }
  | post (hc : s.owner = .creating) (hidle : s.thread.owner = .idle)
      (hcreated : s.thread.created = true) :
      Moves s .owner { s.put startEvent with owner := .posting s.thread.queue.puts.length }
  | postNone (hc : s.owner = .creating) (hidle : s.thread.owner = .idle)
      (hcreated : ¬ s.thread.created = true) : Moves s .owner { s with owner := .running }
  | posted {i} (hc : s.owner = .posting i) : Moves s .owner { s with owner := .running }
  | exiting (hc : s.owner = .exiting) :
      Moves s .owner { s with owner := if s.data.handle then .taking else .listenStopped }
  | taking {sync2} (hc : s.owner = .taking) :
      Moves s .owner { s with
        data := { s.data with sync1 := s.data.sync1.destroy, sync2 := sync2 }, owner := .joining }
  | joining (hc : s.owner = .joining) (hended : s.data.pc = .ended) :
      Moves s .owner { s with data := { s.data with handle := false }, owner := .listenStopped }
  | listenStopped {thread} (hc : s.owner = .listenStopped)
      (hthread : s.thread.next tOnEvent .destroy = some thread) :
      Moves s .owner { s with thread := thread, owner := .destroying }
  | destroying {thread} (hc : s.owner = .destroying) (hidle : s.thread.owner ≠ .idle)
      (hthread : s.thread.next tOnEvent .owner = some thread) :
      Moves s .owner { s with thread := thread }
  | destroyed (hc : s.owner = .destroying) (hidle : s.thread.owner = .idle) :
      Moves s .owner { s with owner := .stopped }
  | loop {thread} (hthread : s.thread.next tOnEvent .loop = some thread) :
      Moves s .loop { s with
        thread := thread
        data := if s.startsListening then s.data.startThread else s.data }
  | startListen {data} (hdata : s.data.createStep = some data) :
      Moves s .startListen { s with data := data }
  /-- The listening thread goes on outside of `Recieve`. -/
  | listen {r sync1 sync2 pc}
      (hpc : s.data.pc.after s.data.handle s.data.object.bExit = some pc) :
      Moves s (.listen r)
        { s with data := { s.data with sync1 := sync1, sync2 := sync2, pc := pc } }
  /-- `OnListen` is called. -/
  | receive {r object x} (hpc : s.data.pc = .receiving)
      (hobject : s.data.object.receive r = (object, some x)) :
      Moves s (.listen r) { s.put x with
        data := { s.data with object := object, pc := .listening s.thread.queue.puts.length }
        listened := s.listened ++ [s.thread.queue.puts.length] }
  | receiveNone {r object} (hpc : s.data.pc = .receiving)
      (hobject : s.data.object.receive r = (object, none)) :
      Moves s (.listen r) { s with data := { s.data with object := object, pc := .testing } }
  | queue {ql thread} (hinside : ql.inside = true)
      (hthread : s.thread.next tOnEvent (.queue ql) = some thread) :
      Moves s (.queue ql) { s with thread := thread }

theorem ownerMoves (h : s.ownerStep = some s') : Moves s .owner s' := by
  unfold ownerStep at h
  split at h
  · cases h
  · cases h
  · cases h
  · rename_i hc
    split at h
    · rename_i hidle
      split at h
      · rename_i hcreated; cases h; exact .post hc hidle hcreated
      · rename_i hcreated; cases h; exact .postNone hc hidle hcreated
    · rename_i hidle
      obtain ⟨thread, hthread, rfl⟩ := Option.map_eq_some_iff.mp h
      exact .create hc hidle hthread
  · rename_i i hc
    split at h
    · cases h; exact .posted hc
    · cases h
  · rename_i hc; cases h; exact .exiting hc
  · rename_i hc
    obtain ⟨sync2, -, rfl⟩ := Option.map_eq_some_iff.mp h
    exact .taking hc
  · rename_i hc
    split at h
    · rename_i hended; cases h; exact .joining hc hended
    · cases h
  · rename_i hc
    obtain ⟨thread, hthread, rfl⟩ := Option.map_eq_some_iff.mp h
    exact .listenStopped hc hthread
  · rename_i hc
    split at h
    · rename_i hidle; cases h; exact .destroyed hc hidle
    · rename_i hidle
      obtain ⟨thread, hthread, rfl⟩ := Option.map_eq_some_iff.mp h
      exact .destroying hc hidle hthread

theorem listenMoves {r : RecvResult} (h : s.listenStep r = some s') : Moves s (.listen r) s' := by
  unfold listenStep at h
  dsimp only at h
  split at h
  · cases h
  · cases h
  · rename_i hpc
    obtain ⟨sync1, -, rfl⟩ := Option.map_eq_some_iff.mp h
    exact .listen (by rw [hpc]; rfl)
  · rename_i hpc; cases h; exact .listen (by rw [hpc]; rfl)
  · rename_i hpc; cases h; exact .listen (by rw [hpc]; rfl)
  · rename_i hpc; cases h; exact .listen (by rw [hpc]; rfl)
  · rename_i hpc
    split at h
    · rename_i x hx; cases h; exact .receive hpc (Prod.ext rfl hx)
    · rename_i hx; cases h; exact .receiveNone hpc (Prod.ext rfl hx)
  · rename_i i hpc
    split at h
    · cases h; exact .listen (by rw [hpc]; rfl)
    · cases h
  · rename_i hpc; cases h; exact .listen (by rw [hpc]; rfl)
  · rename_i hpc; cases h; exact .listen (by rw [hpc]; rfl)

theorem moves_of_next (h : s.next l = some s') : Moves s l s' := by
  cases l with
  | start =>
      simp only [next] at h
      split at h
      · rename_i hc
        obtain ⟨thread, hthread, rfl⟩ := Option.map_eq_some_iff.mp h
        exact .start hc hthread
      · cases h
  | stop =>
      simp only [next] at h
      split at h
      · rename_i hc
        split at h
        · rename_i hcreated; cases h; exact .stop hc hcreated
        · rename_i hcreated; cases h; exact .stopNone hc hcreated
      · cases h
  | owner => exact ownerMoves h
  | loop =>
      simp only [next] at h
      split at h
      · cases h
      · obtain ⟨thread, hthread, rfl⟩ := Option.map_eq_some_iff.mp h
        exact .loop hthread
  | startListen =>
      obtain ⟨data, hdata, rfl⟩ := Option.map_eq_some_iff.mp h
      exact .startListen hdata
  | listen r => exact listenMoves h
  | queue ql =>
      simp only [next] at h
      split at h
      · rename_i hinside
        obtain ⟨thread, hthread, rfl⟩ := Option.map_eq_some_iff.mp h
        exact .queue hinside hthread
      · cases h

/-! ### The event that is handed on

The listening thread has one event, made before its loop, which no answer of the network replaces.
So all that ever comes to the client's loop is that event and the one of `Start`.
-/

/-- Every event put is that of `Start` or the one the listening thread has. -/
structure Muted (e : XLThreadEvent) (s : ClientLife) : Prop where
  inv : s.thread.Inv
  exit : s.thread.exit = false
  puts : ∀ (i : Nat) (c : PutCall XLThreadEvent), s.thread.queue.puts[i]? = some c →
    c.event = startEvent ∨ c.event = e
  event : s.data.object.event = e
  forwarded : ∀ x ∈ s.client.forwarded, x = e

/-- The event as `XLListeningThread` makes it. -/
def staleEvent (uninitEvent : Vector UInt8 maxMessLength) : XLThreadEvent :=
  XLThreadEvent.ofSize maxMessLength uninitEvent.toList

theorem staleEvent_large (uninitEvent : Vector UInt8 maxMessLength) :
    (maxMessLength : Int) < (staleEvent uninitEvent).writableSize :=
  (XLListeningThread.deaf_new uninitEvent uninitEvent).large

theorem staleEvent_iType (uninitEvent : Vector UInt8 maxMessLength) :
    (staleEvent uninitEvent).iType = 0 := rfl

theorem muted_new {listener : Bool} {uninitEvent uninitStorage : Vector UInt8 maxMessLength} :
    Muted (staleEvent uninitEvent) (new listener uninitEvent uninitStorage) where
  inv := XLEventThread.inv_new _
  exit := rfl
  puts := fun i c hi => by simp [new, XLEventThread.new, QueueRun.ofQueue] at hi
  event := rfl
  forwarded := fun x hx => by simp [new, client, XLEventThread.new, XLClientThread.new] at hx

theorem Muted.congr (h : Muted e s) (hthread : s'.thread = s.thread)
    (hevent : s'.data.object.event = s.data.object.event) : Muted e s' where
  inv := hthread ▸ h.inv
  exit := hthread ▸ h.exit
  puts := hthread ▸ h.puts
  event := hevent.trans h.event
  forwarded := by
    unfold client
    rw [hthread]
    exact h.forwarded

/-- The event in hand has been put by somebody. -/
theorem Muted.inHand (h : Muted e s) (hl : s.thread.loop = .handling) :
    s.thread.event = startEvent ∨ s.thread.event = e := by
  obtain ⟨i, hi⟩ := h.inv.event_pushed hl
  obtain ⟨c, hc, hevent⟩ := h.inv.put_of_pushed (List.mem_of_getElem? hi)
  rw [← hevent]
  exact h.puts i c hc

/-- The event thread moves, and nothing comes in. -/
theorem Muted.thread (h : Muted e s) (htype : e.iType ≠ eventThreadEventTypeExit)
    {tl : EventThreadStep} {thread : XLEventThread XLClientThread}
    (hthread : s.thread.next tOnEvent tl = some thread)
    (hput : ∀ x, tl ≠ .queue (.put x)) (hstop : tl ≠ .stopMainLoop) :
    Muted e { s with thread := thread } where
  inv := XLEventThread.inv_step h.inv hthread
  exit := by
    refine Bool.eq_false_iff.mpr fun hexit => ?_
    rcases (XLEventThread.exit_iff h.inv hthread).mp hexit with hold | ⟨-, hl, hexit⟩
    · exact absurd (h.exit.symm.trans hold) (by decide)
    · rcases h.inHand hl with hin | hin
      · rw [hin] at hexit
        cases hexit
      · exact htype (hin ▸ hexit)
  puts := fun i c' hi => by
    obtain ⟨c, hc, hevent⟩ := (XLEventThread.flows h.inv hthread hput hstop).puts i c' hi
    rw [hevent]
    exact h.puts i c hc
  event := h.event
  forwarded := by
    rcases XLEventThread.dispatch_or_quiet hthread with ⟨hself, -⟩ | ⟨-, hl, -, rfl⟩
    · unfold client
      rw [hself]
      exact h.forwarded
    · intro x hx
      have hmem : x ∈ (s.client.tOnEvent s.thread.event).forwarded := hx
      rcases h.inHand hl with hin | hin
      · rw [hin, (s.client.tOnEvent_start rfl).2] at hmem
        exact h.forwarded x hmem
      · rw [hin] at hmem
        exact (XLClientThread.mem_forwarded hmem).elim (h.forwarded x) id

theorem Muted.put (h : Muted e s) {x : XLThreadEvent} (hx : x = startEvent ∨ x = e) :
    Muted e (s.put x) where
  inv := by
    have hstep : s.thread.next tOnEvent (.queue (.put x)) = some (s.put x).thread := rfl
    exact XLEventThread.inv_step h.inv hstep
  exit := h.exit
  puts := Calls.forall_concat hx h.puts
  event := h.event
  forwarded := h.forwarded

theorem Muted.next (h : Muted e s) (hlarge : (maxMessLength : Int) < e.writableSize)
    (htype : e.iType ≠ eventThreadEventTypeExit) (hstep : s.next l = some s') : Muted e s' := by
  cases moves_of_next hstep with
  | start hc hthread | listenStopped hc hthread | create hc hidle hthread
  | destroying hc hidle hthread =>
      exact (h.thread htype hthread (by simp) (by simp)).congr rfl rfl
  | stop | stopNone | postNone | posted | exiting | taking | joining | destroyed | listen =>
      exact h.congr rfl rfl
  | post => exact (h.put (Or.inl rfl)).congr rfl rfl
  | loop hthread =>
      refine (h.thread htype hthread (by simp) (by simp)).congr rfl ?_
      dsimp only
      split
      · unfold DataListenThread.startThread DataListenThread.start
        split <;> rfl
      · rfl
  | startListen hdata =>
      refine h.congr rfl ?_
      unfold DataListenThread.createStep at hdata
      split at hdata <;> cases hdata <;> rfl
  | @receive r object x hpc hobject =>
      rw [XLListeningThread.receive_of_large (by rw [h.event]; exact hlarge)] at hobject
      obtain ⟨rfl, hx⟩ := Prod.mk.inj hobject
      have hx : x = e := by
        split at hx
        · exact (Option.some.inj hx).symm.trans h.event
        · cases hx
      exact (h.put (Or.inr hx)).congr rfl rfl
  | receiveNone hpc hobject =>
      rw [XLListeningThread.receive_of_large (by rw [h.event]; exact hlarge)] at hobject
      obtain ⟨rfl, -⟩ := Prod.mk.inj hobject
      exact h.congr rfl rfl
  | queue hinside hthread =>
      refine h.thread htype hthread (fun x hl => ?_) (by simp)
      cases hl
      cases hinside

/-! ### What the network cannot do

Two clients that differ in what the network sends them go through states that differ only in what
they store of it.
-/

/-- All but the contents of `m_DataStorage`. -/
def unseen (s : ClientLife) : ClientLife :=
  { s with data := { s.data with object := { s.data.object with dataStorage := [] } } }

end ClientLife

/-- All but what `recv` answers. -/
def ClientLifeStep.unseen : ClientLifeStep → ClientLifeStep
  | listen _ => listen .closed
  | start => start
  | stop => stop
  | owner => owner
  | loop => loop
  | startListen => startListen
  | queue l => queue l

namespace ClientLife

open XLClientThread (tOnEvent startEvent)

variable {s s' t : ClientLife} {l : ClientLifeStep} {e : XLThreadEvent}

theorem ownerStep_unseen (s : ClientLife) :
    s.unseen.ownerStep.map unseen = s.ownerStep.map unseen := by
  unfold ownerStep
  rw [show s.unseen.owner = s.owner from rfl]
  cases s.owner with
  | fresh | running | stopped | exiting => rfl
  | posting i =>
      dsimp only
      rw [show s.unseen.putReturned i = s.putReturned i from rfl]
      split <;> rfl
  | creating | destroying =>
      dsimp only
      rw [show s.unseen.thread = s.thread from rfl]
      by_cases hidle : s.thread.owner = .idle
      · rw [if_pos hidle, if_pos hidle]
        first
        | rfl
        | split <;> rfl
      · rw [if_neg hidle, if_neg hidle, Option.map_map, Option.map_map]
        rfl
  | taking | listenStopped =>
      dsimp only [unseen]
      rw [Option.map_map, Option.map_map]
      rfl
  | joining =>
      dsimp only
      rw [show s.unseen.data.pc = s.data.pc from rfl]
      split <;> rfl

theorem listenStep_unseen (h : Muted e s) (hlarge : (maxMessLength : Int) < e.writableSize)
    (r : RecvResult) : (s.unseen.listenStep .closed).map unseen = (s.listenStep r).map unseen := by
  unfold listenStep
  dsimp only
  rw [show s.unseen.data.pc = s.data.pc from rfl]
  cases s.data.pc with
  | off | ended | synced | connecting | testing | closing | leaving => rfl
  | listening i =>
      dsimp only
      rw [show s.unseen.putReturned i = s.putReturned i from rfl]
      split <;> rfl
  | started =>
      dsimp only [unseen]
      rw [Option.map_map, Option.map_map]
      rfl
  | receiving =>
      have hsmall : (maxMessLength : Int) < s.data.object.event.writableSize := by
        rw [h.event]
        exact hlarge
      rw [XLListeningThread.receive_of_large hsmall,
        XLListeningThread.receive_of_large (t := s.unseen.data.object) hsmall]
      by_cases hlistener : s.data.object.listener = true
      · rw [if_pos hlistener, if_pos (show s.unseen.data.object.listener = true from hlistener)]
        rfl
      · rw [if_neg hlistener, if_neg (show ¬ s.unseen.data.object.listener = true from hlistener)]
        rfl

theorem next_unseen (h : Muted e s) (hlarge : (maxMessLength : Int) < e.writableSize)
    (l : ClientLifeStep) : (s.unseen.next l.unseen).map unseen = (s.next l).map unseen := by
  cases l with
  | start =>
      dsimp only [ClientLifeStep.unseen, next]
      rw [show s.unseen.owner = s.owner from rfl]
      split
      · rw [Option.map_map, Option.map_map]
        rfl
      · rfl
  | stop =>
      dsimp only [ClientLifeStep.unseen, next]
      rw [show s.unseen.owner = s.owner from rfl, show s.unseen.thread = s.thread from rfl]
      split
      · split <;> rfl
      · rfl
  | owner => exact ownerStep_unseen s
  | loop =>
      dsimp only [ClientLifeStep.unseen, next]
      rw [show s.unseen.data.creating = s.data.creating from rfl,
        show s.unseen.startsListening = s.startsListening from rfl]
      split
      · rfl
      · rw [Option.map_map, Option.map_map]
        congr 1
        funext thread
        dsimp only [Function.comp, unseen]
        split
        · unfold DataListenThread.startThread DataListenThread.start
          dsimp only [XLListeningThread.setListener]
          split <;> rfl
        · rfl
  | startListen =>
      dsimp only [ClientLifeStep.unseen, next]
      unfold DataListenThread.createStep
      rw [show s.unseen.data.creating = s.data.creating from rfl]
      split <;> rfl
  | listen r => exact listenStep_unseen h hlarge r
  | queue ql =>
      dsimp only [ClientLifeStep.unseen, next, unseen]
      split
      · rw [Option.map_map, Option.map_map]
        rfl
      · rfl

theorem Muted.stale_next {uninitEvent : Vector UInt8 maxMessLength}
    (h : Muted (staleEvent uninitEvent) s) (hstep : s.next l = some s') :
    Muted (staleEvent uninitEvent) s' :=
  h.next (staleEvent_large uninitEvent) (by rw [staleEvent_iType]; decide) hstep

theorem next_alike {uninitEvent : Vector UInt8 maxMessLength} {m : ClientLifeStep}
    (hs : Muted (staleEvent uninitEvent) s) (ht : Muted (staleEvent uninitEvent) t)
    (hst : s.unseen = t.unseen) (hlm : l.unseen = m.unseen) :
    (s.next l).map unseen = (t.next m).map unseen := by
  have hlarge := staleEvent_large uninitEvent
  rw [← next_unseen hs hlarge, ← next_unseen ht hlarge, hst, hlm]

/--
Whatever the network sends, and whatever was in `m_DataStorage` before: two clients that take the
same steps differ in nothing but the contents of `m_DataStorage`, and `OnEvent` of the listener is
called with one and the same event, of type 0, and no other.
-/
theorem network_cannot_interfere (listener : Bool)
    (uninitEvent uninitStorage uninitStorage' : Vector UInt8 maxMessLength)
    {ls ms : List ClientLifeStep} (hsame : ls.map (·.unseen) = ms.map (·.unseen))
    (hrun : exec next (new listener uninitEvent uninitStorage) ls = some s) :
    (∃ t, exec next (new listener uninitEvent uninitStorage') ms = some t ∧
        t.unseen = s.unseen) ∧
      ∀ x ∈ s.client.forwarded, x = staleEvent uninitEvent :=
  ⟨exec_alike (s := new listener uninitEvent uninitStorage)
      (t := new listener uninitEvent uninitStorage')
      (fun _ _ _ hu hstep => hu.stale_next hstep) (fun _ _ _ _ hu hv => next_alike hu hv)
      muted_new muted_new rfl hsame hrun,
    (exec_invariant (fun _ _ _ hu hstep => hu.stale_next hstep) muted_new hrun).forwarded⟩

/-! ### What `Stop` waits for

`Stop` joins the event thread, and its loop ends by an `Exit` only.  Nothing in the client ever puts
one.
-/

/-- Where the event thread is while its owner is in `Start` or `Stop`. -/
def PhaseAt (owner : OwnerPc) (created : Bool) : ClientOwnerPc → Prop
  | .fresh => owner = .idle ∧ created = false
  | .creating => (owner = .idle → created = true) ∧
      (owner = .idle ∨ owner = .spawned ∨ owner = .handled ∨ owner = .given ∨ owner = .queued)
  | .posting _ | .running | .exiting | .taking | .joining | .listenStopped =>
      owner = .idle ∧ created = true
  | .destroying => (owner = .idle → created = false) ∧ owner ≠ .spawned ∧ owner ≠ .handled ∧
      owner ≠ .given ∧ owner ≠ .queued
  | .stopped => owner = .idle ∧ created = false

/-- The event thread is where the owner's `Start` and `Stop` have brought it. -/
def Phase (s : ClientLife) : Prop := PhaseAt s.thread.owner s.thread.created s.owner

/-- The loop and the queue leave the owner where it is. -/
theorem keeps_owner {u v : XLEventThread XLClientThread} {tl : EventThreadStep}
    (h : u.next tOnEvent tl = some v) (htl : tl = .loop ∨ ∃ ql, tl = .queue ql) :
    v.owner = u.owner ∧ v.created = u.created := by
  cases XLEventThread.moves_of_next h with
  | create | createTwice | destroy | destroyBare | destroyNone | spawned | handled | given | undo
  | queued | taking | joining | joined | stop | stopNone =>
      rcases htl with hl | ⟨ql, hl⟩ <;> cases hl
  | tested | ungated | taken | synced | enter | early | stopped | get | got | gotNone | exitEvent
  | dispatch | leave | queue => exact ⟨rfl, rfl⟩

theorem Phase.next (h : Phase s) (hm : Muted e s) (hstep : s.next l = some s') : Phase s' := by
  unfold Phase at *
  cases moves_of_next hstep with
  | start hc hthread =>
      rw [hc] at h
      cases XLEventThread.moves_of_next hthread with
      | create ho hcreated => exact ⟨by simp, by simp⟩
      | createTwice hcreated => cases h.2.symm.trans hcreated
  | stop hc | taking hc | joining hc | posted hc =>
      rw [hc] at h
      exact h
  | exiting hc =>
      rw [hc] at h
      dsimp only
      split <;> exact h
  | stopNone hc hcreated =>
      rw [hc] at h
      exact absurd h.2 hcreated
  | create hc hidle hthread =>
      rw [hc] at h
      have howned := hm.inv.owned
      unfold XLEventThread.Owned at howned
      show PhaseAt _ _ s.owner
      rw [hc]
      cases XLEventThread.moves_of_next hthread with
      | spawned | handled | given => exact ⟨by simp, by simp⟩
      | undo ho hq =>
          rw [ho] at howned
          rw [QueueRun.create_down (hm.inv.kept.down howned.2.2.1)] at hq
          cases hq
      | queued => exact ⟨fun _ => rfl, by simp⟩
      | taking ho | joining ho | joined ho => simp [ho, PhaseAt] at h
  | post hc hidle hcreated => exact ⟨hidle, hcreated⟩
  | postNone hc hidle hcreated =>
      rw [hc] at h
      exact absurd (h.1 hidle) hcreated
  | listenStopped hc hthread =>
      rw [hc] at h
      cases XLEventThread.moves_of_next hthread with
      | destroy | destroyBare => exact ⟨by simp, by simp⟩
      | destroyNone hcreated => cases h.2.symm.trans hcreated
  | destroying hc hidle hthread =>
      rw [hc] at h
      have howned := hm.inv.owned
      unfold XLEventThread.Owned at howned
      show PhaseAt _ _ s.owner
      rw [hc]
      cases XLEventThread.moves_of_next hthread with
      | spawned ho | handled ho | given ho | undo ho | queued ho => simp [ho, PhaseAt] at h
      | taking => exact ⟨by simp, by simp⟩
      | joining ho =>
          rw [ho] at howned
          obtain ⟨rfl, -⟩ := howned
          exact ⟨by simp, by simp⟩
      | joined => exact ⟨fun _ => rfl, by simp⟩
  | destroyed hc hidle =>
      rw [hc] at h
      exact ⟨hidle, h.1 hidle⟩
  | loop hthread =>
      obtain ⟨howner, hcreated⟩ := keeps_owner hthread (Or.inl rfl)
      rwa [howner, hcreated]
  | queue hinside hthread =>
      obtain ⟨howner, hcreated⟩ := keeps_owner hthread (Or.inr ⟨_, rfl⟩)
      rwa [howner, hcreated]
  | startListen | listen | receive | receiveNone => exact h

/-- A loop that has been entered goes on: there is no `Exit`. -/
theorem Muted.inLoop (h : Muted e s) (hentered : s.thread.entered = true) :
    s.thread.loop.inLoop = true := by
  rcases h.inv.logged.entered hentered with hin | ⟨hexit, -⟩
  · exact hin
  · cases h.exit.symm.trans hexit

/-- Then the event thread is not gone. -/
theorem Muted.alive (h : Muted e s) (hentered : s.thread.entered = true) :
    ¬ (s.thread.owner = .idle ∧ s.thread.created = false) := by
  rintro ⟨howner, hcreated⟩
  have howned := h.inv.owned
  unfold XLEventThread.Owned at howned
  rw [howner, hcreated] at howned
  have hgone : s.thread.loop.gone = true := howned.2
  rw [(s.thread.loop).not_gone (h.inLoop hentered)] at hgone
  cases hgone

/-- `mCreated` is found set once, since `Start` is called once. -/
theorem Muted.stays_entered (h : Muted e s) (hphase : Phase s) (hstep : s.next l = some s')
    (hentered : s.thread.entered = true) : s'.thread.entered = true := by
  have hthread {tl : EventThreadStep} {thread : XLEventThread XLClientThread}
      (hnext : s.thread.next tOnEvent tl = some thread) (htl : tl ≠ .create) :
      thread.entered = true := by
    cases XLEventThread.moves_of_next hnext with
    | create => exact absurd rfl htl
    | enter => rfl
    | createTwice | destroy | destroyBare | destroyNone | spawned | handled | given | undo | queued
    | taking | joining | joined | tested | ungated | taken | synced | early | stopped | get | got
    | gotNone | exitEvent | dispatch | leave | stop | stopNone | queue => exact hentered
  cases moves_of_next hstep with
  | start hc hnext =>
      rw [Phase, hc] at hphase
      exact absurd hphase (h.alive hentered)
  | create _ _ hnext | listenStopped _ hnext | destroying _ _ hnext | loop hnext
  | queue _ hnext => exact hthread hnext (by simp)
  | stop | stopNone | post | postNone | posted | exiting | taking | joining | destroyed
  | startListen | listen | receive | receiveNone => exact hentered

end ClientLife

/-! ### The listening thread

`m_DataListenTh` waits for `m_handle` before it enters its loop, and looks at `m_bExit` in every
turn.  Once its own `Stop` has returned it has ended.
-/

/-- The listening thread is not in its loop. -/
def ListenPc.outside : ListenPc → Bool
  | off | started | synced | leaving | ended => true
  | connecting | testing | receiving | listening _ | closing => false

/-- It is neither in `Recieve` nor in `OnListen`. -/
def ListenPc.quiet : ListenPc → Bool
  | receiving | listening _ => false
  | _ => true

/-- `Stop` has set `m_bExit`. -/
def ClientOwnerPc.stopping : ClientOwnerPc → Bool
  | exiting | taking | joining | listenStopped | destroying | stopped => true
  | _ => false

theorem ClientOwnerPc.stopping_of_past {pc : ClientOwnerPc} (h : pc.pastListening = true) :
    pc.stopping = true := by
  cases pc <;> first | rfl | cases h

theorem ListenPc.quiet_of_outside {pc : ListenPc} (h : pc.outside = true) : pc.quiet = true := by
  cases pc <;> first | rfl | cases h

namespace ClientLife

open XLClientThread (tOnEvent startEvent)

variable {s s' t : ClientLife} {l : ClientLifeStep} {e : XLThreadEvent}

/-- The listening thread waits for `m_handle`, and `Stop` waits for the listening thread. -/
structure Gated (s : ClientLife) : Prop where
  /-- It enters its loop only after it has found `m_handle` set. -/
  outside : s.data.handle = false → s.data.pc.outside = true
  exit : s.owner.stopping = true → s.data.object.bExit = true
  quiet : s.owner.pastListening = true → s.data.pc.quiet = true

theorem gated_new {listener : Bool} {uninitEvent uninitStorage : Vector UInt8 maxMessLength} :
    Gated (new listener uninitEvent uninitStorage) :=
  ⟨fun _ => rfl, nofun, nofun⟩

/-- The owner goes on and does nothing to the listening thread. -/
theorem Gated.owner (h : Gated s) (hdata : s'.data = s.data)
    (hstopping : s'.owner.stopping = true → s.owner.stopping = true)
    (hpast : s'.owner.pastListening = true → s.owner.pastListening = true) : Gated s' where
  outside := hdata ▸ h.outside
  exit := fun hs => hdata ▸ h.exit (hstopping hs)
  quiet := fun hs => hdata ▸ h.quiet (hpast hs)

theorem Gated.startThread (h : Gated s) (thread : XLEventThread XLClientThread) :
    Gated { s with thread := thread, data := s.data.startThread } := by
  rcases h with ⟨houtside, hexit, hquiet⟩
  unfold DataListenThread.startThread DataListenThread.start
  dsimp only
  split
  · exact ⟨houtside, hexit, hquiet⟩
  · exact ⟨fun _ => rfl, hexit, fun _ => rfl⟩

theorem Gated.next (h : Gated s) (hphase : Phase s) (hstep : s.next l = some s') : Gated s' := by
  cases moves_of_next hstep with
  | start => exact h.owner rfl nofun nofun
  | stop => exact ⟨h.outside, fun _ => rfl, nofun⟩
  | stopNone hc hcreated =>
      rw [Phase, hc] at hphase
      exact absurd hphase.2 hcreated
  | create | queue => exact h.owner rfl id id
  | post | postNone | posted => exact h.owner rfl nofun nofun
  | exiting hc =>
      have hexit := h.exit (by rw [hc]; rfl)
      refine ⟨h.outside, fun _ => hexit, fun hpast => ?_⟩
      cases hhandle : s.data.handle with
      | true => rw [hhandle] at hpast; cases hpast
      | false => exact ListenPc.quiet_of_outside (h.outside hhandle)
  | taking hc => exact ⟨h.outside, fun _ => h.exit (by rw [hc]; rfl), nofun⟩
  | joining hc hended =>
      refine ⟨fun _ => ?_, fun _ => h.exit (by rw [hc]; rfl), fun _ => ?_⟩
      · rw [hended]
        rfl
      · rw [hended]
        rfl
  | listenStopped hc | destroying hc | destroyed hc =>
      exact h.owner rfl (fun _ => by rw [hc]; rfl) fun _ => by rw [hc]; rfl
  | loop hthread =>
      split
      · exact h.startThread _
      · exact h.owner rfl id id
  | startListen hdata =>
      unfold DataListenThread.createStep at hdata
      split at hdata
      · cases hdata
      · cases hdata; exact ⟨nofun, h.exit, h.quiet⟩
      · cases hdata; exact ⟨h.outside, h.exit, h.quiet⟩
  | @listen r sync1 sync2 pc hpc =>
      refine ⟨fun hhandle => ?_, h.exit, fun hpast => ?_⟩
      · have houtside := h.outside hhandle
        rw [show s.data.handle = false from hhandle] at hpc
        cases hold : s.data.pc <;> rw [hold] at hpc houtside <;> cases hpc <;>
          first | rfl | cases houtside
      · rw [h.exit (ClientOwnerPc.stopping_of_past hpast)] at hpc
        cases hold : s.data.pc <;> rw [hold] at hpc <;> cases hpc <;>
          first | rfl | (show ListenPc.quiet (if _ then _ else _) = true; split <;> rfl)
  | receive hpc hobject | receiveNone hpc hobject =>
      have hin : s.data.pc.outside ≠ true := by rw [hpc]; decide
      have hnot : s.data.pc.quiet ≠ true := by rw [hpc]; decide
      have hexit := congrArg (fun q => q.1.bExit) hobject
      dsimp only at hexit
      rw [XLListeningThread.receive_bExit] at hexit
      exact ⟨fun hhandle => absurd (h.outside hhandle) hin,
        fun hstopping => hexit.symm.trans (h.exit hstopping),
        fun hpast => absurd (h.quiet hpast) hnot⟩

/-- Once `m_DataListenTh.Stop` has returned there is no call of `OnListen` any more. -/
theorem Gated.listened (h : Gated s) (hpast : s.owner.pastListening = true)
    (hstep : s.next l = some s') :
    s'.owner.pastListening = true ∧ s'.listened = s.listened := by
  cases moves_of_next hstep with
  | start hc | stop hc | stopNone hc | create hc | post hc | postNone hc | posted hc | exiting hc
  | taking hc | joining hc => rw [hc] at hpast; cases hpast
  | listenStopped | destroyed => exact ⟨rfl, rfl⟩
  | destroying | loop | startListen | listen | receiveNone | queue => exact ⟨hpast, rfl⟩
  | receive hpc =>
      have hquiet := h.quiet hpast
      rw [hpc] at hquiet
      cases hquiet

/-! ### Every run -/

/-- What every step keeps. -/
structure Sound (uninitEvent : Vector UInt8 maxMessLength) (s : ClientLife) : Prop where
  muted : Muted (staleEvent uninitEvent) s
  phase : Phase s
  gated : Gated s

theorem sound_new {listener : Bool} {uninitEvent uninitStorage : Vector UInt8 maxMessLength} :
    Sound uninitEvent (new listener uninitEvent uninitStorage) :=
  ⟨muted_new, ⟨rfl, rfl⟩, gated_new⟩

theorem Sound.next {uninitEvent : Vector UInt8 maxMessLength} (h : Sound uninitEvent s)
    (hstep : s.next l = some s') : Sound uninitEvent s' :=
  ⟨h.muted.stale_next hstep, h.phase.next h.muted hstep, h.gated.next h.phase hstep⟩

/-! ### A client that hears something and is stopped -/

/-- The steps of `Put` call `i`. -/
def putSteps (i : Nat) : List ClientLifeStep :=
  [.queue (.putLock i), .queue (.putCopy i), .queue (.putPush i), .queue (.putUnlock i),
    .queue (.putGive i)]

/-- `Start`, and the loop is entered. -/
def startSteps : List ClientLifeStep :=
  [.start, .owner, .owner, .owner, .owner, .loop, .loop, .loop, .loop, .owner] ++ putSteps 0 ++
    [.owner]

/-- `START_THREAD` is handled, and `recv` answers once. -/
def hearSteps (r : RecvResult) : List ClientLifeStep :=
  [.loop, .queue (.getTake 0), .queue (.getLock 0), .queue (.getPop 0), .queue (.getUnlock 0),
    .loop, .loop, .startListen, .startListen, .listen r, .listen r, .listen r, .listen r,
    .listen r] ++ putSteps 1

/-- `Stop`, as far as it gets. -/
def stopSteps : List ClientLifeStep :=
  [.stop, .owner, .owner] ++ List.replicate 4 (.listen .closed) ++ [.owner, .owner, .owner]

theorem network_cannot_interfere_hears :
    ∃ s, exec next (new true (Vector.replicate 50 0) (Vector.replicate 50 0))
        (startSteps ++ hearSteps (.bytes [17, 0, 0, 0])) = some s ∧
      s.listened = [1] ∧
      ∃ t, exec next (new true (Vector.replicate 50 0) (Vector.replicate 50 1))
          (startSteps ++ hearSteps .closed) = some t ∧ t.unseen = s.unseen := by
  obtain ⟨s, hs, hlistened⟩ := (Option.any_eq_true _ _).mp
    (show (exec next (new true (Vector.replicate 50 0) (Vector.replicate 50 0))
      (startSteps ++ hearSteps (.bytes [17, 0, 0, 0]))).any
        (fun s => decide (s.listened = [1])) = true by decide)
  have hsame : (startSteps ++ hearSteps (.bytes [17, 0, 0, 0])).map (·.unseen) =
      (startSteps ++ hearSteps .closed).map (·.unseen) := rfl
  exact ⟨s, hs, of_decide_eq_true hlistened,
    (network_cannot_interfere true _ _ (Vector.replicate 50 1) hsame hs).1⟩

/--
A client in whose life the loop has been entered: however it goes on and whatever the network
does, `Stop` does not return.
-/
theorem stop_never_returns (listener : Bool)
    (uninitEvent uninitStorage : Vector UInt8 maxMessLength) {ls ms : List ClientLifeStep}
    (hrun : exec next (new listener uninitEvent uninitStorage) ls = some s)
    (hentered : s.thread.entered = true) (hmore : exec next s ms = some t) :
    t.owner ≠ .stopped := by
  have hs := exec_invariant (I := Sound uninitEvent) (fun _ _ _ hu hstep => hu.next hstep)
    sound_new hrun
  obtain ⟨ht, hstays⟩ := exec_invariant
    (I := fun u => Sound uninitEvent u ∧ u.thread.entered = true)
    (fun _ _ _ hu hstep => ⟨hu.1.next hstep, hu.1.muted.stays_entered hu.1.phase hstep hu.2⟩)
    ⟨hs, hentered⟩ hmore
  intro hstopped
  have hphase := ht.phase
  rw [Phase, hstopped] at hphase
  exact ht.muted.alive hstays hphase

/--
Once `m_DataListenTh.Stop` has returned, the listening thread does not call `OnListen` again, not
even one that is started later because `START_THREAD` had still to be handled.
-/
theorem stop_silences (listener : Bool) (uninitEvent uninitStorage : Vector UInt8 maxMessLength)
    {ls ms : List ClientLifeStep}
    (hrun : exec next (new listener uninitEvent uninitStorage) ls = some s)
    (hpast : s.owner.pastListening = true) (hmore : exec next s ms = some t) :
    t.listened = s.listened ∧ t.data.pc.quiet = true := by
  have hs := exec_invariant (I := Sound uninitEvent) (fun _ _ _ hu hstep => hu.next hstep)
    sound_new hrun
  obtain ⟨ht, hstays, hsame⟩ := exec_invariant
    (I := fun u => Sound uninitEvent u ∧ u.owner.pastListening = true ∧ u.listened = s.listened)
    (fun _ _ _ hu hstep => by
      obtain ⟨hstays, hsame⟩ := hu.1.gated.listened hu.2.1 hstep
      exact ⟨hu.1.next hstep, hstays, hsame.trans hu.2.2⟩)
    ⟨hs, hpast, rfl⟩ hmore
  exact ⟨hsame, ht.gated.quiet hstays⟩

/-- `Stop` waits for the event thread, whose loop has been entered. -/
theorem exec_stopped :
    ∃ s t, exec next (new true (Vector.replicate 50 0) (Vector.replicate 50 0))
        (startSteps ++ hearSteps .closed) = some s ∧ s.thread.entered = true ∧
      exec next s stopSteps = some t ∧ t.owner = .destroying ∧ t.thread.owner = .joining false := by
  obtain ⟨s, hs, hcheck⟩ := (Option.any_eq_true _ _).mp
    (show (exec next (new true (Vector.replicate 50 0) (Vector.replicate 50 0))
      (startSteps ++ hearSteps .closed)).any (fun s => s.thread.entered &&
        (exec next s stopSteps).any fun t =>
          decide (t.owner = .destroying) && decide (t.thread.owner = .joining false)) = true
      by decide)
  rw [Bool.and_eq_true, Option.any_eq_true] at hcheck
  obtain ⟨hentered, t, ht, hend⟩ := hcheck
  rw [Bool.and_eq_true, decide_eq_true_eq, decide_eq_true_eq] at hend
  exact ⟨s, t, hs, hentered, ht, hend⟩

theorem stop_never_returns_hears :
    ∃ t : ClientLife, t.owner = .destroying ∧ t.thread.owner = .joining false ∧
      ∀ ms u, exec next t ms = some u → u.owner ≠ .stopped := by
  obtain ⟨s, t, hs, hentered, ht, howner, hjoining⟩ := exec_stopped
  exact ⟨t, howner, hjoining, fun ms u hu =>
    stop_never_returns true _ _ hs hentered (exec_append_some ht hu)⟩

theorem stop_silences_hears :
    ∃ t : ClientLife, t.listened = [1] ∧ t.owner.pastListening = true ∧
      ∀ ms u, exec next t ms = some u → u.listened = [1] := by
  obtain ⟨t, ht, hcheck⟩ := (Option.any_eq_true _ _).mp
    (show (exec next (new true (Vector.replicate 50 0) (Vector.replicate 50 0))
      (startSteps ++ hearSteps .closed ++ stopSteps)).any (fun t =>
        decide (t.listened = [1]) && t.owner.pastListening) = true by decide)
  rw [Bool.and_eq_true, decide_eq_true_eq] at hcheck
  exact ⟨t, hcheck.1, hcheck.2, fun ms u hu =>
    (stop_silences true _ _ ht hcheck.2 hu).1.trans hcheck.1⟩

end ClientLife

end ServClient
