/-
What a handler says to its client and to its listener, over whole runs.

Each event has a reply of its own, and what has been sent is the replies to the events that have
been handled, in the order in which the queue took them.  The argument could fail while `t_OnEvent`
waits for its own `Put`: the event is counted as handled by then and nothing has been said about it.
So what is counted is `finished`, and such an event is the last one, still in `m_EventPlace`.

The reply to a `SERVER_CLIENT_START` is empty, with no configuration in it: `Reset` comes before
`WriteToSend`, and leaves it no room.
-/
import ServClient.Proofs.HandlerRun

namespace ServClient

open Runs

namespace XLServerClientHandler

/-! ### One event

`t_OnEvent` calls `Put` in the middle for some events.  What it has said before and what it says
after add up to the one reply and the one report of the event.
-/

/-- What is sent for one event. -/
def reply (identifier : Int) (e : XLThreadEvent) : List SocketSend :=
  if e.iType = msgOnConnect ∨ e.iType = msgOnDisconnect ∨ e.iType = msgOnAlive ∨
      e.iType = msgOnRecieve ∨ e.iType = msgOnSend then
    [⟨identifier, some (Bytes.ofInt 4 e.iType), 4⟩]
  else if e.iType = serverClientStart then [⟨identifier, none, 0⟩]
  else []

/-- What a listener hears of it. -/
def report (recieveListener : Bool) (e : XLThreadEvent) : List RecieveReport :=
  if recieveListener ∧ e.iType = serverDataRecieved then [⟨e.pData, e.iLength⟩] else []

variable {h h' : XLServerClientHandler} {e : XLThreadEvent}

/-- `h'` has said to the client and the listener of `h` what there is to say about `e`. -/
structure Says (h : XLServerClientHandler) (e : XLThreadEvent) (h' : XLServerClientHandler) :
    Prop where
  client : h'.clientIdentifier = h.clientIdentifier
  listener : h'.recieveListener = h.recieveListener
  sends : h'.sends = h.sends ++ reply h.clientIdentifier e
  reports : h'.reports = h.reports ++ report h.recieveListener e

theorem sendType_sends (h : XLServerClientHandler) (type : Int) :
    (h.sendType type).sends =
      h.sends ++ [⟨h.clientIdentifier, some (Bytes.ofInt 4 type), 4⟩] := by
  have hlength : (Bytes.ofInt 4 type).take 4 = Bytes.ofInt 4 type :=
    List.take_of_length_le (Bytes.length_ofInt 4 type).le
  simp [sendType, send, XLThreadEvent.setData, XLThreadEvent.reset, hlength]

/-- With no buffer there is nothing to write to. -/
theorem writeConfig_of_none (h : XLServerClientHandler) (hnull : h.eventPlace.pData = none) :
    h.writeConfig = h := by
  obtain ⟨_, ⟨_, _, _⟩, _, _, _, _, _, _⟩ := h
  cases hnull
  unfold writeConfig
  split <;> rfl

/-- An event for which there is no `Put` is done with in one go. -/
theorem told_of_front (hfront : (h.tOnEventFront e).2 = none) :
    Says h e (h.tOnEventFront e).1 := by
  unfold tOnEventFront at hfront ⊢
  dsimp only at hfront ⊢
  split
  · rename_i htype
    refine ⟨rfl, rfl, ?_, ?_⟩
    · rw [sendType_sends]
      simp only [reply]
      rw [if_pos (by tauto)]
    · have hdata : e.iType ≠ serverDataRecieved := by
        intro hdata
        rw [hdata] at htype
        exact absurd htype (by decide)
      simp [report, hdata, sendType, send]
  · rename_i htype
    rw [if_neg htype] at hfront
    split at hfront
    · cases hfront
    rename_i hsend
    split at hfront
    · cases hfront
    rename_i hdata
    have hreport : report h.recieveListener e = [] := by simp [report, hdata]
    have hnone : ¬ (e.iType = msgOnConnect ∨ e.iType = msgOnDisconnect ∨ e.iType = msgOnAlive ∨
        e.iType = msgOnRecieve ∨ e.iType = msgOnSend) := by tauto
    rw [if_neg hsend, if_neg hdata]
    split
    · rename_i hstart
      rw [writeConfig_of_none _ rfl]
      refine ⟨rfl, rfl, ?_, by simp [send, hreport]⟩
      simp only [reply, if_neg hnone, if_pos hstart]
      rfl
    · rename_i hstart
      exact ⟨rfl, rfl, by simp [reply, hnone, hstart], by simp [hreport]⟩

/-- An event for which there is one waits in `m_EventPlace`. -/
theorem waits_of_front {p : XLThreadEvent} (hfront : (h.tOnEventFront e).2 = some p) :
    (h.tOnEventFront e).1 = { h with eventPlace := e } ∧
      (e.iType = msgOnSend ∨ e.iType = serverDataRecieved) := by
  unfold tOnEventFront at hfront ⊢
  dsimp only at hfront ⊢
  split at hfront
  · cases hfront
  rename_i htype
  rw [if_neg htype]
  split at hfront
  · rename_i hsend
    exact ⟨by rw [if_pos hsend], Or.inl hsend⟩
  rename_i hsend
  rw [if_neg hsend]
  split at hfront
  · rename_i hdata
    exact ⟨by rw [if_pos hdata], Or.inr hdata⟩
  · split at hfront <;> cases hfront

/-- What is left of it after its `Put`. -/
theorem told_of_back (htype : h.eventPlace.iType = msgOnSend ∨
    h.eventPlace.iType = serverDataRecieved) :
    Says h h.eventPlace (h.tOnEventBack h.eventPlace.iType) := by
  unfold tOnEventBack
  rcases htype with hsend | hdata
  · rw [if_pos hsend]
    refine ⟨rfl, rfl, ?_, ?_⟩
    · rw [sendType_sends]
      simp [reply, hsend]
    · have hdata : msgOnSend ≠ serverDataRecieved := by decide
      simp [report, hsend, hdata, sendType, send]
  · have hsend : ¬ serverDataRecieved = msgOnSend := by decide
    have hnone : reply h.clientIdentifier h.eventPlace = [] := by
      simp only [reply, hdata]
      rw [if_neg (by decide), if_neg (by decide)]
    rw [hdata, if_neg hsend]
    unfold onData
    split
    · rename_i hlistener
      exact ⟨rfl, rfl, by simp [hnone], by simp [report, hdata, hlistener]⟩
    · rename_i hlistener
      exact ⟨rfl, rfl, by simp [hnone], by simp [report, hlistener]⟩

end XLServerClientHandler

/-! ### Whole runs -/

namespace HandlerRun

open XLServerClientHandler

variable {r r' : HandlerRun} {l : HandlerRunStep} {identifier : Int} {recieveListener : Bool}

/-- The events that `t_OnEvent` has returned from. -/
def finished (r : HandlerRun) : List XLThreadEvent :=
  match r.handling with
  | .idle => r.thread.dispatched
  | .posting _ _ => r.thread.dispatched.dropLast

theorem finished_idle (h : r.handling = .idle) : r.finished = r.thread.dispatched := by
  simp only [finished, h]

/-- The event that `t_OnEvent` is in is the last one. -/
structure Waiting (r : HandlerRun) (type : Int) : Prop where
  event : r.handler.eventPlace.iType = type
  kind : type = msgOnSend ∨ type = serverDataRecieved
  last : r.finished ++ [r.handler.eventPlace] = r.thread.dispatched

/-- What has been said is what there is to say about the finished events. -/
structure Replied (identifier : Int) (recieveListener : Bool) (r : HandlerRun) : Prop where
  client : r.handler.clientIdentifier = identifier
  listener : r.handler.recieveListener = recieveListener
  sends : r.handler.sends = r.finished.flatMap (reply identifier)
  reports : r.handler.reports = r.finished.flatMap (report recieveListener)
  waiting : ∀ i type, r.handling = .posting i type → Waiting r type

theorem replied_new (identifier : Int) (config : SocketConfig)
    (configListener recieveListener : Bool) :
    Replied identifier recieveListener (new identifier config configListener recieveListener) :=
  ⟨rfl, rfl, rfl, rfl, fun _ _ hi => by cases hi⟩

/-- Where nothing is said, handled or waited for. -/
theorem Replied.quiet (h : Replied identifier recieveListener r)
    (hclient : r'.handler.clientIdentifier = r.handler.clientIdentifier)
    (hlistener : r'.handler.recieveListener = r.handler.recieveListener)
    (hsends : r'.handler.sends = r.handler.sends)
    (hreports : r'.handler.reports = r.handler.reports)
    (hplace : r'.handler.eventPlace = r.handler.eventPlace)
    (hdispatched : r'.thread.dispatched = r.thread.dispatched)
    (hhandling : r'.handling = r.handling) : Replied identifier recieveListener r' := by
  have hfinished : r'.finished = r.finished := by simp only [finished, hhandling, hdispatched]
  refine ⟨hclient.trans h.client, hlistener.trans h.listener, ?_, ?_, fun i type hi => ?_⟩
  · rw [hsends, hfinished, h.sends]
  · rw [hreports, hfinished, h.reports]
  · obtain ⟨hevent, hkind, hlast⟩ := h.waiting i type (hhandling ▸ hi)
    exact ⟨hplace ▸ hevent, hkind, by rw [hfinished, hplace, hlast, hdispatched]⟩

/-- The event thread goes on, and calls no `t_OnEvent`. -/
theorem Replied.thread (h : Replied identifier recieveListener r)
    {thread : XLEventThread XLServerClientHandler}
    (hself : thread.self = r.thread.self) (hdispatched : thread.dispatched = r.thread.dispatched)
    (start : HandlerStartPc) :
    Replied identifier recieveListener { r with thread := thread, start := start } :=
  h.quiet (congrArg _ hself) (congrArg _ hself) (congrArg _ hself) (congrArg _ hself)
    (congrArg _ hself) hdispatched rfl

/-- One more event is finished. -/
theorem Replied.told (h : Replied identifier recieveListener r) {e : XLThreadEvent}
    (htold : Says r.handler e r'.handler) (hhandling : r'.handling = .idle)
    (hdispatched : r'.thread.dispatched = r.finished ++ [e]) :
    Replied identifier recieveListener r' := by
  have hfinished : r'.finished = r.finished ++ [e] := (finished_idle hhandling).trans hdispatched
  refine ⟨htold.client.trans h.client, htold.listener.trans h.listener, ?_, ?_,
    fun i type hi => ?_⟩
  · rw [htold.sends, h.sends, h.client, hfinished]
    simp
  · rw [htold.reports, h.reports, h.listener, hfinished]
    simp
  · rw [hhandling] at hi
    cases hi

theorem Replied.next (h : Replied identifier recieveListener r) (hstep : r.next l = some r') :
    Replied identifier recieveListener r' := by
  cases moves_of_next hstep with
  | start hs hthread =>
      rcases XLEventThread.dispatch_or_quiet hthread with ⟨hself, hsame⟩ | ⟨hl, -⟩
      · exact h.thread hself hsame _
      · cases hl
  | create hs hthread =>
      rcases XLEventThread.dispatch_or_quiet hthread with ⟨hself, hsame⟩ | ⟨hl, -⟩
      · exact h.thread hself hsame _
      · cases hl
  | startRest hs howner =>
      have hmake : ∀ x : XLServerClientHandler,
          x.makeSocket.clientIdentifier = x.clientIdentifier ∧
          x.makeSocket.recieveListener = x.recieveListener ∧ x.makeSocket.sends = x.sends ∧
          x.makeSocket.reports = x.reports ∧ x.makeSocket.eventPlace = x.eventPlace := fun x => by
        unfold makeSocket
        split <;> exact ⟨rfl, rfl, rfl, rfl, rfl⟩
      obtain ⟨hclient, hlistener, hsends, hreports, hplace⟩ := hmake r.handler
      exact h.quiet hclient hlistener hsends hreports hplace rfl rfl
  | post hm => exact h.quiet rfl rfl rfl rfl rfl rfl rfl
  | @loop thread hidle hposts hthread =>
      rcases XLEventThread.dispatch_or_quiet hthread with ⟨hself, hsame⟩ | ⟨-, hl, he, rfl⟩
      · exact h.thread hself hsame _
      · have hfront : (r.handler.tOnEventFront r.thread.event).2 = none := by
          rwa [posts, if_pos ⟨hl, he⟩] at hposts
        refine h.told (told_of_front hfront) hidle ?_
        rw [finished_idle hidle]
  | @handle e hidle hl he hposts =>
      obtain ⟨hfront, hkind⟩ := waits_of_front hposts
      have hhandler : (r.dispatched.put e).handler =
          { r.handler with eventPlace := r.thread.event } := hfront
      have hfinished : finished { r.dispatched.put e with
          handling := .posting r.thread.queue.puts.length r.thread.event.iType } = r.finished := by
        rw [finished_idle hidle]
        exact List.dropLast_concat
      refine ⟨?_, ?_, ?_, ?_, fun i type hi => ?_⟩
      · exact (congrArg clientIdentifier hhandler).trans h.client
      · exact (congrArg XLServerClientHandler.recieveListener hhandler).trans h.listener
      · rw [hfinished]
        exact (congrArg XLServerClientHandler.sends hhandler).trans h.sends
      · rw [hfinished]
        exact (congrArg XLServerClientHandler.reports hhandler).trans h.reports
      · cases hi
        have hplace : (r.dispatched.put e).handler.eventPlace = r.thread.event :=
          congrArg eventPlace hhandler
        refine ⟨congrArg XLThreadEvent.iType hplace, hkind, ?_⟩
        rw [hfinished, finished_idle hidle]
        exact congrArg (r.thread.dispatched ++ [·]) hplace
  | @posted i type hi hreturned =>
      obtain ⟨hevent, hkind, hlast⟩ := h.waiting i type hi
      subst hevent
      exact h.told (told_of_back hkind) rfl hlast.symm
  | queue hinside hq => exact h.quiet rfl rfl rfl rfl rfl rfl rfl

/-! ### What the client and the listener are told -/

/-- The replies differ by their bytes. -/
theorem reply_not_disconnect {e : XLThreadEvent} (he : e.iType ≠ msgOnDisconnect) {s : SocketSend}
    (hs : s ∈ reply identifier e) : s.msg ≠ some (Bytes.ofInt 4 msgOnDisconnect) := by
  unfold reply at hs
  split at hs
  · rename_i htype
    cases List.mem_singleton.mp hs
    intro heq
    have hbytes := Option.some.inj heq
    rcases htype with h | h | h | h | h
    · exact absurd (h ▸ hbytes) (by decide)
    · exact he h
    · exact absurd (h ▸ hbytes) (by decide)
    · exact absurd (h ▸ hbytes) (by decide)
    · exact absurd (h ▸ hbytes) (by decide)
  · split at hs
    · cases List.mem_singleton.mp hs
      exact nofun
    · cases hs

theorem finished_dispatched (r : HandlerRun) : r.finished <+: r.thread.dispatched := by
  unfold finished
  split
  · exact List.prefix_rfl
  · exact List.dropLast_prefix _

variable {config : SocketConfig} {configListener : Bool} {ls : List HandlerRunStep}

/--
In every state of every run: the client was sent the replies to the events that `t_OnEvent` has
returned from, and its listener was told of their data, in the order in which the queue took them
and with none left out; and the client was never sent the reply to an `ON_DISCONNECT`.
-/
theorem told_in_order
    (hrun : exec next (new identifier config configListener recieveListener) ls = some r) :
    r.handler.sends = r.finished.flatMap (reply identifier) ∧
      r.handler.reports = r.finished.flatMap (report recieveListener) ∧
      r.finished <+: r.thread.accepted ∧
      ∀ s ∈ r.handler.sends, s.msg ≠ some (Bytes.ofInt 4 msgOnDisconnect) := by
  have hkept : Kept r := exec_invariant (fun _ _ _ hu hstep => hu.next hstep) (kept_new ..) hrun
  have hreplied : Replied identifier recieveListener r :=
    exec_invariant (fun _ _ _ hu hstep => hu.next hstep) (replied_new ..) hrun
  refine ⟨hreplied.sends, hreplied.reports,
    r.finished_dispatched.trans (dispatched_inOrder hkept.inv), fun s hs => ?_⟩
  rw [hreplied.sends] at hs
  obtain ⟨e, he, hs⟩ := List.mem_flatMap.mp hs
  have hdispatched := hkept.inv.logged.dispatched e (r.finished_dispatched.subset he)
  exact reply_not_disconnect (msgOnDisconnect_eq ▸ hdispatched) hs

/-- The run of `dataRun`, up to where the loop has answered the data. -/
theorem told_in_order_data :
    ∃ r, exec next (new 5 SocketConfig.new false true) (dataRun ++ [.posted]) = some r ∧
      r.handler.sends = [⟨5, none, 0⟩] ∧ r.handler.reports = [⟨some [104, 105], 2⟩] ∧
      r.finished.map XLThreadEvent.iType = [serverClientStart, serverDataRecieved] ∧
      r.handler.reports = r.finished.flatMap (report true) := by
  obtain ⟨r, hr, hrest⟩ := (Option.any_eq_true _ _).mp
    (show (exec next (new 5 SocketConfig.new false true) (dataRun ++ [.posted])).any
      (fun r => decide (r.handler.sends = [⟨5, none, 0⟩] ∧
        r.handler.reports = [⟨some [104, 105], 2⟩] ∧
        r.finished.map XLThreadEvent.iType = [serverClientStart, serverDataRecieved])) = true by
      decide +kernel)
  obtain ⟨hsends, hreports, htypes⟩ := of_decide_eq_true hrest
  exact ⟨r, hr, hsends, hreports, htypes, (told_in_order hr).2.1⟩

end HandlerRun

end ServClient
