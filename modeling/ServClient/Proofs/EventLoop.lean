/-
What goes in and out of an event thread, for the program it is part of.

The program steps the thread through `next`.  Such a step calls the handler with the event
in hand, or leaves the object alone; unless it is a new call of `Put` it brings no event in;
and `mExit` is set by an `Exit` in hand and by nothing else.  So the events handled are the
first of those pushed, and each can be traced to the `Put` call that brought it.
-/
import ServClient.Proofs.EventThread

namespace ServClient.XLEventThread

open Runs

variable {σ : Type} {tOnEvent : σ → XLThreadEvent → σ} {s s' : XLEventThread σ}
  {l : EventThreadStep}

/-- What the invariant says is not about the object. -/
theorem Inv.setSelf (h : Inv s) (self : σ) : Inv { s with self := self } where
  kept := h.kept
  owned := h.owned
  getting := ⟨h.getting.others, h.getting.own⟩
  logged := ⟨h.logged.popped, h.logged.dispatched, h.logged.exit, h.logged.entered⟩

/-! ### What comes out -/

/-- A step calls `t_OnEvent`, or leaves the object and the calls so far alone. -/
theorem dispatch_or_quiet (h : s.next tOnEvent l = some s') :
    (s'.self = s.self ∧ s'.dispatched = s.dispatched) ∨
      l = .loop ∧ s.loop = .handling ∧ s.event.iType ≠ eventThreadEventTypeExit ∧
        s' = { s with
          self := tOnEvent s.self s.event
          loop := .testing
          dispatched := s.dispatched ++ [s.event] } := by
  cases moves_of_next h with
  | dispatch hl he => exact Or.inr ⟨rfl, hl, he, rfl⟩
  | create | createTwice | destroy | destroyBare | destroyNone | spawned | handled | given | undo
  | queued | taking | joining | joined | tested | ungated | taken | synced | enter | early | stopped
  | get | got | gotNone | exitEvent | leave | stop | stopNone | queue => exact Or.inl ⟨rfl, rfl⟩

/-- The step that calls `t_OnEvent`. -/
theorem next_dispatch (hl : s.loop = .handling)
    (he : s.event.iType ≠ eventThreadEventTypeExit) :
    s.next tOnEvent .loop = some { s with
      self := tOnEvent s.self s.event
      loop := .testing
      dispatched := s.dispatched ++ [s.event] } := by
  simp only [next, loopStep, hl, onEvent, if_neg he]

/-- `mExit` is set by an `Exit` in hand and by nothing else. -/
theorem exit_iff (hs : Inv s) (h : s.next tOnEvent l = some s') :
    s'.exit = true ↔ s.exit = true ∨
      l = .loop ∧ s.loop = .handling ∧ s.event.iType = eventThreadEventTypeExit := by
  cases moves_of_next h with
  | gotNone hl hj =>
      obtain ⟨g, hown, hne⟩ := hs.getting.own _ hl
      cases hown.symm.trans hj
      exact absurd rfl hne
  | exitEvent hl he => exact ⟨fun _ => Or.inr ⟨rfl, hl, he⟩, fun _ => rfl⟩
  | dispatch hl he => exact ⟨Or.inl, fun h => h.resolve_right fun hexit => he hexit.2.2⟩
  | tested hl | ungated hl | taken hl | synced hl | enter hl | early hl | stopped hl | get hl
  | got hl | leave hl =>
      refine ⟨Or.inl, fun h => h.resolve_right fun hexit => ?_⟩
      rw [hl] at hexit
      cases hexit.2.1
  | create | createTwice | destroy | destroyBare | destroyNone | spawned | handled | given | undo
  | queued | taking | joining | joined | stop | stopNone | queue =>
      exact ⟨Or.inl, fun h => h.resolve_right fun hexit => by cases hexit.1⟩

/-! ### What goes in

New calls of `Put` come from outside.  A step that is not one of those can push what is already
under way and no more.
-/

/-- No call of `Put` begins, and what has been pushed stays. -/
structure Flows (s s' : XLEventThread σ) : Prop where
  puts : ∀ (i : Nat) (c' : PutCall XLThreadEvent), s'.queue.puts[i]? = some c' →
    ∃ c, s.queue.puts[i]? = some c ∧ c'.event = c.event
  putsLength : s'.queue.puts.length = s.queue.puts.length
  pushed : s.queue.pushed <+: s'.queue.pushed

/-- So it is with every step but a new call of `Put`. -/
theorem flows (hs : Inv s) (h : s.next tOnEvent l = some s')
    (hput : ∀ e, l ≠ .queue (.put e)) (hstop : l ≠ .stopMainLoop) : Flows s s' := by
  cases moves_of_next h with
  | stop | stopNone => exact absurd rfl hstop
  | queue hl hq =>
      rename_i ql q
      by_cases hinside : ql.inside = true
      · rcases hs.kept.phase with ⟨hlive, -⟩ | hdown
        · have hcontinues := (QueueRun.moves_of_next hlive hq).continues hs.kept.exclusive hinside
          refine ⟨fun i c' hi => ?_, hcontinues.putsLength, ?_⟩
          · obtain ⟨c, hc, hevent, -⟩ := hcontinues.puts i c' hi
            exact ⟨c, hc, hevent⟩
          · rcases hcontinues.pushed with hsame | ⟨i, c, -, -, hmore⟩
            · exact hsame ▸ List.prefix_rfl
            · exact hmore ▸ List.prefix_append _ _
        · rw [QueueRun.next_eq_none hinside hdown.puts hdown.gets] at hq
          cases hq
      · cases ql with
        | put e => exact absurd rfl (hput e)
        | get => exact absurd rfl hl
        | putLock | putCopy | putPush | putUnlock | putGive | getTake | getLock | getPop
        | getUnlock => exact absurd rfl hinside
  | create | createTwice | destroy | destroyBare | destroyNone | spawned | handled | given | undo
  | queued | taking | joining | joined | tested | ungated | taken | synced | enter | early | stopped
  | get | got | gotNone | exitEvent | dispatch | leave =>
      exact ⟨fun i c hi => ⟨c, hi, rfl⟩, rfl, List.prefix_rfl⟩

/-- The steps that are not calls from outside. -/
theorem flows_inside (hs : Inv s) (h : s.next tOnEvent l = some s')
    (hkind : l = .create ∨ l = .owner ∨ l = .loop ∨ ∃ ql, l = .queue ql ∧ ql.inside = true) :
    Flows s s' := by
  refine flows hs h ?_ ?_
  · rintro e rfl
    rcases hkind with hl | hl | hl | ⟨ql, hl, hinside⟩ <;> cases hl
    cases hinside
  · rintro rfl
    rcases hkind with hl | hl | hl | ⟨ql, hl, -⟩ <;> cases hl

/-- What was pushed is the event of the `Put` call named. -/
theorem Inv.put_of_pushed (hs : Inv s) {i : Nat} {e : XLThreadEvent}
    (hmem : (i, e) ∈ s.queue.pushed) : ∃ c, s.queue.puts[i]? = some c ∧ c.event = e := by
  have hi := hs.kept.ordered.puts.inRange i e hmem
  have hentry := (hs.kept.ordered.puts.mem_iff i _ (List.getElem?_eq_getElem hi) e).mp hmem
  refine ⟨_, List.getElem?_eq_getElem hi, ?_⟩
  unfold QueueRun.putEntry at hentry
  split at hentry
  · exact Option.some.inj hentry
  · cases hentry

/-! ### The events handled, and where they came from

Each event handled is traced back to the call of `Put` that brought it, so that what is known of the
calls is known of the events.
-/

/-- The events handled, each with the `Put` call that brought it. -/
def handledPuts (s : XLEventThread σ) : List (Nat × XLThreadEvent) :=
  s.queue.pushed.take s.dispatched.length

theorem Inv.dispatched_le (hs : Inv s) : s.dispatched.length ≤ s.queue.pushed.length := by
  have hlength := congrArg List.length hs.accepted_eq
  simp only [accepted, List.length_append, List.length_map] at hlength
  omega

theorem Inv.map_handledPuts (hs : Inv s) : s.handledPuts.map Prod.snd = s.dispatched := by
  rw [handledPuts, List.map_take]
  change s.accepted.take _ = _
  rw [hs.accepted_eq, List.append_assoc, List.take_left]

/-- The event in hand is the first accepted that is not handled. -/
theorem Inv.event_accepted (hs : Inv s) (hl : s.loop = .handling) :
    s.accepted[s.dispatched.length]? = some s.event := by
  rw [hs.accepted_eq, List.append_assoc, List.getElem?_append_right (Nat.le_refl _)]
  simp [inHand, hl]

/-- And some call of `Put` pushed it. -/
theorem Inv.event_pushed (hs : Inv s) (hl : s.loop = .handling) :
    ∃ i, s.queue.pushed[s.dispatched.length]? = some (i, s.event) := by
  have haccepted := hs.event_accepted hl
  rw [accepted, List.getElem?_map, Option.map_eq_some_iff] at haccepted
  obtain ⟨⟨i, e⟩, hi, rfl⟩ := haccepted
  exact ⟨i, hi⟩

/-- A step that handles nothing. -/
theorem Flows.handledPuts (h : Flows s s') (hs : Inv s) (hd : s'.dispatched = s.dispatched) :
    s'.handledPuts = s.handledPuts := by
  obtain ⟨more, hmore⟩ := h.pushed
  rw [XLEventThread.handledPuts, XLEventThread.handledPuts, hd, ← hmore,
    List.take_append_of_le_length hs.dispatched_le]

/-- One more event is handled. -/
theorem handledPuts_concat {r : Nat × XLThreadEvent}
    (hr : s.queue.pushed[s.dispatched.length]? = some r) (self : σ) (loop : LoopPc)
    (e : XLThreadEvent) :
    handledPuts { s with self := self, loop := loop, dispatched := s.dispatched ++ [e] } =
      s.handledPuts ++ [r] := by
  rw [handledPuts, handledPuts, List.length_append, List.length_singleton, List.take_add_one, hr]
  rfl

end ServClient.XLEventThread
