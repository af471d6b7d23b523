/-
Whether the ticks of a scheduler go on.

The permit is conserved as long as every `ALARM_INPUT` finds room in the event queue, and the ticks
go on as long as the event loop is there too: whatever is under way, the threads can bring the
permit back to the semaphore with no new caller (`Kept.goesOn`).  `OnAlarm` does not look at what
its `Put` returns, so an event turned away takes the permit with it; and a loop that looked at
`m_handle` or at `mCreated` too early is not there to give it back.
-/
import ServClient.Proofs.AlarmRun

namespace ServClient

open Runs

/-! ### What there is to do

A measure that every step of the program lowers while a tick is under way.  Together with the step
that is always there it makes the tick come to its end.
-/

/-- How much `Start` has still to do, at most. -/
def SchedulerStartPc.load : SchedulerStartPc → Nat
  | fresh => 100
  | creating => 50
  | started => 0

/-- How much a call of `OnAlarm` has. -/
def AlarmPc.load : AlarmPc → Nat
  | taken => 28
  | posting _ => 1
  | idle => 0

/-- And how much `AlarmInput` has. -/
def AlarmInputPc.load : AlarmInputPc → Nat
  | posting _ => 2
  | giving => 1
  | idle => 0

namespace AlarmRun

open CScheduler (tOnEventFront isAlarm)
open SchedulerRun (sundayAtTen)

variable {s s' : AlarmRun} {l : AlarmRunStep}

/-- How much there is to do until the next tick, at most. -/
def load (s : AlarmRun) : Nat :=
  s.start.load + s.thread.owner.load + s.thread.load + s.alarm.load + s.input.load

/-- `OnAlarm` can take the permit. -/
structure Ready (s : AlarmRun) : Prop where
  armed : s.scheduler.alarmSet = true
  idle : s.alarm = .idle
  passes : s.scheduler.alarmSem.Passes

/-- A step that keeps the tick, and is one step less to do. -/
def Advances (s : AlarmRun) : Prop :=
  ∃ l s', s.next l = some s' ∧ KeepsTick s l ∧ s'.ticks = s.ticks ∧ s'.load < s.load

/-- `Start` goes on. -/
theorem Kept.start_advances (hs : Kept s) (hstart : s.start ≠ .started) : Advances s := by
  cases hst : s.start with
  | started => exact absurd hst hstart
  | fresh =>
      obtain ⟨howner, hcreated⟩ := hs.stage.fresh hst
      have hnext : s.next (.start none none) = some { s with
          thread := { s.thread with
            sync1 := s.thread.sync1.create 0 1
            sync2 := s.thread.sync2.create 0 1
            loop := .started
            owner := .spawned
            entered := false
            pushedBefore := s.thread.queue.pushed.length
            dispatchedBefore := s.thread.dispatched.length }
          start := .creating } := by
        simp [next, hst, setScheduler, XLEventThread.next, howner, XLEventThread.create, hcreated,
          scheduler, CScheduler.setCurrentTime, CScheduler.setCurrentDay]
      refine ⟨_, _, hnext, trivial, rfl, ?_⟩
      simp only [load, hst, howner, XLEventThread.load, XLEventThread.getLoad,
        SchedulerStartPc.load, OwnerPc.load, LoopPc.load]
      omega
  | creating =>
      by_cases howner : s.thread.owner = .idle
      · have hnext : s.next .arm = some { s.setScheduler { s.scheduler with
              alarmSem := s.scheduler.alarmSem.create 0 1
              alarmSet := true } with
            start := .started } := by
          simp only [next, hst, howner, and_self, if_true]
        refine ⟨_, _, hnext, trivial, rfl, ?_⟩
        show 0 + s.thread.owner.load + s.thread.load + s.alarm.load + s.input.load < s.load
        simp only [load, hst, SchedulerStartPc.load]
        omega
      · obtain ⟨thread, (hthread : s.thread.next (tOnEventFront none none) .owner = some thread),
          hload, hless⟩ := hs.life.lively.owner_goesOn howner
        have hnext : s.next .create = some { s with thread := thread } := by
          simp only [next, hst, if_true, hthread, Option.map_some]
        refine ⟨_, _, hnext, trivial, rfl, ?_⟩
        simp only [load, hload]
        omega

/-- The handler has had its event, or `AlarmInput` its first part. -/
theorem Kept.handling_advances (hs : Kept s) (hi : s.input = .idle)
    (hl : s.thread.loop = .handling) : Advances s := by
  have hthread : s.thread.next (tOnEventFront none none) .loop =
      some (s.handled none none).thread :=
    XLEventThread.next_dispatch hl (hs.life.event_ne hl)
  have hkeeps : KeepsTick s (.loop none none) := ⟨by simp [hl], by simp [hl]⟩
  cases hcalls : s.callsAlarmInput with
  | true =>
      have hnext : s.next (.loop none none) = some (s.handled none none) := by
        simp only [next, hi, if_true, hthread, Option.map_some, hcalls, enterAlarmInput,
          CScheduler.alarmInputFront_snd, Bool.false_eq_true, if_false]
        rfl
      refine ⟨_, _, hnext, hkeeps, rfl, ?_⟩
      simp only [load, handled, hi, XLEventThread.load, XLEventThread.getLoad, hl, LoopPc.load,
        AlarmInputPc.load]
      omega
  | false =>
      have hnext : s.next (.loop none none) =
          some { s with thread := (s.handled none none).thread } := by
        simp only [next, hi, if_true, hthread, Option.map_some, hcalls, Bool.false_eq_true,
          if_false]
      refine ⟨_, _, hnext, hkeeps, rfl, ?_⟩
      simp only [load, handled, XLEventThread.load, XLEventThread.getLoad, hl, LoopPc.load]
      omega

/-- What brings the event thread on outside of its handler brings the scheduler on. -/
theorem Kept.thread_advances (hs : Kept s) (hset : s.scheduler.alarmSet = true)
    (hi : s.input = .idle) (hl : s.thread.loop ≠ .handling) {tl : EventThreadStep}
    {thread : XLEventThread CScheduler} (hon : s.thread.GoesOn isAlarm tl)
    (hthread : s.thread.next (tOnEventFront none none) tl = some thread)
    (hless : thread.load < s.thread.load) : Advances s := by
  obtain ⟨howner, hcreated⟩ := hs.stage.started (hs.stage.armed.mp hset)
  obtain ⟨hhandle, -⟩ := hs.queueCreated hset
  have hload (howner' : thread.owner = s.thread.owner) :
      load { s with thread := thread } < s.load := by
    simp only [load, howner']
    omega
  rcases hon with rfl | ⟨ql, rfl, hinside, hroom⟩
  · have hcalls : s.callsAlarmInput = false := by
      by_contra hcalls
      exact hl (callsAlarmInput_iff.mp (by simpa using hcalls)).1
    have hnext : s.next (.loop none none) = some { s with thread := thread } := by
      simp only [next, hi, if_true, hthread, Option.map_some, hcalls, Bool.false_eq_true, if_false]
    exact ⟨_, _, hnext, ⟨fun _ => hhandle, fun _ => hcreated⟩, rfl,
      hload (XLEventThread.loop_keeps hthread).1⟩
  · have hnext : s.next (.queue ql) = some { s with thread := thread } := by
      simp only [next, hinside, if_true, hthread, Option.map_some]
    cases XLEventThread.moves_of_next hthread with
    | queue hget hq => exact ⟨_, _, hnext, hroom, rfl, hload rfl⟩

/-- Where the loop waits and no call of `Put` is under way, the alarm thread goes on, or the permit
is there. -/
theorem Kept.alarm_advances (hs : Kept s) (hset : s.scheduler.alarmSet = true)
    (hi : s.input = .idle) (hblocked : s.thread.Blocked)
    (hputs : ∀ (i : Nat) (c : PutCall XLThreadEvent), s.thread.queue.puts[i]? = some c →
      ∃ b, c.pc = .returned b) : Ready s ∨ Advances s := by
  cases ha : s.alarm with
  | taken =>
      have hnext : s.next .alarmPut = some { s.put CScheduler.alarmEvent with
          alarm := .posting s.thread.queue.puts.length } := by
        simp only [next, ha, if_true]
      refine Or.inr ⟨_, _, hnext, trivial, rfl, ?_⟩
      have hcall : s.thread.queue.callPut CScheduler.alarmEvent =
          { s.thread.queue with
            puts := s.thread.queue.puts ++ [⟨CScheduler.alarmEvent, .entered⟩] } := by
        rw [QueueRun.callPut, if_pos (hs.queueCreated hset).2]
      have hqueue : (s.put CScheduler.alarmEvent).thread.queue.load = s.thread.queue.load + 26 := by
        show (s.thread.queue.callPut CScheduler.alarmEvent).load = _
        rw [hcall, QueueRun.load_put]
        rfl
      have hload : (s.put CScheduler.alarmEvent).thread.load = s.thread.load + 26 := by
        have hrest : (s.put CScheduler.alarmEvent).thread.getLoad = s.thread.getLoad ∧
            (s.put CScheduler.alarmEvent).thread.loop = s.thread.loop := ⟨rfl, rfl⟩
        rw [XLEventThread.load, XLEventThread.load, hqueue, hrest.1, hrest.2]
        omega
      show s.start.load + s.thread.owner.load + (s.put CScheduler.alarmEvent).thread.load + 1 +
        s.input.load < s.load
      simp only [load, hload, ha, AlarmPc.load]
      omega
  | posting i =>
      have hlt := hs.posting i ha
      obtain ⟨b, hb⟩ := hputs i _ (List.getElem?_eq_getElem hlt)
      have hreturned : s.putReturned i = true := by
        simp only [putReturned, List.getElem?_eq_getElem hlt, Option.any_some, hb]
      have hnext : s.next .alarmDone = some { s with alarm := .idle } := by
        simp only [next, ha, hreturned, if_true]
      refine Or.inr ⟨_, _, hnext, trivial, rfl, ?_⟩
      simp only [load, ha, AlarmPc.load]
      omega
  | idle =>
      refine Or.inl ⟨hset, ha, ?_⟩
      have hunpushed : s.thread.queue.unpushed isAlarm = 0 := by
        refine Calls.countP_eq_zero fun k c hk => ?_
        obtain ⟨b, hb⟩ := hputs k c hk
        simp [hb, PutPc.beforePush]
      have hnil := hs.life.lively.pending_eq_nil hblocked fun k c hk => by
        obtain ⟨b, hb⟩ := hputs k c hk
        rw [hb]
        rfl
      have hout : s.outstanding = 0 := by
        simp only [outstanding, ha, hi, hunpushed, hblocked.inHand, hnil]
        rfl
      have hpermit := (hs.accounts.conserved hs.life.inv hset).permit
      rw [hout] at hpermit
      rw [XLSemaPhore.passes_iff]
      show 0 < s.available
      omega

/-- Whatever is under way, it goes on until `OnAlarm` can take the permit. -/
theorem Kept.advances (hs : Kept s) : Ready s ∨ Advances s := by
  by_cases hstart : s.start = .started
  · have hset := hs.stage.armed.mpr hstart
    rcases hs.input with hi | ⟨hi, -⟩
    · by_cases hl : s.thread.loop = .handling
      · exact Or.inr (hs.handling_advances hi hl)
      · obtain ⟨howner, hcreated⟩ := hs.stage.started hstart
        rcases hs.life.lively.loop_goesOn isAlarm howner hcreated
          (hs.stage.running (by simp [hstart])) hl with hblocked | ⟨tl, thread, hon, hthread, hless⟩
        · by_cases hopen : ∃ (i : Nat) (c : PutCall XLThreadEvent),
              s.thread.queue.puts[i]? = some c ∧ ∀ b, c.pc ≠ .returned b
          · obtain ⟨i, c, hc, hpc⟩ := hopen
            obtain ⟨tl, thread, hon, hthread, hless⟩ :=
              hs.life.lively.put_goesOn isAlarm hblocked hc hpc
            exact Or.inr (hs.thread_advances hset hi hl hon hthread hless)
          · refine hs.alarm_advances hset hi hblocked fun i c hc => ?_
            by_contra hpc
            exact hopen ⟨i, c, hc, fun b hb => hpc ⟨b, hb⟩⟩
        · exact Or.inr (hs.thread_advances hset hi hl hon hthread hless)
    · have hnext : s.next .alarmGive = some
          { s.setScheduler { s.scheduler with alarmSem := s.scheduler.alarmSem.give } with
            input := .idle } := by
        simp only [next, hi, if_true]
      refine Or.inr ⟨_, _, hnext, trivial, rfl, ?_⟩
      show s.start.load + s.thread.owner.load + s.thread.load + s.alarm.load + 0 < s.load
      simp only [load, hi, AlarmInputPc.load]
      omega
  · exact Or.inr (hs.start_advances hstart)

/-- However many ticks there have been, that many more can come. -/
theorem Kept.goesOn (hs : Kept s) (n : Nat) :
    ∃ ls t, exec next s ls = some t ∧ Kept t ∧ s.ticks + n ≤ t.ticks := by
  refine exec_again (I := Kept) ticks (fun u hu => ?_) n hs
  have hstep : ∀ v, (Kept v ∧ v.ticks = u.ticks) → Ready v ∨
      ∃ l v', v.next l = some v' ∧ (Kept v' ∧ v'.ticks = u.ticks) ∧ v'.load < v.load := by
    rintro v ⟨hv, hticks⟩
    rcases hv.advances with hready | ⟨l, v', hnext, hQ, hsame, hless⟩
    · exact Or.inl hready
    · exact Or.inr ⟨l, v', hnext, ⟨(moves_of_next hnext).kept hQ hv, hsame.trans hticks⟩, hless⟩
  obtain ⟨ls, v, hrun, ⟨hv, hticks⟩, hready⟩ := exec_reaches load hstep ⟨hu, rfl⟩
  obtain ⟨hcreated, -⟩ := hv.accounts.after hready.armed
  have htake : v.next .alarmTake = some
      { v.setScheduler { v.scheduler with alarmSem := v.scheduler.alarmSem.raise } with
        alarm := .taken
        ticks := v.ticks + 1 } := by
    simp only [next, hready.armed, hready.idle, and_self, if_true, XLSemaPhore.take, hcreated,
      if_pos hready.passes, Option.map_some]
  refine ⟨ls ++ [.alarmTake], _, exec_append_some hrun (exec_single htake),
    (moves_of_next htake).kept trivial hv, ?_⟩
  show u.ticks < v.ticks + 1
  omega

/-! ### A loop that is not there

The other half: once the loop is over nobody handles an event any more, and the permits that are
left in the semaphore are all the ticks there will be.
-/

/-- The ticks that the permits in the semaphore are good for. -/
def remaining (s : AlarmRun) : Nat := if s.scheduler.alarmSet then s.available.toNat else 1

/-- The event loop is over, with nothing in its hand, and there will be no more than `n` ticks. -/
structure Dead (n : Nat) (s : AlarmRun) : Prop where
  left : s.thread.loop = .leaving ∨ s.thread.loop = .ended
  begun : s.start ≠ .fresh
  input : s.input = .idle
  armed : s.scheduler.alarmSet = true ↔ s.start = .started
  sem : s.scheduler.alarmSem.created = s.scheduler.alarmSet
  ticks : s.ticks + s.remaining ≤ n

variable {n : Nat}

/-- The event thread goes on, without its loop. -/
theorem Dead.of_thread (hs : Dead n s) {thread : XLEventThread CScheduler}
    (hself : thread.self = s.thread.self) (hleft : thread.loop = .leaving ∨ thread.loop = .ended) :
    Dead n { s with thread := thread } := by
  refine ⟨hleft, hs.begun, hs.input, ?_, ?_, ?_⟩
  · rw [scheduler, hself]
    exact hs.armed
  · rw [scheduler, hself]
    exact hs.sem
  · rw [remaining, available, scheduler, hself]
    exact hs.ticks

theorem Moves.dead (h : Moves s l s') (hs : Dead n s) : Dead n s' := by
  cases h with
  | start hfresh => exact absurd hfresh hs.begun
  | create hcreating hthread =>
      cases XLEventThread.moves_of_next hthread with
      | spawned | handled | given | undo | queued | taking | joining | joined =>
          exact hs.of_thread rfl hs.left
  | arm hcreating howner =>
      have hset : s.scheduler.alarmSet = false := by
        by_contra hset
        rw [Bool.not_eq_false, hs.armed, hcreating] at hset
        cases hset
      have hsem : s.scheduler.alarmSem.create 0 1 =
          { semCount := 0, maxCount := 1, created := true } := by
        simp [XLSemaPhore.create, hs.sem, hset]
      have hticks := hs.ticks
      simp only [remaining, hset, Bool.false_eq_true, if_false] at hticks
      rw [hsem]
      exact ⟨hs.left, by simp, hs.input, ⟨fun _ => rfl, fun _ => rfl⟩, rfl, hticks⟩
  | alarmTake hset ha htake =>
      obtain ⟨hpass, rfl⟩ := XLSemaPhore.take_created (hs.sem.trans hset) htake
      rw [XLSemaPhore.passes_iff] at hpass
      have hticks := hs.ticks
      refine ⟨hs.left, hs.begun, hs.input, hs.armed, hs.sem, ?_⟩
      simp only [remaining, hset, if_true, available] at hticks
      simp only [remaining, available, scheduler, setScheduler] at hset hpass hticks ⊢
      simp only [hset, if_true, XLSemaPhore.permits_raise]
      omega
  | alarmPut | alarmDone | setJob =>
      exact ⟨hs.left, hs.begun, hs.input, hs.armed, hs.sem, hs.ticks⟩
  | loop hi hno hthread =>
      have hleft := hs.left
      cases XLEventThread.moves_of_next hthread with
      | leave hl => exact hs.of_thread rfl (Or.inr rfl)
      | tested hl | ungated hl | taken hl | synced hl | enter hl | early hl | stopped hl | get hl
      | got hl | gotNone hl | exitEvent hl | dispatch hl => simp [hl] at hleft
  | alarmInput hi hl =>
      have hleft := hs.left
      simp [hl] at hleft
  | nextDayDone hi | alarmGive hi =>
      rw [hs.input] at hi
      cases hi
  | queue hinside hq => exact hs.of_thread rfl hs.left

/-- No run leads from there to more than `n` ticks. -/
theorem Dead.ticks_le (hs : Dead n s) {ls : List AlarmRunStep} (hrun : exec next s ls = some s') :
    s'.ticks ≤ n := by
  have hend := exec_invariant (I := Dead n) (fun _ _ _ hu hstep => (moves_of_next hstep).dead hu) hs
    hrun
  have := hend.ticks
  omega

/-- The new thread has looked too early. -/
theorem Kept.dead_of_early (hs : Kept s) {now later : Option Tm}
    (hQ : ¬ KeepsTick s (.loop now later)) (h : s.next (.loop now later) = some s') :
    Dead (s.ticks + s.remaining) s' := by
  have howned := hs.life.inv.owned
  unfold XLEventThread.Owned at howned
  have hbegun (hgone : s.thread.loop.gone = false) : s.start ≠ .fresh := by
    intro hfresh
    obtain ⟨howner, hcreated⟩ := hs.stage.fresh hfresh
    rw [howner, hcreated] at howned
    exact absurd (howned.2.symm.trans hgone) (by decide)
  have hsem : s.scheduler.alarmSem.created = s.scheduler.alarmSet := by
    cases hset : s.scheduler.alarmSet with
    | true => exact (hs.accounts.after hset).1
    | false => exact (hs.accounts.before hset).1
  have hdead {thread : XLEventThread CScheduler} (hgone : s.thread.loop.gone = false)
      (hself : thread.self = s.thread.self) (hi : s.input = .idle)
      (hleft : thread.loop = .leaving) :
      Dead (s.ticks + s.remaining) { s with thread := thread } := by
    refine ⟨Or.inl hleft, hbegun hgone, hi, ?_, ?_, ?_⟩
    · rw [scheduler, hself]
      exact hs.stage.armed
    · rw [scheduler, hself]
      exact hsem
    · rw [remaining, available, scheduler, hself]
      exact Nat.le_refl _
  cases moves_of_next h with
  | alarmInput hi hl => exact absurd ⟨by simp [hl], by simp [hl]⟩ hQ
  | loop hi hno hthread =>
      cases XLEventThread.moves_of_next hthread with
      | synced hl =>
          have hhandle : s.thread.handle = false := by
            by_contra hh
            exact hQ ⟨fun _ => by simpa using hh, by simp [hl]⟩
          refine hdead (by rw [hl]; rfl) rfl hi ?_
          simp [hhandle]
      | early hl hc => exact hdead (by rw [hl]; rfl) rfl hi rfl
      | enter hl hc => exact absurd ⟨by simp [hl], fun _ => hc⟩ hQ
      | tested hl | ungated hl | taken hl | stopped hl | get hl | got hl | gotNone hl | exitEvent hl
      | dispatch hl | leave hl => exact absurd ⟨by simp [hl], by simp [hl]⟩ hQ

/-! ### Whole runs -/

/-- The permit is not lost, and the alarm does not run dry. -/
structure Ticking (s : AlarmRun) : Prop where
  conserved : s.scheduler.alarmSet = true → Conserved s
  /-- The ticks have not stopped for good: any number can still come. -/
  goesOn : ∀ n, ∃ ls t, exec next s ls = some t ∧ s.ticks + n ≤ t.ticks

theorem Kept.ticking (hs : Kept s) : Ticking s where
  conserved := hs.accounts.conserved hs.life.inv
  goesOn := fun n => by
    obtain ⟨ls, t, hrun, -, hmore⟩ := hs.goesOn n
    exact ⟨ls, t, hrun, hmore⟩

/-- An `ALARM_INPUT` turned away takes the permit with it. -/
theorem Kept.lost_of_full (hs : Kept s) {ql : QueueStep XLThreadEvent}
    (hQ : ¬ KeepsTick s (.queue ql)) (h : s.next (.queue ql) = some s') :
    s'.scheduler.alarmSet = true ∧ s'.available + s'.outstanding = 0 := by
  cases moves_of_next h with
  | @queue _ q hinside hq =>
      have hless := ((hs.queueMoves hinside hq).posted hs.life.inv.kept.exclusive hinside).2 hQ
      have hset : s.scheduler.alarmSet = true := hs.armed_of_debt (by
        rw [debt]
        omega)
      obtain ⟨-, -, hcount⟩ := hs.accounts.after hset
      have hnext : s.thread.next (tOnEventFront none none) (.queue ql) =
          some { s.thread with queue := q } := XLEventThread.next_queue hinside hq
      have hinv := XLEventThread.inv_step hs.life.inv hnext
      have hdebt : s.alarm.owes + q.posted isAlarm + s.input.owes =
          s.thread.dispatched.countP isAlarm +
            outstanding { s with thread := { s.thread with queue := q } } :=
        debt_eq (s := { s with thread := { s.thread with queue := q } }) hinv
      refine ⟨hset, ?_⟩
      show s.available + (outstanding { s with thread := { s.thread with queue := q } } : Int) = 0
      rw [debt] at hcount
      omega

theorem Kept.not_ticking (hs : Kept s) (hQ : ¬ KeepsTick s l) (h : s.next l = some s') :
    ¬ Ticking s' := by
  intro hticking
  cases l with
  | queue ql =>
      obtain ⟨hset, hnone⟩ := hs.lost_of_full hQ h
      have hpermit := (hticking.conserved hset).permit
      omega
  | loop now later =>
      have hdead := hs.dead_of_early hQ h
      obtain ⟨ls, t, hrun, hmore⟩ := hticking.goesOn (s.ticks + s.remaining + 1)
      have hle := hdead.ticks_le hrun
      omega
  | start | create | arm | alarmTake | alarmPut | alarmDone | setJob | nextDayDone | alarmGive =>
      exact hQ trivial

/--
The permit of the alarm is conserved and its ticks go on, in every state of a run, exactly if every
`ALARM_INPUT` finds room in the event queue where it is pushed, and the new event thread looks at
`m_handle` and at `mCreated` when they are set.
-/
theorem ticks_conserved_iff (now : Option Tm) {ls : List AlarmRunStep}
    (hrun : exec next (new now) ls = some s) :
    Throughout next Ticking (new now) ls ↔ Along next KeepsTick (new now) ls :=
  throughout_iff_along (I := Kept) (fun _ hu => hu.ticking)
    (fun _ _ _ hu hQ hstep => (moves_of_next hstep).kept hQ hu)
    (fun _ _ _ hu hQ hstep => hu.not_ticking hQ hstep) (kept_new now) hrun

/-- `Start` on a Sunday at ten, and the event loop is there when it has returned. -/
def startSteps : List AlarmRunStep :=
  [.start (some sundayAtTen.toTm) (some sundayAtTen.toTm), .create, .create, .create, .create, .arm,
    .loop none none, .loop none none, .loop none none, .loop none none]

/-- `Put` call `i` on its own. -/
def putSteps (i : Nat) : List AlarmRunStep :=
  [.queue (.putLock i), .queue (.putCopy i), .queue (.putPush i), .queue (.putUnlock i),
    .queue (.putGive i)]

/-- The loop gets an event in its call `j`, and handles it on that Sunday. -/
def eventSteps (j : Nat) : List AlarmRunStep :=
  [.loop none none, .queue (.getTake j), .queue (.getLock j), .queue (.getPop j),
    .queue (.getUnlock j), .loop none none,
    .loop (some sundayAtTen.toTm) (some sundayAtTen.toTm)]

/-- A tick, a job while it is on its way, and another tick. -/
def twoTicks : List AlarmRunStep :=
  startSteps ++ [.alarmTake, .alarmPut, .setJob CScheduleTime.new 77] ++ putSteps 0 ++
    [.alarmDone] ++ putSteps 1 ++ eventSteps 0 ++ [.alarmGive, .alarmTake, .alarmPut] ++
    eventSteps 1 ++ putSteps 2 ++ eventSteps 2 ++ [.alarmDone, .alarmGive]

theorem ticks_conserved_iff_twoTicks :
    Throughout next Ticking (new (some sundayAtTen.toTm)) twoTicks ∧
      ∃ s, exec next (new (some sundayAtTen.toTm)) twoTicks = some s ∧ s.ticks = 2 := by
  obtain ⟨s, hs, hticks⟩ := (Option.any_eq_true _ _).mp
    (show (exec next (new (some sundayAtTen.toTm)) twoTicks).any (fun s => s.ticks = 2) = true by
      decide +kernel)
  exact ⟨(ticks_conserved_iff _ hs).mpr (by decide +kernel), s, hs, by simpa using hticks⟩

/-! ### A run that fills the event queue -/

/-- The state with another queue. -/
def withQueue (s : AlarmRun) (q : QueueRun XLThreadEvent) : AlarmRun :=
  { s with thread := { s.thread with queue := q } }

/-- The step of the scheduler that is this step of its queue, where it is `SetJob` that posts. -/
def ofQueueStep (t : CScheduleTime) (job : UInt64) : QueueStep XLThreadEvent → AlarmRunStep
  | .put _ => .setJob t job
  | l => .queue l

/-- The steps of the queue are steps of the scheduler, if its events are those of `SetJob`. -/
theorem exec_queue {t : CScheduleTime} {job : UInt64} {e : XLThreadEvent}
    (he : CScheduler.setJobEvent t job = some e) (s : AlarmRun)
    {qls : List (QueueStep XLThreadEvent)} {q q' : QueueRun XLThreadEvent}
    (hjobs : ∀ ql ∈ qls, ql.inside = true ∨ ql = .put e)
    (h : exec QueueRun.next q qls = some q') :
    exec next (s.withQueue q) (qls.map (ofQueueStep t job)) = some (s.withQueue q') := by
  refine exec_lift s.withQueue (ofQueueStep t job) (fun ql hql u v hstep => ?_) h
  rcases hjobs ql hql with hinside | rfl
  · have hthread : (s.withQueue u).thread.next (tOnEventFront none none) (.queue ql) =
        some (s.withQueue v).thread := XLEventThread.next_queue hinside hstep
    have hnext : next (s.withQueue u) (.queue ql) = some (s.withQueue v) := by
      simp only [next, hinside, if_true, hthread, Option.map_some]
      rfl
    cases ql with
    | put | get => cases hinside
    | putLock | putCopy | putPush | putUnlock | putGive | getTake | getLock | getPop
    | getUnlock => exact hnext
  · cases hstep
    simp only [next, ofQueueStep, he, Option.map_some]
    rfl

/-- Some threads call `SetJob`, `n` times; `Put` call `i` is the first. -/
def setJobSteps (t : CScheduleTime) (job : UInt64) (i n : Nat) : List AlarmRunStep :=
  (List.range' i n).flatMap fun k => .setJob t job :: putSteps k

theorem exec_setJobs {t : CScheduleTime} {job : UInt64} {e : XLThreadEvent}
    (he : CScheduler.setJobEvent t job = some e) {n : Nat} {s : AlarmRun}
    (hlive : QueueRun.Live s.thread.queue) (hfree : s.thread.queue.queue.mut1.owner = none)
    (hroom : s.thread.queue.queue.q.pending.length + n ≤ s.thread.queue.queue.q.maxSize) :
    ∃ q, exec next s (setJobSteps t job s.thread.queue.puts.length n) = some (s.withQueue q) ∧
      QueueRun.Live q ∧ q.queue.mut1.owner = none ∧
      q.queue.q.maxSize = s.thread.queue.queue.q.maxSize ∧
      q.queue.q.pending = s.thread.queue.queue.q.pending ++ List.replicate n e ∧
      q.puts = s.thread.queue.puts ++ List.replicate n ⟨e, .returned true⟩ := by
  obtain ⟨q, hq, hrest⟩ := QueueRun.exec_putAll e hlive hfree hroom
  have hsteps : setJobSteps t job s.thread.queue.puts.length n =
      (QueueRun.putAll e s.thread.queue.puts.length n).map (ofQueueStep t job) := by
    rw [setJobSteps, QueueRun.putAll, List.map_flatMap]
    rfl
  refine ⟨q, ?_, hrest⟩
  rw [hsteps]
  refine exec_queue he s (fun ql hql => ?_) hq
  obtain ⟨k, -, hk⟩ := List.mem_flatMap.mp hql
  simp only [List.mem_cons, List.not_mem_nil, or_false] at hk
  rcases hk with rfl | rfl | rfl | rfl | rfl | rfl
  · exact Or.inr rfl
  all_goals exact Or.inl rfl

/-- 256 jobs are set before the loop gets an event, and then there is a tick. -/
def fullRun : List AlarmRunStep :=
  startSteps ++ setJobSteps CScheduleTime.new 77 0 256 ++
    [.alarmTake, .alarmPut, .queue (.putLock 256), .queue (.putCopy 256), .queue (.putPush 256),
      .queue (.putUnlock 256)]

/-- `OnAlarm` takes the permit and calls `Put`, which turns the event away. -/
theorem exec_alarm_full {s : AlarmRun} {t : CScheduleTime} {job : UInt64} {e : XLThreadEvent}
    (he : CScheduler.setJobEvent t job = some e) (hset : s.scheduler.alarmSet = true)
    (hsem : s.scheduler.alarmSem = { semCount := 0, maxCount := 1, created := true })
    (hidle : s.alarm = .idle) (hlive : QueueRun.Live s.thread.queue)
    (hfree : s.thread.queue.queue.mut1.owner = none)
    (hfull : ¬ s.thread.queue.queue.q.pending.length < s.thread.queue.queue.q.maxSize) :
    ∃ u, exec next s ([.alarmTake, .alarmPut] ++ ([.putLock s.thread.queue.puts.length,
        .putCopy s.thread.queue.puts.length, .putPush s.thread.queue.puts.length,
        .putUnlock s.thread.queue.puts.length] : List (QueueStep XLThreadEvent)).map .queue) =
          some u ∧
      u.scheduler.alarmSet = true ∧ u.available = 0 ∧ u.alarm.owes = 0 ∧ u.input = s.input ∧
      u.thread.inHand = s.thread.inHand ∧
      u.thread.queue.queue.q.pending = s.thread.queue.queue.q.pending ∧
      u.thread.queue.puts = s.thread.queue.puts ++ [⟨CScheduler.alarmEvent, .returned false⟩] := by
  have htake : s.next .alarmTake = some { s.setScheduler { s.scheduler with
        alarmSem := { semCount := 1, maxCount := 1, created := true } } with
      alarm := .taken
      ticks := s.ticks + 1 } := by
    simp only [next, hset, hidle, and_self, if_true, hsem]
    rfl
  have hput := QueueRun.exec_put_full hlive hfree hfull CScheduler.alarmEvent
  have hrest := exec_queue he { s.setScheduler { s.scheduler with
        alarmSem := { semCount := 1, maxCount := 1, created := true } } with
      alarm := .posting s.thread.queue.puts.length
      ticks := s.ticks + 1 } (by simp [QueueStep.inside]) hput
  refine ⟨_, exec_append_some (exec_cons_eq_some.mpr ⟨_, htake, exec_single rfl⟩) hrest, hset, rfl,
    rfl, rfl, rfl, (XLLFQ.push_full hfull _).2, rfl⟩

theorem tick_lost_when_full :
    ∃ s, exec next (new (some sundayAtTen.toTm)) fullRun = some s ∧
      s.scheduler.alarmSet = true ∧ s.available = 0 ∧ s.outstanding = 0 ∧ ¬ Ticking s := by
  obtain ⟨s, hs, hstart⟩ := (Option.any_eq_true _ _).mp
    (show (exec next (new (some sundayAtTen.toTm)) startSteps).any
      (fun s => decide ((s.thread.queue.queue.created = true ∧
          s.thread.queue.queue.sem.created = true ∧ s.thread.queue.queue.mut1.created = true ∧
          s.thread.queue.queue.properties &&& XLEventQueue.multiWriter ≠ 0) ∧
        s.thread.queue.queue.mut1.owner = none ∧ s.thread.queue.queue.q.maxSize = 256 ∧
        s.thread.queue.queue.q.pending = [] ∧ s.thread.queue.puts.length = 0 ∧
        s.thread.loop = .testing ∧ s.thread.exit = false ∧ s.scheduler.alarmSet = true ∧
        s.scheduler.alarmSem = { semCount := 0, maxCount := 1, created := true } ∧
        s.alarm = .idle ∧ s.input = .idle)) = true
      by decide)
  obtain ⟨⟨hcreated, hsem, hmut, hwriter⟩, hfree, hmax, hpending, hcalls, hloop, hexit, hset,
    halarmSem, hidle, hinput⟩ := of_decide_eq_true hstart
  obtain ⟨e, he, -⟩ := CScheduler.setJobEvent_eq CScheduleTime.new 77
  have hother : isAlarm e = false := by
    rw [isAlarm, CScheduler.setJobEvent_iType he]
    decide
  obtain ⟨q, hq, hlive, hfree', hmax', hpending', hputs⟩ := exec_setJobs he (n := 256) (s := s)
    ⟨hcreated, hsem, hmut, hwriter⟩ hfree (by rw [hpending, hmax]; decide)
  rw [hcalls] at hq
  rw [hpending, List.nil_append] at hpending'
  rw [List.length_eq_zero_iff.mp hcalls, List.nil_append] at hputs
  have hlength : q.puts.length = 256 := by rw [hputs, List.length_replicate]
  obtain ⟨u, hu, hset', havailable, howes, hinput', hhand', hpending'', hputs'⟩ :=
    exec_alarm_full (s := s.withQueue q) he hset halarmSem hidle hlive hfree' (by
      show ¬ q.queue.q.pending.length < q.queue.q.maxSize
      rw [hpending', hmax', hmax, List.length_replicate]
      decide)
  have hnone : u.outstanding = 0 := by
    have hunpushed : u.thread.queue.unpushed isAlarm = 0 := by
      rw [QueueRun.unpushed, hputs']
      show (q.puts ++ _).countP _ = 0
      rw [hputs, List.countP_append, List.countP_replicate]
      simp [PutPc.beforePush]
    have hevents : u.thread.inHand ++ u.thread.queue.queue.q.pending = List.replicate 256 e := by
      have hhand : (s.withQueue q).thread.inHand = [] := by
        simp [withQueue, XLEventThread.inHand, hloop, hexit]
      rw [hhand', hpending'', hhand, List.nil_append]
      exact hpending'
    rw [outstanding, howes, hunpushed, hevents, List.countP_replicate, hother, hinput']
    show 0 + 0 + 0 + s.input.owes = 0
    rw [hinput]
    rfl
  refine ⟨u, ?_, hset', havailable, hnone, fun hticking => ?_⟩
  · show exec next _ (startSteps ++ setJobSteps CScheduleTime.new 77 0 256 ++ _) = _
    rw [show (s.withQueue q).thread.queue.puts.length = 256 from hlength] at hu
    exact exec_append_some (exec_append_some hs hq) hu
  · have hpermit := (hticking.conserved hset').permit
    rw [havailable, hnone] at hpermit
    cases hpermit

end AlarmRun

end ServClient
