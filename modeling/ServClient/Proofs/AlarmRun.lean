/-
The steps of a started scheduler and its threads, and what every step keeps.

Most steps are steps of the event thread that leave the scheduler alone.  `AlarmInput` always
comes to its `Give` and nowhere else, since the branch with the other `Put` is never taken.  The
permit of `m_AlarmSem` is counted with the ticks on their way: it is in the semaphore, or
`OnAlarm` has taken it, or its `ALARM_INPUT` is posted, or that is being handled.
-/
import ServClient.AlarmRun
import ServClient.Proofs.EventProgress
import ServClient.Proofs.SchedulerJobs

namespace ServClient

open Runs

/-! ### `AlarmInput` and its parts -/

namespace CScheduler

variable {s : CScheduler} {e : XLThreadEvent} {now later : Option Tm}

@[simp] theorem setCurrentTime_alarm (s : CScheduler) (now : Option Tm) :
    (s.setCurrentTime now).alarmSem = s.alarmSem ∧
      (s.setCurrentTime now).alarmSet = s.alarmSet := by
  cases now <;> exact ⟨rfl, rfl⟩

@[simp] theorem setCurrentDay_alarm (s : CScheduler) (now : Option Tm) :
    (s.setCurrentDay now).alarmSem = s.alarmSem ∧
      (s.setCurrentDay now).alarmSet = s.alarmSet := by
  cases now <;> exact ⟨rfl, rfl⟩

/-- No time the clock can give reaches `FullDay()`. -/
theorem alarmInputFront_snd (s : CScheduler) (now later : Option Tm) :
    (s.alarmInputFront now later).2 = false := by
  have hlt : (s.setCurrentTimeOf now CScheduleTime.new).2.getDaySeconds <
      CScheduleTime.fullDay := by
    cases now with
    | none => exact (by decide : CScheduleTime.new.getDaySeconds < CScheduleTime.fullDay)
    | some now => exact CScheduleTime.getDaySeconds_ofInt_lt (s.whole now)
  unfold alarmInputFront
  dsimp only
  rw [if_neg fun h => absurd h.1 (not_le.mpr hlt)]

theorem alarmInputFront_alarm (s : CScheduler) (now later : Option Tm) :
    (s.alarmInputFront now later).1.alarmSem = s.alarmSem ∧
      (s.alarmInputFront now later).1.alarmSet = s.alarmSet := by
  have htime : (s.setCurrentTimeOf now CScheduleTime.new).1.alarmSem = s.alarmSem ∧
      (s.setCurrentTimeOf now CScheduleTime.new).1.alarmSet = s.alarmSet := by
    cases now <;> exact ⟨rfl, rfl⟩
  unfold alarmInputFront
  dsimp only
  split
  · exact htime
  · simpa using htime

/-- The handlers leave the alarm alone, up to the `Give`. -/
theorem tOnEventFront_alarm (now later : Option Tm) (s : CScheduler) (e : XLThreadEvent) :
    (s.tOnEventFront now later e).alarmSem = s.alarmSem ∧
      (s.tOnEventFront now later e).alarmSet = s.alarmSet := by
  unfold tOnEventFront
  split
  · exact s.alarmInputFront_alarm now later
  · rename_i halarm
    by_cases hnext : e.iType = nextDayInput
    · rw [tOnEvent_nextDay s hnext]
      simp
    · obtain ⟨jobSet, done, heq⟩ := s.tOnEvent_other halarm hnext now later
      rw [heq]
      exact ⟨rfl, rfl⟩

end CScheduler

/-! ### What one step can do -/

namespace AlarmRun

open CScheduler (tOnEventFront isAlarm)

variable {s s' : AlarmRun} {l : AlarmRunStep}

/-- The state after the first part of `AlarmInput`. -/
def handled (s : AlarmRun) (now later : Option Tm) : AlarmRun :=
  { s with
    thread := { s.thread with
      self := s.scheduler.tOnEventFront now later s.thread.event
      loop := .testing
      dispatched := s.thread.dispatched ++ [s.thread.event] }
    input := .giving }

/-- What one step can do, with what it finds. -/
inductive Moves (s : AlarmRun) : AlarmRunStep → AlarmRun → Prop
  | start {first second thread} (hs : s.start = .fresh)
      (hthread : XLEventThread.next (tOnEventFront none none)
        { s.thread with self := (s.scheduler.setCurrentTime first).setCurrentDay second } .create =
          some thread) :
      Moves s (.start first second) { s with thread := thread, start := .creating }
  | create {thread} (hs : s.start = .creating)
      (hthread : s.thread.next (tOnEventFront none none) .owner = some thread) :
      Moves s .create { s with thread := thread }
  | arm (hs : s.start = .creating) (howner : s.thread.owner = .idle) :
      Moves s .arm { s.setScheduler { s.scheduler with
          alarmSem := s.scheduler.alarmSem.create 0 1
          alarmSet := true } with
        start := .started }
  | alarmTake {alarmSem} (hset : s.scheduler.alarmSet = true) (ha : s.alarm = .idle)
      (htake : s.scheduler.alarmSem.take = some alarmSem) :
      Moves s .alarmTake { s.setScheduler { s.scheduler with alarmSem := alarmSem } with
        alarm := .taken
        ticks := s.ticks + 1 }
  | alarmPut (ha : s.alarm = .taken) :
      Moves s .alarmPut
        { s.put CScheduler.alarmEvent with alarm := .posting s.thread.queue.puts.length }
  | alarmDone {i} (ha : s.alarm = .posting i) (hi : s.putReturned i = true) :
      Moves s .alarmDone { s with alarm := .idle }
  | setJob {t job e} (he : e.iType = CScheduler.addAJobType) : Moves s (.setJob t job) (s.put e)
  /-- The loop goes on, elsewhere than into `AlarmInput`. -/
  | loop {now later thread} (hi : s.input = .idle)
      (hno : s.thread.loop = .handling → isAlarm s.thread.event = false)
      (hthread : s.thread.next (tOnEventFront now later) .loop = some thread) :
      Moves s (.loop now later) { s with thread := thread }
  | alarmInput {now later} (hi : s.input = .idle) (hl : s.thread.loop = .handling)
      (he : isAlarm s.thread.event = true) : Moves s (.loop now later) (s.handled now later)
  | nextDayDone {i} (hi : s.input = .posting i) : Moves s .nextDayDone { s with input := .giving }
  | alarmGive (hi : s.input = .giving) :
      Moves s .alarmGive
        { s.setScheduler { s.scheduler with alarmSem := s.scheduler.alarmSem.give } with
          input := .idle }
  | queue {l q} (hinside : l.inside = true) (hq : s.thread.queue.next l = some q) :
      Moves s (.queue l) { s with thread := { s.thread with queue := q } }

theorem callsAlarmInput_iff : s.callsAlarmInput = true ↔
    s.thread.loop = .handling ∧ isAlarm s.thread.event = true := by
  simp [callsAlarmInput, isAlarm]

theorem isAlarm_ne_exit {e : XLThreadEvent} (he : isAlarm e = true) :
    e.iType ≠ eventThreadEventTypeExit := by
  rw [isAlarm, decide_eq_true_eq] at he
  rw [he]
  decide

theorem moves_of_next (h : s.next l = some s') : Moves s l s' := by
  cases l with
  | start first second =>
      simp only [next] at h
      split at h
      · rename_i hs
        obtain ⟨thread, hthread, rfl⟩ := Option.map_eq_some_iff.mp h
        exact .start hs hthread
      · cases h
  | create =>
      simp only [next] at h
      split at h
      · rename_i hs
        obtain ⟨thread, hthread, rfl⟩ := Option.map_eq_some_iff.mp h
        exact .create hs hthread
      · cases h
  | arm =>
      simp only [next] at h
      split at h
      · rename_i hs; cases h; exact .arm hs.1 hs.2
      · cases h
  | alarmTake =>
      simp only [next] at h
      split at h
      · rename_i hs
        obtain ⟨alarmSem, htake, rfl⟩ := Option.map_eq_some_iff.mp h
        exact .alarmTake hs.1 hs.2 htake
      · cases h
  | alarmPut =>
      simp only [next] at h
      split at h
      · rename_i ha; cases h; exact .alarmPut ha
      · cases h
  | alarmDone =>
      simp only [next] at h
      split at h
      · rename_i ha
        split at h
        · rename_i hi; cases h; exact .alarmDone ha hi
        · cases h
      · cases h
  | setJob t job =>
      simp only [next] at h
      obtain ⟨e, he, rfl⟩ := Option.map_eq_some_iff.mp h
      exact .setJob (CScheduler.setJobEvent_iType he)
  | loop now later =>
      simp only [next] at h
      split at h
      · rename_i hi
        obtain ⟨thread, hthread, rfl⟩ := Option.map_eq_some_iff.mp h
        by_cases hcalls : s.callsAlarmInput = true
        · obtain ⟨hl, he⟩ := callsAlarmInput_iff.mp hcalls
          rw [XLEventThread.next_dispatch hl (isAlarm_ne_exit he), Option.some.injEq] at hthread
          subst hthread
          rw [if_pos hcalls, CScheduler.alarmInputFront_snd]
          exact .alarmInput hi hl he
        · rw [if_neg hcalls]
          refine .loop hi (fun hl => ?_) hthread
          by_contra he
          exact hcalls (callsAlarmInput_iff.mpr ⟨hl, by simpa using he⟩)
      · cases h
  | nextDayDone =>
      simp only [next] at h
      split at h
      · rename_i hi
        split at h
        · cases h; exact .nextDayDone hi
        · cases h
      · cases h
  | alarmGive =>
      simp only [next] at h
      split at h
      · rename_i hi; cases h; exact .alarmGive hi
      · cases h
  | queue ql =>
      simp only [next] at h
      split at h
      · rename_i hinside
        obtain ⟨thread, hthread, rfl⟩ := Option.map_eq_some_iff.mp h
        cases XLEventThread.moves_of_next hthread with
        | queue hl hq => exact .queue hinside hq
      · cases h

end AlarmRun

/-! ### The permit

The permit goes from `m_AlarmSem` to `OnAlarm`, with the event to the queue, with the event to the
loop, and back.  Wherever a tick is under way is one of these places.
-/

/-- Past `Take`, and not yet in `Put`. -/
def AlarmPc.owes : AlarmPc → Nat
  | taken => 1
  | idle | posting _ => 0

/-- Not yet past `Give`. -/
def AlarmInputPc.owes : AlarmInputPc → Nat
  | idle => 0
  | posting _ | giving => 1

namespace AlarmRun

open CScheduler (tOnEventFront isAlarm)

variable {s s' : AlarmRun} {l : AlarmRunStep}

/-- The permits of `m_AlarmSem`. -/
def available (s : AlarmRun) : Int := s.scheduler.alarmSem.permits.available

/-- The `OnAlarm` calls past `Take` whose event is not pushed, the `ALARM_INPUT` events queued or in
hand, and the one being handled. -/
def outstanding (s : AlarmRun) : Nat :=
  s.alarm.owes + s.thread.queue.unpushed isAlarm +
    (s.thread.inHand ++ s.thread.queue.queue.q.pending).countP isAlarm + s.input.owes

/-- The one permit of `m_AlarmSem` is there, or somebody is to give it back. -/
structure Conserved (s : AlarmRun) : Prop where
  permit : s.available + s.outstanding = 1
  atMostOne : s.outstanding ≤ 1

/-- What is outstanding and what has been handled come to this. -/
def debt (s : AlarmRun) : Nat :=
  s.alarm.owes + s.thread.queue.posted isAlarm + s.input.owes

/-- What the permits and the ticks so far come to. -/
structure Accounts (s : AlarmRun) : Prop where
  before : s.scheduler.alarmSet = false → s.scheduler.alarmSem.created = false ∧ s.debt = 0
  after : s.scheduler.alarmSet = true → s.scheduler.alarmSem.created = true ∧ 0 ≤ s.available ∧
    s.available + s.debt = 1 + s.thread.dispatched.countP isAlarm

/-- An event posted has been handled, or is outstanding. -/
theorem debt_eq (hs : s.thread.Inv) :
    s.debt = s.thread.dispatched.countP isAlarm + s.outstanding := by
  have hcount := congrArg (List.countP isAlarm) hs.accepted_eq
  rw [List.append_assoc, List.countP_append] at hcount
  rw [debt, outstanding, QueueRun.posted,
    show s.thread.queue.pushed.map Prod.snd = s.thread.accepted from rfl, hcount]
  omega

theorem Accounts.conserved (h : Accounts s) (hs : s.thread.Inv)
    (hset : s.scheduler.alarmSet = true) : Conserved s := by
  obtain ⟨-, hnonneg, hcount⟩ := h.after hset
  rw [debt_eq hs] at hcount
  exact ⟨by omega, by omega⟩

/-- The alarm and the ticks are as they were. -/
theorem Accounts.congr (h : Accounts s)
    (halarm : s'.scheduler.alarmSem = s.scheduler.alarmSem ∧
      s'.scheduler.alarmSet = s.scheduler.alarmSet) (hdebt : s'.debt = s.debt)
    (hdispatched : s'.thread.dispatched.countP isAlarm = s.thread.dispatched.countP isAlarm) :
    Accounts s' := by
  refine ⟨fun hset => ?_, fun hset => ?_⟩
  · rw [halarm.2] at hset
    rw [halarm.1, hdebt]
    exact h.before hset
  · rw [halarm.2] at hset
    rw [available, halarm.1, hdebt, hdispatched]
    exact h.after hset

/-! ### What every step keeps

`Start` is taken apart into the places where other threads can get in between.  The invariant says
how far it is; from then on each thread has its own lemma.
-/

/-- How far `Start` is, for the event thread and for the alarm. -/
structure Stage (s : AlarmRun) : Prop where
  fresh : s.start = .fresh → s.thread.owner = .idle ∧ s.thread.created = false
  creating : s.start = .creating → s.thread.owner = .idle → s.thread.created = true
  started : s.start = .started → s.thread.owner = .idle ∧ s.thread.created = true
  running : s.start ≠ .fresh → s.thread.loop ≠ .off
  armed : s.scheduler.alarmSet = true ↔ s.start = .started

/-- What every step of a started scheduler keeps. -/
structure Kept (s : AlarmRun) : Prop where
  life : s.thread.FirstLife
  stage : Stage s
  posting : ∀ i, s.alarm = .posting i → i < s.thread.queue.puts.length
  input : s.input = .idle ∨ s.input = .giving ∧ s.thread.loop = .testing
  accounts : Accounts s

theorem kept_new (now : Option Tm) : Kept (new now) where
  life := XLEventThread.firstLife_new _
  stage := by
    have hset : (CScheduler.new now).alarmSet = false := by cases now <;> rfl
    exact ⟨fun _ => ⟨rfl, rfl⟩, (fun hs => by cases hs), (fun hs => by cases hs),
      fun hs => absurd rfl hs, ⟨fun hs => absurd (hset.symm.trans hs) (by decide), fun hs => by
        cases hs⟩⟩
  posting := fun i hi => by cases hi
  input := Or.inl rfl
  accounts := by
    have hset : (CScheduler.new now).alarmSet = false := by cases now <;> rfl
    have hsem : (CScheduler.new now).alarmSem.created = false := by cases now <;> rfl
    exact ⟨fun _ => ⟨hsem, rfl⟩, fun hs => absurd (hset.symm.trans hs) (by decide)⟩

/-- An `ALARM_INPUT` finds room where it is pushed, and the new thread looks at `m_handle` and at
`mCreated` when they are set. -/
def KeepsTick (s : AlarmRun) : AlarmRunStep → Prop
  | .queue l => s.thread.queue.HasRoomFor isAlarm l
  | .loop _ _ => (s.thread.loop = .synced → s.thread.handle = true) ∧
      (s.thread.loop = .running → s.thread.created = true)
  | _ => True

instance (s : AlarmRun) : ∀ l, Decidable (KeepsTick s l)
  | .queue l => inferInstanceAs (Decidable (s.thread.queue.HasRoomFor isAlarm l))
  | .loop _ _ => inferInstanceAs (Decidable (_ ∧ _))
  | .start _ _ | .create | .arm | .alarmTake | .alarmPut | .alarmDone | .setJob _ _
  | .nextDayDone | .alarmGive => isTrue trivial

/-- The loop and `Create` call no `Put`. -/
theorem Kept.still (hs : Kept s) {tOnEvent : CScheduler → XLThreadEvent → CScheduler}
    {tl : EventThreadStep} {thread : XLEventThread CScheduler}
    (hnext : s.thread.next tOnEvent tl = some thread)
    (htl : tl = .create ∨ tl = .owner ∨ tl = .loop) : s.thread.Still thread :=
  (XLEventThread.moves_of_next hnext).still hs.life.inv hs.life.up hs.life.settled.sized htl

/-- The queue is there once the alarm is set. -/
theorem Kept.queueCreated (hs : Kept s) (hset : s.scheduler.alarmSet = true) :
    s.thread.handle = true ∧ s.thread.queue.queue.created = true := by
  obtain ⟨howner, hcreated⟩ := hs.stage.started (hs.stage.armed.mp hset)
  have howned := hs.life.inv.owned
  unfold XLEventThread.Owned at howned
  rw [howner, hcreated] at howned
  exact howned

/-- A tick is under way only where the alarm is set. -/
theorem Kept.armed_of_debt (hs : Kept s) (hdebt : s.debt ≠ 0) : s.scheduler.alarmSet = true := by
  by_contra hset
  exact hdebt (hs.accounts.before (by simpa using hset)).2

/-- A call of `Put` with an event of another kind. -/
theorem Kept.put (hs : Kept s) {e : XLThreadEvent} (he : isAlarm e = false)
    (hexit : e.iType ≠ eventThreadEventTypeExit) : Kept (s.put e) where
  life := hs.life.put hexit
  stage := ⟨hs.stage.fresh, hs.stage.creating, hs.stage.started, hs.stage.running, hs.stage.armed⟩
  posting := fun i hi => by
    have hlt := hs.posting i hi
    simp only [AlarmRun.put, QueueRun.callPut, List.length_append, List.length_singleton]
    omega
  input := hs.input
  accounts := by
    refine hs.accounts.congr ⟨rfl, rfl⟩ ?_ rfl
    have hposted := QueueRun.posted_put (p := isAlarm) (q := s.thread.queue) e
      (if s.thread.queue.queue.created then .entered else .returned false)
    simp only [he, Bool.false_and, Bool.false_eq_true, if_false, Nat.add_zero] at hposted
    simp only [debt, AlarmRun.put, QueueRun.callPut, hposted]

/-- `OnAlarm` calls `Put`. -/
theorem Kept.alarmPut (hs : Kept s) (ha : s.alarm = .taken) :
    Kept { s.put CScheduler.alarmEvent with alarm := .posting s.thread.queue.puts.length } := by
  have hset : s.scheduler.alarmSet = true := hs.armed_of_debt (by simp [debt, ha, AlarmPc.owes])
  have hposted := QueueRun.posted_put (p := isAlarm) (q := s.thread.queue) CScheduler.alarmEvent
    .entered
  have hcall : s.thread.queue.callPut CScheduler.alarmEvent =
      { s.thread.queue with
        puts := s.thread.queue.puts ++ [⟨CScheduler.alarmEvent, .entered⟩] } := by
    rw [QueueRun.callPut, if_pos (hs.queueCreated hset).2]
  refine ⟨hs.life.put (by decide), ⟨hs.stage.fresh, hs.stage.creating, hs.stage.started,
    hs.stage.running, hs.stage.armed⟩, fun i hi => ?_, hs.input,
    hs.accounts.congr ⟨rfl, rfl⟩ ?_ rfl⟩
  · cases hi
    simp [AlarmRun.put, QueueRun.callPut]
  · simp only [debt, AlarmRun.put, hcall, hposted, ha, AlarmPc.owes]
    rw [show (isAlarm CScheduler.alarmEvent && PutPc.entered.beforePush) = true by decide,
      if_pos rfl]
    omega

/-- The loop enters `AlarmInput`. -/
theorem Kept.alarmInput (hs : Kept s) {now later : Option Tm} (hi : s.input = .idle)
    (hl : s.thread.loop = .handling) (he : isAlarm s.thread.event = true) :
    Kept (s.handled now later) := by
  have hnext : s.thread.next (tOnEventFront now later) .loop =
      some (s.handled now later).thread := XLEventThread.next_dispatch hl (isAlarm_ne_exit he)
  have hlife := hs.life.next hnext (by simp) fun _ => ⟨by simp [hl], by simp [hl]⟩
  have halarm := s.scheduler.tOnEventFront_alarm now later s.thread.event
  have hout := debt_eq hs.life.inv
  have hhand : 0 < s.outstanding := by
    simp only [outstanding, XLEventThread.inHand, hl, List.singleton_append]
    rw [List.countP_cons_of_pos he]
    omega
  have hset : s.scheduler.alarmSet = true := hs.armed_of_debt (by omega)
  have hset' : (s.handled now later).scheduler.alarmSet = true := halarm.2.trans hset
  refine ⟨hlife, ⟨hs.stage.fresh, hs.stage.creating, hs.stage.started, by simp [handled], ?_⟩,
    hs.posting, Or.inr ⟨rfl, rfl⟩, ⟨fun hno => absurd (hno.symm.trans hset') (by decide), ?_⟩⟩
  · rw [hset']
    exact ⟨fun _ => hs.stage.armed.mp hset, fun _ => rfl⟩
  · intro _
    obtain ⟨hcreated, hnonneg, hcount⟩ := hs.accounts.after hset
    have hdebt : (s.handled now later).debt = s.debt + 1 := by
      simp only [debt, handled, hi, AlarmInputPc.owes, Nat.add_zero]
    have hdispatched : (s.handled now later).thread.dispatched.countP isAlarm =
        s.thread.dispatched.countP isAlarm + 1 := by
      simp only [handled, Calls.countP_concat, he, if_true]
    have havailable : (s.handled now later).available = s.available := by
      rw [available, available, show (s.handled now later).scheduler.alarmSem = _ from halarm.1]
    rw [hdebt, hdispatched, havailable]
    exact ⟨(congrArg XLSemaPhore.created halarm.1).trans hcreated, hnonneg, by push_cast; omega⟩

/-- The permit changes hands, and the event thread stays where it is. -/
theorem Kept.setAlarm (hs : Kept s) {c : CScheduler} {start : SchedulerStartPc} {alarm : AlarmPc}
    {input : AlarmInputPc} {ticks : Nat} (hstart : start = .started)
    (hcreated : s.thread.owner = .idle ∧ s.thread.created = true) (hrunning : s.thread.loop ≠ .off)
    (hposting : ∀ i, alarm = .posting i → i < s.thread.queue.puts.length)
    (hinput : input = .idle ∨ input = .giving ∧ s.thread.loop = .testing)
    (hset : c.alarmSet = true) (hsem : c.alarmSem.created = true)
    (hnonneg : 0 ≤ c.alarmSem.permits.available)
    (hcount : c.alarmSem.permits.available +
      ((alarm.owes + s.thread.queue.posted isAlarm + input.owes : Nat) : Int) =
        1 + s.thread.dispatched.countP isAlarm) :
    Kept { s.setScheduler c with
      start := start, alarm := alarm, input := input, ticks := ticks } where
  life := hs.life.setSelf c
  stage := by
    subst hstart
    exact ⟨nofun, nofun, fun _ => hcreated, fun _ => hrunning, fun _ => rfl, fun _ => hset⟩
  posting := hposting
  input := hinput
  accounts :=
    ⟨fun hno => absurd (hset.symm.trans hno) (by decide), fun _ => ⟨hsem, hnonneg, hcount⟩⟩

theorem Kept.arm (hs : Kept s) (hcreating : s.start = .creating) (howner : s.thread.owner = .idle) :
    Kept { s.setScheduler { s.scheduler with
        alarmSem := s.scheduler.alarmSem.create 0 1
        alarmSet := true } with
      start := .started } := by
  have hset : s.scheduler.alarmSet = false := by
    by_contra hset
    rw [Bool.not_eq_false, hs.stage.armed, hcreating] at hset
    cases hset
  obtain ⟨hunborn, hdebt⟩ := hs.accounts.before hset
  have hsem : s.scheduler.alarmSem.create 0 1 =
      { semCount := 0, maxCount := 1, created := true } := by
    simp [XLSemaPhore.create, hunborn]
  have hout := debt_eq hs.life.inv
  rw [hsem]
  refine hs.setAlarm rfl ⟨howner, hs.stage.creating hcreating howner⟩
    (hs.stage.running (by simp [hcreating])) hs.posting hs.input rfl rfl
    (by simp [XLSemaPhore.permits]) ?_
  show (1 : Int) - 0 + (s.debt : Int) = 1 + _
  omega

/-- `OnAlarm` takes the permit. -/
theorem Kept.alarmTake (hs : Kept s) {alarmSem : XLSemaPhore} (hset : s.scheduler.alarmSet = true)
    (ha : s.alarm = .idle) (htake : s.scheduler.alarmSem.take = some alarmSem) :
    Kept { s.setScheduler { s.scheduler with alarmSem := alarmSem } with
      alarm := .taken
      ticks := s.ticks + 1 } := by
  have hstart := hs.stage.armed.mp hset
  obtain ⟨hcreated, hnonneg, hcount⟩ := hs.accounts.after hset
  obtain ⟨hpass, rfl⟩ := XLSemaPhore.take_created hcreated htake
  rw [XLSemaPhore.passes_iff] at hpass
  simp only [available, debt, ha, AlarmPc.owes] at hcount
  refine hs.setAlarm hstart (hs.stage.started hstart) (hs.stage.running (by simp [hstart])) nofun
    hs.input hset hcreated ?_ ?_
  · simp only [XLSemaPhore.permits_raise]
    omega
  · simp only [XLSemaPhore.permits_raise, AlarmPc.owes, setScheduler]
    push_cast at hcount ⊢
    omega

/-- `AlarmInput` gives it back. -/
theorem Kept.alarmGive (hs : Kept s) (hi : s.input = .giving) :
    Kept { s.setScheduler { s.scheduler with alarmSem := s.scheduler.alarmSem.give } with
      input := .idle } := by
  have hset : s.scheduler.alarmSet = true := hs.armed_of_debt (by
    simp [debt, hi, AlarmInputPc.owes])
  have hstart := hs.stage.armed.mp hset
  obtain ⟨hcreated, hnonneg, hcount⟩ := hs.accounts.after hset
  simp only [available, debt, hi, AlarmInputPc.owes] at hnonneg hcount
  rw [XLSemaPhore.give, if_pos hcreated]
  refine hs.setAlarm hstart (hs.stage.started hstart) (hs.stage.running (by simp [hstart]))
    hs.posting (Or.inl rfl) hset hcreated ?_ ?_
  · simp only [XLSemaPhore.permits_lower]
    omega
  · simp only [XLSemaPhore.permits_lower, AlarmInputPc.owes, setScheduler]
    push_cast at hcount ⊢
    omega

/-- The event thread goes on, and the alarm and the ticks are as they were. -/
theorem Kept.of_thread (hs : Kept s) {tOnEvent : CScheduler → XLThreadEvent → CScheduler}
    {tl : EventThreadStep} {thread : XLEventThread CScheduler} {start : SchedulerStartPc}
    (hnext : s.thread.next tOnEvent tl = some thread)
    (htl : tl = .create ∨ tl = .owner ∨ tl = .loop)
    (hlate : tl = .loop → (s.thread.loop = .synced → s.thread.handle = true) ∧
      (s.thread.loop = .running → s.thread.created = true))
    (hstage : Stage { s with thread := thread, start := start })
    (hinput : s.input = .idle ∨ s.input = .giving ∧ thread.loop = .testing)
    (halarm : thread.self.alarmSem = s.scheduler.alarmSem ∧
      thread.self.alarmSet = s.scheduler.alarmSet)
    (hdispatched : thread.dispatched.countP isAlarm = s.thread.dispatched.countP isAlarm) :
    Kept { s with thread := thread, start := start } := by
  have hstill := hs.still hnext htl
  refine ⟨hs.life.next hnext (by rcases htl with rfl | rfl | rfl <;> simp) hlate, hstage,
    fun i hi => ?_, hinput, hs.accounts.congr halarm ?_ hdispatched⟩
  · dsimp only
    rw [hstill.puts]
    exact hs.posting i hi
  · simp only [debt, QueueRun.posted, QueueRun.unpushed, hstill.puts, hstill.pushed]

/-- `Start` calls `XLEventThread::Create`. -/
theorem Kept.start (hs : Kept s) {first second : Option Tm} {thread : XLEventThread CScheduler}
    (hfresh : s.start = .fresh)
    (hthread : XLEventThread.next (tOnEventFront none none)
      { s.thread with self := (s.scheduler.setCurrentTime first).setCurrentDay second } .create =
        some thread) : Kept { s with thread := thread, start := .creating } := by
  obtain ⟨howner, hcreated⟩ := hs.stage.fresh hfresh
  have hset : s.scheduler.alarmSet = false := by
    by_contra hset
    rw [Bool.not_eq_false, hs.stage.armed, hfresh] at hset
    cases hset
  have halarm : ((s.scheduler.setCurrentTime first).setCurrentDay second).alarmSem =
      s.scheduler.alarmSem ∧ ((s.scheduler.setCurrentTime first).setCurrentDay second).alarmSet =
      s.scheduler.alarmSet := by simp
  have hread : Kept (s.setScheduler ((s.scheduler.setCurrentTime first).setCurrentDay second)) :=
    ⟨hs.life.setSelf _, ⟨hs.stage.fresh, hs.stage.creating, hs.stage.started, hs.stage.running,
      (iff_of_eq (congrArg (· = true) halarm.2)).trans hs.stage.armed⟩, hs.posting, hs.input,
      hs.accounts.congr halarm rfl rfl⟩
  cases XLEventThread.moves_of_next hthread with
  | createTwice hc => exact absurd (hcreated.symm.trans hc) (by decide)
  | create ho hc =>
      refine hread.of_thread hthread (Or.inl rfl) nofun ⟨nofun, nofun, nofun, by simp, ?_⟩ ?_
        ⟨rfl, rfl⟩ rfl
      · rw [scheduler, halarm.2, hset]
        simp
      · refine Or.inl ((hs.input).resolve_right fun hgiving => ?_)
        have hdebt := (hs.accounts.before hset).2
        simp [debt, hgiving.1, AlarmInputPc.owes] at hdebt

theorem Kept.create (hs : Kept s) {thread : XLEventThread CScheduler}
    (hcreating : s.start = .creating)
    (hthread : s.thread.next (tOnEventFront none none) .owner = some thread) :
    Kept { s with thread := thread } := by
  obtain ⟨hself, hdispatched, hloop, hidle⟩ : thread.self = s.thread.self ∧
      thread.dispatched = s.thread.dispatched ∧ thread.loop = s.thread.loop ∧
      (thread.owner = .idle → thread.created = true) := by
    cases XLEventThread.moves_of_next hthread with
    | spawned | handled | given | undo | taking => exact ⟨rfl, rfl, rfl, nofun⟩
    | queued => exact ⟨rfl, rfl, rfl, fun _ => rfl⟩
    | joining ho => exact absurd ho (hs.life.up.1 _).2
    | joined ho => exact absurd ho hs.life.up.2
  refine hs.of_thread hthread (Or.inr (Or.inl rfl)) nofun ⟨?_, fun _ => hidle, ?_, ?_, ?_⟩ ?_
    ⟨by rw [hself]; rfl, by rw [hself]; rfl⟩ (by rw [hdispatched])
  · exact fun hfresh => absurd (hcreating.symm.trans hfresh) (by decide)
  · exact fun hstarted => absurd (hcreating.symm.trans hstarted) (by decide)
  · rw [show AlarmRun.thread _ = thread from rfl, hloop]
    exact hs.stage.running
  · rw [scheduler, hself]
    exact hs.stage.armed
  · rw [hloop]
    exact hs.input

/-- The loop goes on, elsewhere than into `AlarmInput`. -/
theorem Kept.loop (hs : Kept s) {now later : Option Tm} {thread : XLEventThread CScheduler}
    (hQ : KeepsTick s (.loop now later)) (hi : s.input = .idle)
    (hno : s.thread.loop = .handling → isAlarm s.thread.event = false)
    (hthread : s.thread.next (tOnEventFront now later) .loop = some thread) :
    Kept { s with thread := thread } := by
  obtain ⟨howner, hcreated, hoff⟩ := XLEventThread.loop_keeps hthread
  obtain ⟨halarm, hdispatched⟩ : (thread.self.alarmSem = s.scheduler.alarmSem ∧
      thread.self.alarmSet = s.scheduler.alarmSet) ∧
      thread.dispatched.countP isAlarm = s.thread.dispatched.countP isAlarm := by
    rcases XLEventThread.dispatch_or_quiet hthread with ⟨hself, hd⟩ | ⟨-, hl, -, rfl⟩
    · rw [hself, hd]
      exact ⟨⟨rfl, rfl⟩, rfl⟩
    · refine ⟨s.scheduler.tOnEventFront_alarm now later s.thread.event, ?_⟩
      simp only [Calls.countP_concat, hno hl, Bool.false_eq_true, if_false, Nat.add_zero]
  refine hs.of_thread hthread (Or.inr (Or.inr rfl)) (fun _ => hQ) ⟨?_, ?_, ?_, fun _ => hoff, ?_⟩
    (Or.inl hi) halarm hdispatched
  · rw [show AlarmRun.thread _ = thread from rfl, howner, hcreated]
    exact hs.stage.fresh
  · rw [show AlarmRun.thread _ = thread from rfl, howner, hcreated]
    exact hs.stage.creating
  · rw [show AlarmRun.thread _ = thread from rfl, howner, hcreated]
    exact hs.stage.started
  · rw [show AlarmRun.scheduler _ = thread.self from rfl, halarm.2]
    exact hs.stage.armed

/-- A call of `Put` or `Get` is under way on a queue that is created. -/
theorem Kept.queueMoves (hs : Kept s) {ql : QueueStep XLThreadEvent} {q : QueueRun XLThreadEvent}
    (hinside : ql.inside = true) (hq : s.thread.queue.next ql = some q) :
    QueueRun.Moves s.thread.queue ql q := by
  rcases hs.life.inv.kept.phase with ⟨hlive, -⟩ | hdown
  · exact QueueRun.moves_of_next hlive hq
  · rw [QueueRun.next_eq_none hinside hdown.puts hdown.gets] at hq
    cases hq

theorem Kept.queue (hs : Kept s) {ql : QueueStep XLThreadEvent} {q : QueueRun XLThreadEvent}
    (hinside : ql.inside = true) (hq : s.thread.queue.next ql = some q)
    (hroom : s.thread.queue.HasRoomFor isAlarm ql) :
    Kept { s with thread := { s.thread with queue := q } } := by
  have hmoves := hs.queueMoves hinside hq
  have hexclusive := hs.life.inv.kept.exclusive
  have hposted := (hmoves.posted hexclusive hinside).1 hroom
  have hlength := (hmoves.continues hexclusive hinside).putsLength
  have hnext : s.thread.next (tOnEventFront none none) (.queue ql) =
      some { s.thread with queue := q } := XLEventThread.next_queue hinside hq
  exact ⟨hs.life.next hnext (by simp [hinside]) nofun, ⟨hs.stage.fresh, hs.stage.creating,
    hs.stage.started, hs.stage.running, hs.stage.armed⟩, fun i hi => by
      rw [hlength]
      exact hs.posting i hi, hs.input,
    hs.accounts.congr ⟨rfl, rfl⟩ (by simp only [debt, hposted]) rfl⟩

theorem Moves.kept (h : Moves s l s') (hQ : KeepsTick s l) (hs : Kept s) : Kept s' := by
  cases h with
  | start hfresh hthread => exact hs.start hfresh hthread
  | create hcreating hthread => exact hs.create hcreating hthread
  | arm hcreating howner => exact hs.arm hcreating howner
  | alarmTake hset ha htake => exact hs.alarmTake hset ha htake
  | alarmPut ha => exact hs.alarmPut ha
  | alarmDone ha hi =>
      have hstage := hs.stage
      refine ⟨hs.life, ⟨hstage.fresh, hstage.creating, hstage.started, hstage.running,
        hstage.armed⟩, nofun, hs.input, hs.accounts.congr ⟨rfl, rfl⟩ ?_ rfl⟩
      simp only [debt, ha, AlarmPc.owes]
  | setJob he =>
      refine hs.put ?_ ?_
      · rw [isAlarm, he]
        decide
      · rw [he]
        decide
  | loop hi hno hthread => exact hs.loop hQ hi hno hthread
  | alarmInput hi hl he => exact hs.alarmInput hi hl he
  | nextDayDone hi =>
      rcases hs.input with hidle | ⟨hgiving, -⟩
      · rw [hidle] at hi
        cases hi
      · rw [hgiving] at hi
        cases hi
  | alarmGive hi => exact hs.alarmGive hi
  | queue hinside hq => exact hs.queue hinside hq hQ

end AlarmRun

end ServClient
