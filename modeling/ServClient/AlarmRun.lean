/-
A started `CScheduler` with its threads: the one that calls `Start`, the alarm thread in
`OnAlarm`, any threads that call `SetJob`, and the event loop.

`ServClient/Scheduler.lean` has a call as one step.  Here the event thread is
`XLEventThread` with every step of its `Put` and `Get` calls, and the permit of `m_AlarmSem`
changes hands where the code has it do so: `OnAlarm` is its `Take` and its `Put`, and
`AlarmInput` is what comes before its `Put` or its `Give`, that `Put`, and the `Give`.  The
handler of any other event is one step.

The fields of `CScheduler` are used less `created` and `events`, since the event thread has
its own.  `Stop` is not among the steps.

That the alarm thread calls `OnAlarm` again whenever it has returned is assumed.  `XLAlarm` would
have to call it, and the gate of its own keeps it from doing so (`ServClient/Alarm.lean`); what is
shown here holds of however many calls there are.
-/
import ServClient.Scheduler

namespace ServClient

namespace CScheduler

/-- `AlarmInput` up to the `Put` of the `NEXT_DAY_INPUT`, where it has one, and else up to the
`Give`: the scheduler, and whether there is that `Put`. -/
def alarmInputFront (s : CScheduler) (now later : Option Tm) : CScheduler × Bool :=
  let (s, nowcsT) := s.setCurrentTimeOf now CScheduleTime.new
  if CScheduleTime.fullDay ≤ nowcsT.getDaySeconds ∧
      s.currentTime.getDaySeconds < CScheduleTime.fullDay then (s, true)
  else
    let due := (s.jobSet s.currentDay).filter fun e => e.1.gt s.currentTime && e.1.lt nowcsT
    ({ s with done := s.done ++ due }.setCurrentTime later, false)

/-- `t_OnEvent`, as far as the loop gets in one step. -/
def tOnEventFront (now later : Option Tm) (s : CScheduler) (e : XLThreadEvent) : CScheduler :=
  if e.iType = alarmInputType then (s.alarmInputFront now later).1
  else s.tOnEvent e now later

end CScheduler

/-- Where the call of `Start` is. -/
inductive SchedulerStartPc
  | fresh
  /-- In `XLEventThread::Create`. -/
  | creating
  /-- The alarm is set. -/
  | started
deriving DecidableEq, Repr

/-- Where the alarm thread is. -/
inductive AlarmPc
  | idle
  /-- In `OnAlarm`, past `m_AlarmSem.Take()`. -/
  | taken
  /-- In `Put` call `i`. -/
  | posting (i : Nat)
deriving DecidableEq, Repr

/-- Where the event loop is in `AlarmInput`. -/
inductive AlarmInputPc
  | idle
  /-- In `Put` call `i`, with the `NEXT_DAY_INPUT`. -/
  | posting (i : Nat)
  /-- About to give `m_AlarmSem`. -/
  | giving
deriving DecidableEq, Repr

/-- The scheduler in its event thread, and where the threads around it are. -/
structure AlarmRun where
  thread : XLEventThread CScheduler
  start : SchedulerStartPc
  alarm : AlarmPc
  input : AlarmInputPc
  /-- How many calls of `OnAlarm` have come past their `Take`. -/
  ticks : Nat

/-- What can happen next in any of the threads. -/
inductive AlarmRunStep
  /-- Some thread calls `Start`; the clock is read twice. -/
  | start (first second : Option Tm)
  /-- `XLEventThread::Create` goes on. -/
  | create
  /-- The rest of `Start`. -/
  | arm
  /-- `OnAlarm` takes the permit. -/
  | alarmTake
  | alarmPut
  /-- `Put` has returned, and `OnAlarm` does. -/
  | alarmDone
  /-- Some thread calls `SetJob`. -/
  | setJob (t : CScheduleTime) (job : UInt64)
  /-- The event loop goes on; where it handles an event the clock is read as `now` and `later`. -/
  | loop (now later : Option Tm)
  /-- The `Put` of `AlarmInput` has returned. -/
  | nextDayDone
  /-- `AlarmInput` gives the permit and returns. -/
  | alarmGive
  | queue (l : QueueStep XLThreadEvent)

namespace AlarmRun

open CScheduler (tOnEventFront)

/-- The constructor. -/
def new (now : Option Tm) : AlarmRun where
  thread := XLEventThread.new (CScheduler.new now)
  start := .fresh
  alarm := .idle
  input := .idle
  ticks := 0

/-- The scheduler less its event thread. -/
def scheduler (s : AlarmRun) : CScheduler := s.thread.self

/-- The fields of `CScheduler` are written. -/
def setScheduler (s : AlarmRun) (c : CScheduler) : AlarmRun :=
  { s with thread := { s.thread with self := c } }

/-- Some thread calls `Put(&e)`. -/
def put (s : AlarmRun) (e : XLThreadEvent) : AlarmRun :=
  { s with thread := { s.thread with queue := s.thread.queue.callPut e } }

/-- `Put` call `i` has returned. -/
def putReturned (s : AlarmRun) (i : Nat) : Bool :=
  s.thread.queue.puts[i]?.any fun c => match c.pc with
    | .returned _ => true
    | _ => false

/-- The loop is about to call `AlarmInput`. -/
def callsAlarmInput (s : AlarmRun) : Bool :=
  s.thread.loop = .handling && s.thread.event.iType = CScheduler.alarmInputType

/-- Past the first part of `AlarmInput`. -/
def enterAlarmInput (s : AlarmRun) (nextDay : Bool) : AlarmRun :=
  if nextDay then
    { s.put CScheduler.nextDayEvent with input := .posting s.thread.queue.puts.length }
  else { s with input := .giving }

/-- One step of one thread; `none` where that thread has to wait, or is somewhere else. -/
def next (s : AlarmRun) : AlarmRunStep → Option AlarmRun
  | .start first second =>
      if s.start = .fresh then
        let s := s.setScheduler ((s.scheduler.setCurrentTime first).setCurrentDay second)
        (s.thread.next (tOnEventFront none none) .create).map fun thread =>
          { s with thread := thread, start := .creating }
      else none
  | .create =>
      if s.start = .creating then
        (s.thread.next (tOnEventFront none none) .owner).map fun thread =>
          { s with thread := thread }
      else none
  | .arm =>
      if s.start = .creating ∧ s.thread.owner = .idle then
        some { s.setScheduler { s.scheduler with
            alarmSem := s.scheduler.alarmSem.create 0 1
            alarmSet := true } with
          start := .started }
      else none
  | .alarmTake =>
      if s.scheduler.alarmSet = true ∧ s.alarm = .idle then
        s.scheduler.alarmSem.take.map fun alarmSem =>
          { s.setScheduler { s.scheduler with alarmSem := alarmSem } with
            alarm := .taken
            ticks := s.ticks + 1 }
      else none
  | .alarmPut =>
      if s.alarm = .taken then
        some { s.put CScheduler.alarmEvent with alarm := .posting s.thread.queue.puts.length }
      else none
  | .alarmDone =>
      match s.alarm with
      | .posting i => if s.putReturned i then some { s with alarm := .idle } else none
      | _ => none
  | .setJob t job => (CScheduler.setJobEvent t job).map s.put
  | .loop now later =>
      if s.input = .idle then
        (s.thread.next (tOnEventFront now later) .loop).map fun thread =>
          if s.callsAlarmInput then
            { s with thread := thread }.enterAlarmInput (s.scheduler.alarmInputFront now later).2
          else { s with thread := thread }
      else none
  | .nextDayDone =>
      match s.input with
      | .posting i => if s.putReturned i then some { s with input := .giving } else none
      | _ => none
  | .alarmGive =>
      if s.input = .giving then
        some { s.setScheduler { s.scheduler with alarmSem := s.scheduler.alarmSem.give } with
          input := .idle }
      else none
  | .queue l =>
      if l.inside then
        (s.thread.next (tOnEventFront none none) (.queue l)).map fun thread =>
          { s with thread := thread }
      else none

end AlarmRun

end ServClient
