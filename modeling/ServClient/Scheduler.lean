/-
`CScheduler` with its jobs, its clock and its alarm, and `CScheduleTime`.

What `localtime` returns is an input: `none` for null, else the four fields the scheduler
looks at.  `m_JobSet` is one list for each weekday, in the order of the multimap.  A job is
the address of a `CScheduledJobs`.

A step is one call of the owner, one of the two halves of `OnAlarm`, or the handling of one
event.  `Stop` is not among the steps, and `m_AlarmPeriodicity` is real time and left out.
-/
import ServClient.EventThread
import Mathlib.Data.List.Sort
import Mathlib.Logic.Function.Basic

namespace ServClient

/-! ### Times -/

/-- A time of day and a day of the week. -/
structure CScheduleTime where
  h : Int
  m : Int
  s : Int
  dow : Int
deriving DecidableEq, Repr

namespace CScheduleTime

/-- `CScheduleTime()`: midnight on a Sunday. -/
def new : CScheduleTime := { h := 0, m := 0, s := 0, dow := 0 }

/-- `SetHour`, which ignores what is no hour. -/
def setHour (t : CScheduleTime) (h : Int) : CScheduleTime :=
  if 0 ≤ h ∧ h < 24 then { t with h := h } else t

/-- `SetMinute`, and so for the minutes. -/
def setMinute (t : CScheduleTime) (m : Int) : CScheduleTime :=
  if 0 ≤ m ∧ m < 60 then { t with m := m } else t

/-- `SetSecond`, and for the seconds. -/
def setSecond (t : CScheduleTime) (s : Int) : CScheduleTime :=
  if 0 ≤ s ∧ s < 60 then { t with s := s } else t

/-- `CScheduleTime(int)`. -/
def ofInt (whole : Int) : CScheduleTime :=
  ((new.setHour (whole.tdiv 3600)).setMinute ((whole.tmod 3600).tdiv 60)).setSecond
    ((whole.tmod 3600).tmod 60)

/-- `GetDaySeconds`, which is also the conversion to `int`. -/
def getDaySeconds (t : CScheduleTime) : Int := t.h * 3600 + t.m * 60 + t.s

/-- `operator<`. -/
def lt (t other : CScheduleTime) : Bool := t.getDaySeconds < other.getDaySeconds

/-- `operator>`. -/
def gt (t other : CScheduleTime) : Bool := t.getDaySeconds > other.getDaySeconds

/-- `FullDay()`. -/
def fullDay : Int := 24 * 3600 + 60 * 60 + 0

/-- `GetTotalWriteLength()`. -/
def totalWriteLength : Int := 16

/-- The bytes of the object, as `Write` copies them. -/
def bytes (t : CScheduleTime) : List UInt8 :=
  Bytes.ofInt 4 t.h ++ Bytes.ofInt 4 t.m ++ Bytes.ofInt 4 t.s ++ Bytes.ofInt 4 t.dow

/-- The object `Read` copies its bytes to. -/
def ofBytes (bytes : List UInt8) : CScheduleTime where
  h := Bytes.toInt (bytes.take 4)
  m := Bytes.toInt ((bytes.drop 4).take 4)
  s := Bytes.toInt ((bytes.drop 8).take 4)
  dow := Bytes.toInt ((bytes.drop 12).take 4)

end CScheduleTime

/-- What `localtime` points to. -/
structure Tm where
  tmHour : Int
  tmMin : Int
  tmSec : Int
  tmWday : Int
deriving DecidableEq, Repr

/-- The seconds of the day. -/
def Tm.daySeconds (now : Tm) : Int := now.tmHour * 3600 + now.tmMin * 60 + now.tmSec

/-- A time of day and a weekday. -/
structure Tm.Valid (now : Tm) : Prop where
  hour : 0 ≤ now.tmHour ∧ now.tmHour < 24
  min : 0 ≤ now.tmMin ∧ now.tmMin < 60
  sec : 0 ≤ now.tmSec ∧ now.tmSec < 60
  wday : 0 ≤ now.tmWday ∧ now.tmWday < 7

instance (now : Tm) : Decidable now.Valid :=
  decidable_of_iff ((0 ≤ now.tmHour ∧ now.tmHour < 24) ∧ (0 ≤ now.tmMin ∧ now.tmMin < 60) ∧
      (0 ≤ now.tmSec ∧ now.tmSec < 60) ∧ 0 ≤ now.tmWday ∧ now.tmWday < 7)
    ⟨fun h => ⟨h.1, h.2.1, h.2.2.1, h.2.2.2⟩, fun h => ⟨h.hour, h.min, h.sec, h.wday⟩⟩

/-- A reading of the clock: `localtime` has succeeded. -/
structure Reading extends Tm where
  valid : toTm.Valid

/-! ### The scheduler -/

/-- The scheduler, with its jobs, its queue, and the readings it has taken of the clock. -/
structure CScheduler where
  /-- `mCreated`. -/
  created : Bool
  /-- `m_JobSet`. -/
  jobSet : Int → List (CScheduleTime × UInt64)
  currentDay : Int
  currentTime : CScheduleTime
  alarmSem : XLSemaPhore
  /-- `m_Alarm` is set. -/
  alarmSet : Bool
  /-- The queue of `XLEventQueue`. -/
  events : XLLFQ XLThreadEvent
  /-- What the clock has been read as, in order. -/
  readings : List Tm
  /-- The calls of `DoTheJob`, each with its time and its job. -/
  done : List (CScheduleTime × UInt64)

namespace CScheduler

/-- `START_PROCESSING`. -/
def startProcessingType : Int := eventThreadEventTypeMax + 1
/-- `RESET_INPUTS`. -/
def resetInputs : Int := startProcessingType + 1
/-- `ADD_A_JOB`. -/
def addAJobType : Int := resetInputs + 1
/-- `NEXT_DAY_INPUT`. -/
def nextDayInput : Int := addAJobType + 1
/-- `ALARM_INPUT`. -/
def alarmInputType : Int := nextDayInput + 1

/-- The seconds from the beginning of `m_CurrentDay`, as `SetCurrentTime` computes them. -/
def whole (s : CScheduler) (now : Tm) : Int :=
  now.tmHour * 3600 + now.tmMin * 60 + now.tmSec + (now.tmWday - s.currentDay) * 3600 * 24

/-- `SetCurrentTime()`. -/
def setCurrentTime (s : CScheduler) (now : Option Tm) : CScheduler :=
  match now with
  | none => s
  | some now =>
      { s with
        readings := s.readings ++ [now]
        currentTime := CScheduleTime.ofInt (s.whole now) }

/-- `SetCurrentTime(ct)`: the scheduler, and what is in `ct`. -/
def setCurrentTimeOf (s : CScheduler) (now : Option Tm) (ct : CScheduleTime) :
    CScheduler × CScheduleTime :=
  match now with
  | none => (s, ct)
  | some now => ({ s with readings := s.readings ++ [now] }, CScheduleTime.ofInt (s.whole now))

/-- `SetCurrentDay`; `none` is a `localtime` that fails. -/
def setCurrentDay (s : CScheduler) (now : Option Tm) : CScheduler :=
  match now with
  | none => s
  | some now => { s with readings := s.readings ++ [now], currentDay := now.tmWday }

/-- The constructor. -/
def new (now : Option Tm) : CScheduler :=
  setCurrentTime
    { created := false
      jobSet := fun _ => []
      currentDay := 0
      currentTime := CScheduleTime.new
      alarmSem := XLSemaPhore.new
      alarmSet := false
      events := XLLFQ.new
      readings := []
      done := [] } now

/-- `XLEventQueue::Put`. -/
def put (s : CScheduler) (e : XLThreadEvent) : CScheduler :=
  if s.created then { s with events := (s.events.push e).1 } else s

/-- `Start`, with what its two calls of `localtime` return. -/
def start (s : CScheduler) (first second : Option Tm) : CScheduler :=
  if s.created then s
  else
    let s := (s.setCurrentTime first).setCurrentDay second
    { s with
      created := true
      events := s.events.setMaxSize eventQueueConfigMaxSize
      alarmSem := s.alarmSem.create 0 1
      alarmSet := true }

/-- The event of `SetJob`.  What it writes is `time`, which is as it was constructed. -/
def setJobEvent (_t : CScheduleTime) (job : UInt64) : Option XLThreadEvent :=
  let time := CScheduleTime.new
  ((XLThreadEvent.new.setType addAJobType).write 0 time.bytes).bind fun r =>
    (r.1.write CScheduleTime.totalWriteLength (Bytes.ofNat 8 job.toNat)).map Prod.fst

/-- `SetJob`: the time and the job go into an event, and the event into the queue. -/
def setJob (s : CScheduler) (t : CScheduleTime) (job : UInt64) : Option CScheduler :=
  (setJobEvent t job).map s.put

/-- `AddAJob`.  An entry goes behind those with its key. -/
def addAJob (s : CScheduler) (time : CScheduleTime) (job : UInt64) : CScheduler :=
  if job ≠ 0 then
    { s with
      jobSet := Function.update s.jobSet time.dow
        ((s.jobSet time.dow).orderedInsert (fun a b => a.1.lt b.1) (time, job)) }
  else s

/-- `StartProcessing`. -/
def startProcessing (s : CScheduler) (t : CScheduleTime) : CScheduler :=
  let range := (s.jobSet s.currentDay).filter fun e => !e.1.lt t && !t.lt e.1
  { s with done := s.done ++ range.map fun e => (t, e.2) }

/-- The event of `OnAlarm`. -/
def alarmEvent : XLThreadEvent := XLThreadEvent.new.setType alarmInputType

/-- The event of `AlarmInput` at the end of a day. -/
def nextDayEvent : XLThreadEvent := XLThreadEvent.new.setType nextDayInput

/-- `AlarmInput`, with what `localtime` returns for `nowcsT` and at the end. -/
def alarmInput (s : CScheduler) (now later : Option Tm) : CScheduler :=
  let (s, nowcsT) := s.setCurrentTimeOf now CScheduleTime.new
  if CScheduleTime.fullDay ≤ nowcsT.getDaySeconds ∧
      s.currentTime.getDaySeconds < CScheduleTime.fullDay then
    { s.put nextDayEvent with alarmSem := s.alarmSem.give }
  else
    let due := (s.jobSet s.currentDay).filter fun e => e.1.gt s.currentTime && e.1.lt nowcsT
    let s := { s with done := s.done ++ due }.setCurrentTime later
    { s with alarmSem := s.alarmSem.give }

/-- `t_OnEvent`, with what `localtime` returns while it runs. -/
def tOnEvent (s : CScheduler) (e : XLThreadEvent) (now later : Option Tm) : CScheduler :=
  if e.iType = startProcessingType then
    s.startProcessing (((e.read 0 16).map CScheduleTime.ofBytes).getD CScheduleTime.new)
  else if e.iType = addAJobType then
    let time := ((e.read 0 16).map CScheduleTime.ofBytes).getD CScheduleTime.new
    let job := ((e.read CScheduleTime.totalWriteLength 8).map Bytes.toNat).getD 0
    s.addAJob time (UInt64.ofNat job)
  else if e.iType = nextDayInput then
    { s with currentDay := (s.currentDay + 1).tmod 7 }.setCurrentTime now
  else if e.iType = alarmInputType then s.alarmInput now later
  else s

end CScheduler

/-! ### Runs -/

/-- The scheduler, and whether its alarm thread is in `OnAlarm`. -/
structure SchedulerRun where
  scheduler : CScheduler
  /-- `OnAlarm` is between `m_AlarmSem.Take()` and `Put`. -/
  ticking : Bool

/-- A call of the scheduler's owner, half of an `OnAlarm`, or an event of its loop. -/
inductive SchedulerStep
  | start (first second : Reading)
  | alarmTake
  | alarmPut
  | setJob (t : CScheduleTime) (job : UInt64)
  /-- The loop takes an event and handles it; the clock is read as `now`, and then as `later`. -/
  | event (now later : Reading)

namespace SchedulerRun

/-- The constructor. -/
def new (now : Option Tm) : SchedulerRun := { scheduler := CScheduler.new now, ticking := false }

/-- One step.  `OnAlarm` waits for its permit, and the loop for an event. -/
def next (r : SchedulerRun) : SchedulerStep → Option SchedulerRun
  | .start first second =>
      some { r with scheduler := r.scheduler.start (some first.toTm) (some second.toTm) }
  | .alarmTake =>
      if r.scheduler.alarmSet ∧ r.ticking = false then
        r.scheduler.alarmSem.take.map fun alarmSem =>
          { scheduler := { r.scheduler with alarmSem := alarmSem }, ticking := true }
      else none
  | .alarmPut =>
      if r.ticking then
        some { scheduler := r.scheduler.put CScheduler.alarmEvent, ticking := false }
      else none
  | .setJob t job =>
      (r.scheduler.setJob t job).map fun scheduler => { r with scheduler := scheduler }
  | .event now later =>
      if r.scheduler.created then
        r.scheduler.events.pop.map fun p =>
          { r with
            scheduler := { r.scheduler with events := p.1 }.tOnEvent p.2 (some now.toTm)
              (some later.toTm) }
      else none

end SchedulerRun

end ServClient
