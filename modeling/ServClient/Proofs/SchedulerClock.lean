/-
Whether a scheduler's day and time are those of the clock.

`Start` takes the time before it takes the day, so the time is counted from the day there
was before, and what is a day or more loses its hour (`StartsExact`).  After that
`m_CurrentDay` does not move: no time reaches `FullDay()`, so no `NEXT_DAY_INPUT` is ever
posted.  An alarm whose last reading is on another day leaves the two apart.

`m_AlarmSem` lets one `ALARM_INPUT` be outstanding, so while one is handled none is pending.
-/
import ServClient.Lib.Runs
import ServClient.Proofs.LockFreeQueue
import ServClient.Proofs.Scheduler

namespace ServClient

open Runs

/-! ### Start

`Start` sets the time before the day, so that its first reading counts from the day the object had
before.
-/

namespace CScheduler

variable {s : CScheduler} {e : XLThreadEvent}

/-- The day and the time are those of the latest reading. -/
def Tracks (s : CScheduler) : Prop :=
  ∃ now, s.readings.getLast? = some now ∧ s.currentDay = now.tmWday ∧
    s.currentTime.getDaySeconds = now.daySeconds

/-- What is left of the first reading, counted from `day`, is the time of the second. -/
def StartsExact (day : Int) (first second : Tm) : Prop :=
  (first.tmWday = day ∧ first.daySeconds = second.daySeconds) ∨
    (day < first.tmWday ∧ first.daySeconds % 3600 = second.daySeconds) ∨
    (first.tmWday < day ∧ second.daySeconds = 0)

instance (day : Int) (first second : Tm) : Decidable (StartsExact day first second) :=
  inferInstanceAs (Decidable (_ ∨ _ ∨ _))

theorem startsExact_iff {first second : Tm} (h : first.Valid) :
    StartsExact s.currentDay first second ↔
      (CScheduleTime.ofInt (s.whole first)).getDaySeconds = second.daySeconds := by
  obtain ⟨hnonneg, hlt⟩ := h.daySeconds
  rw [whole_eq, StartsExact]
  rcases lt_trichotomy first.tmWday s.currentDay with hbefore | hsame | hafter
  · rw [CScheduleTime.getDaySeconds_of_neg (by omega)]
    omega
  · rw [hsame, Int.sub_self, Int.zero_mul, Int.add_zero,
      CScheduleTime.getDaySeconds_of_nonneg hnonneg, if_pos hlt]
    omega
  · rw [CScheduleTime.getDaySeconds_of_nonneg (by omega), if_neg (by omega)]
    omega

/-- `Start` of a scheduler that is not created. -/
theorem start_eq (hc : s.created = false) (first second : Tm) :
    s.start (some first) (some second) =
      { s with
        readings := s.readings ++ [first] ++ [second]
        currentTime := CScheduleTime.ofInt (s.whole first)
        currentDay := second.tmWday
        created := true
        events := s.events.setMaxSize eventQueueConfigMaxSize
        alarmSem := s.alarmSem.create 0 1
        alarmSet := true } := by
  unfold start
  rw [if_neg (by rw [hc]; decide)]
  rfl

theorem tracks_start_iff (hc : s.created = false) {first second : Tm} (h : first.Valid) :
    (s.start (some first) (some second)).Tracks ↔ StartsExact s.currentDay first second := by
  rw [startsExact_iff h, start_eq hc, Tracks]
  simp

/-! ### The events -/

/-- The event of `OnAlarm`. -/
def isAlarm (e : XLThreadEvent) : Bool := e.iType = alarmInputType

/-- `Put` of a scheduler's event: it is pending, or nothing has changed. -/
theorem put_eq (s : CScheduler) (e : XLThreadEvent) :
    ∃ events, s.put e = { s with events := events } ∧
      (events.pending = s.events.pending ∨
        s.created = true ∧ events.pending = s.events.pending ++ [e]) := by
  unfold put
  split
  · rename_i hc
    refine ⟨_, rfl, ?_⟩
    by_cases hroom : s.events.pending.length < s.events.maxSize
    · exact Or.inr ⟨hc, (XLLFQ.push_room hroom e).2⟩
    · exact Or.inl (XLLFQ.push_full hroom e).2
  · exact ⟨s.events, rfl, Or.inl rfl⟩

theorem setData_iType (e : XLThreadEvent) (data : Option (List UInt8)) (length : Int) :
    (e.setData data length).iType = e.iType := by
  unfold XLThreadEvent.setData
  cases data with
  | none => rfl
  | some bytes =>
      dsimp only
      split <;> rfl

theorem addData_iType (e : XLThreadEvent) (data : Option (List UInt8)) (length : Int) :
    (e.addData data length).iType = e.iType := by
  unfold XLThreadEvent.addData
  split
  · split
    · rfl
    · exact setData_iType _ _ _
  · exact setData_iType _ _ _

theorem write_iType {e : XLThreadEvent} {place : Int} {input : List UInt8}
    {r : XLThreadEvent × Bool} (h : e.write place input = some r) : r.1.iType = e.iType := by
  unfold XLThreadEvent.write XLThreadEvent.poke at h
  split at h
  · obtain ⟨e', he', rfl⟩ := Option.map_eq_some_iff.mp h
    obtain ⟨bytes, -, rfl⟩ := Option.map_eq_some_iff.mp he'
    rfl
  · split at h
    · cases h
      exact addData_iType _ _ _
    · cases h
      rfl

/-- `SetJob` posts an `ADD_A_JOB`. -/
theorem setJobEvent_iType {t : CScheduleTime} {job : UInt64} (h : setJobEvent t job = some e) :
    e.iType = addAJobType := by
  unfold setJobEvent at h
  obtain ⟨r, hr, hsecond⟩ := Option.bind_eq_some_iff.mp h
  obtain ⟨r', hr', rfl⟩ := Option.map_eq_some_iff.mp hsecond
  rw [write_iType hr', write_iType hr]
  rfl

/-- Other events leave the clock alone. -/
theorem tOnEvent_other (s : CScheduler) (halarm : e.iType ≠ alarmInputType)
    (hnext : e.iType ≠ nextDayInput) (now later : Option Tm) :
    ∃ jobSet done, s.tOnEvent e now later = { s with jobSet := jobSet, done := done } := by
  unfold tOnEvent
  split
  · exact ⟨s.jobSet, _, rfl⟩
  · split
    · unfold addAJob
      dsimp only
      split
      · exact ⟨_, s.done, rfl⟩
      · exact ⟨s.jobSet, s.done, rfl⟩
    · exact ⟨s.jobSet, s.done, rfl⟩

end CScheduler

namespace SchedulerRun

open CScheduler (isAlarm Tracks StartsExact)

variable {r r' : SchedulerRun} {l : SchedulerStep}

/-! ### What one step can do -/

/-- What one step can do, with what it finds. -/
inductive Moves (r : SchedulerRun) : SchedulerStep → SchedulerRun → Prop
  | start {first second} (hc : r.scheduler.created = false) :
      Moves r (.start first second)
        { r with scheduler := r.scheduler.start (some first.toTm) (some second.toTm) }
  | startTwice {first second} (hc : r.scheduler.created = true) :
      Moves r (.start first second) r
  | alarmTake {alarmSem} (hset : r.scheduler.alarmSet = true) (hidle : r.ticking = false)
      (htake : r.scheduler.alarmSem.take = some alarmSem) :
      Moves r .alarmTake
        { scheduler := { r.scheduler with alarmSem := alarmSem }, ticking := true }
  | alarmPut (htick : r.ticking = true) :
      Moves r .alarmPut { scheduler := r.scheduler.put CScheduler.alarmEvent, ticking := false }
  | setJob {t job e} (he : e.iType = CScheduler.addAJobType) :
      Moves r (.setJob t job) { r with scheduler := r.scheduler.put e }
  | alarm {now later events e} (hc : r.scheduler.created = true)
      (hpop : r.scheduler.events.pending = e :: events.pending)
      (he : e.iType = CScheduler.alarmInputType) :
      Moves r (.event now later) { r with scheduler := { r.scheduler with
        events := events
        readings := r.scheduler.readings ++ [now.toTm] ++ [later.toTm]
        done := r.scheduler.done ++ r.scheduler.due now.toTm
        currentTime := CScheduleTime.ofInt (r.scheduler.whole later.toTm)
        alarmSem := r.scheduler.alarmSem.give } }
  | nextDay {now later e} (hmem : e ∈ r.scheduler.events.pending)
      (he : e.iType = CScheduler.nextDayInput) (r') : Moves r (.event now later) r'
  | event {now later events e jobSet done} (hc : r.scheduler.created = true)
      (hpop : r.scheduler.events.pending = e :: events.pending)
      (he : e.iType ≠ CScheduler.alarmInputType) :
      Moves r (.event now later) { r with scheduler := { r.scheduler with
        events := events, jobSet := jobSet, done := done } }

theorem moves_of_next (h : r.next l = some r') : Moves r l r' := by
  cases l with
  | start first second =>
      simp only [next, Option.some.injEq] at h
      subst h
      cases hc : r.scheduler.created with
      | false => exact .start hc
      | true =>
          rw [CScheduler.start, if_pos hc]
          exact .startTwice hc
  | alarmTake =>
      simp only [next] at h
      split at h
      · rename_i hset
        obtain ⟨alarmSem, htake, rfl⟩ := Option.map_eq_some_iff.mp h
        exact .alarmTake hset.1 hset.2 htake
      · cases h
  | alarmPut =>
      simp only [next] at h
      split at h
      · rename_i htick
        cases h
        exact .alarmPut htick
      · cases h
  | setJob t job =>
      simp only [next, CScheduler.setJob] at h
      obtain ⟨scheduler, hset, rfl⟩ := Option.map_eq_some_iff.mp h
      obtain ⟨e, he, rfl⟩ := Option.map_eq_some_iff.mp hset
      exact .setJob (CScheduler.setJobEvent_iType he)
  | event now later =>
      simp only [next] at h
      split at h
      · rename_i hc
        obtain ⟨⟨events, e⟩, hpop, rfl⟩ := Option.map_eq_some_iff.mp h
        have hpending := XLLFQ.pop_eq_some hpop
        by_cases halarm : e.iType = CScheduler.alarmInputType
        · dsimp only
          rw [CScheduler.tOnEvent_alarm _ halarm, CScheduler.alarmInput_eq]
          exact .alarm hc hpending halarm
        by_cases hnext : e.iType = CScheduler.nextDayInput
        · exact .nextDay (by rw [hpending]; exact List.mem_cons_self) hnext _
        · obtain ⟨jobSet, done, heq⟩ := CScheduler.tOnEvent_other
            { r.scheduler with events := events } halarm hnext (some now.toTm) (some later.toTm)
          dsimp only
          rw [heq]
          exact .event hc hpending halarm
      · cases h

/-! ### One alarm at a time

There is one tick at a time: the permit is in the semaphore, or the tick that has it is on its way.
-/

/-- The outstanding `ALARM_INPUT`, on its way or pending. -/
def ticks (r : SchedulerRun) : Nat :=
  r.scheduler.events.pending.countP isAlarm + if r.ticking then 1 else 0

/-- The permit of `m_AlarmSem` is there, or there is one tick that will give it back. -/
structure Ticks (r : SchedulerRun) : Prop where
  idle : r.scheduler.created = false → r.scheduler.events.pending = [] ∧
    r.scheduler.alarmSem.created = false ∧ r.scheduler.alarmSet = false ∧ r.ticking = false
  sem : r.scheduler.created = true →
    r.scheduler.alarmSem.created = true ∧ r.scheduler.alarmSem.maxCount = 1
  permit : r.scheduler.created = true →
    (r.ticks : Int) ≤ r.scheduler.alarmSem.semCount ∧ r.scheduler.alarmSem.semCount ≤ 1
  noNextDay : ∀ e ∈ r.scheduler.events.pending, e.iType ≠ CScheduler.nextDayInput

theorem ticks_new (now : Option Tm) : Ticks (new now) := by
  have hnew : (new now).scheduler.created = false ∧ (new now).scheduler.events.pending = [] ∧
      (new now).scheduler.alarmSem.created = false ∧ (new now).scheduler.alarmSet = false := by
    cases now <;> exact ⟨rfl, rfl, rfl, rfl⟩
  obtain ⟨hc, hpending, hsem, hset⟩ := hnew
  refine ⟨fun _ => ⟨hpending, hsem, hset, rfl⟩, fun h => ?_, fun h => ?_, ?_⟩
  · rw [hc] at h
    cases h
  · rw [hc] at h
    cases h
  · rw [hpending]
    simp

/-- A `Put` of the alarm's thread or of `SetJob`. -/
theorem Ticks.put (h : Ticks r) {e : XLThreadEvent} {ticking : Bool}
    (he : e.iType ≠ CScheduler.nextDayInput) (hnot : ticking = true → r.ticking = true)
    (hticks : (if isAlarm e then 1 else 0) + (if ticking then 1 else 0) ≤
      if r.ticking then 1 else 0) :
    Ticks { scheduler := r.scheduler.put e, ticking := ticking } := by
  obtain ⟨events, heq, hpending⟩ := r.scheduler.put_eq e
  rw [heq]
  refine ⟨fun hc => ?_, h.sem, fun hc => ?_, ?_⟩
  · obtain ⟨hnil, hsem, hset, hidle⟩ := h.idle hc
    refine ⟨?_, hsem, hset, ?_⟩
    · rcases hpending with hsame | ⟨hcreated, -⟩
      · rw [hsame, hnil]
      · rw [hc] at hcreated
        cases hcreated
    · rw [← Bool.not_eq_true]
      intro htick
      rw [hnot htick] at hidle
      cases hidle
  · obtain ⟨hle, hone⟩ := h.permit hc
    refine ⟨?_, hone⟩
    rw [ticks] at hle ⊢
    dsimp only
    rcases hpending with hsame | ⟨-, happend⟩
    · rw [hsame]
      omega
    · rw [happend, List.countP_append, List.countP_singleton]
      omega
  · rcases hpending with hsame | ⟨-, happend⟩
    · rw [hsame]
      exact h.noNextDay
    · rw [happend]
      intro e' he'
      rcases List.mem_append.mp he' with hold | hnew
      · exact h.noNextDay e' hold
      · rw [List.mem_singleton.mp hnew]
        exact he

theorem Ticks.pop (h : Ticks r) {events : XLLFQ XLThreadEvent} {e : XLThreadEvent}
    (hpop : r.scheduler.events.pending = e :: events.pending) :
    (events.pending.countP isAlarm + (if isAlarm e then 1 else 0)) + (if r.ticking then 1 else 0) =
      r.ticks ∧ ∀ e ∈ events.pending, e.iType ≠ CScheduler.nextDayInput := by
  refine ⟨?_, fun e' he' => h.noNextDay e' (by rw [hpop]; exact List.mem_cons_of_mem _ he')⟩
  rw [ticks, hpop, List.countP_cons]

theorem Moves.ticks (hmoves : Moves r l r') (h : Ticks r) : Ticks r' := by
  cases hmoves with
  | startTwice => exact h
  | @start first second hc =>
      obtain ⟨hnil, hsem, hset, hidle⟩ := h.idle hc
      have hpending : (r.scheduler.events.setMaxSize eventQueueConfigMaxSize).pending = [] := hnil
      rw [CScheduler.start_eq hc]
      have hcreate : r.scheduler.alarmSem.create 0 1 =
          { semCount := 0, maxCount := 1, created := true } := by
        rw [XLSemaPhore.create, if_neg (by rw [hsem]; decide)]
      refine ⟨(fun hc' => by cases hc'), (fun _ => by rw [hcreate]; exact ⟨rfl, rfl⟩),
        fun _ => ?_, ?_⟩
      · rw [SchedulerRun.ticks, hidle, hcreate]
        dsimp only
        rw [hpending]
        exact ⟨Int.le_refl 0, by decide⟩
      · dsimp only
        rw [hpending]
        simp
  | alarmTake hset hidle htake =>
      have hc : r.scheduler.created = true := by
        by_contra hc
        have hno := (h.idle (by simpa using hc)).2.2.1
        rw [hset] at hno
        cases hno
      obtain ⟨hsem, hmax⟩ := h.sem hc
      obtain ⟨hle, -⟩ := h.permit hc
      rw [XLSemaPhore.take, if_pos hsem] at htake
      split at htake
      · rename_i hpass
        cases htake
        refine ⟨fun hc' => ?_, fun _ => ⟨hsem, hmax⟩, fun _ => ?_, h.noNextDay⟩
        · rw [show r.scheduler.created = false from hc'] at hc
          cases hc
        · rw [SchedulerRun.ticks, hidle] at hle
          unfold XLSemaPhore.Passes at hpass
          rw [SchedulerRun.ticks]
          simp only [XLSemaPhore.raise, if_true, Bool.false_eq_true, if_false] at hle ⊢
          omega
      · cases htake
  | alarmPut htick =>
      exact h.put (by decide) (fun hf => by cases hf) (by rw [htick]; decide)
  | setJob he =>
      refine h.put (by rw [he]; decide) id ?_
      rw [isAlarm, he]
      exact Nat.le_of_eq (Nat.zero_add _)
  | nextDay hmem he => exact absurd he (h.noNextDay _ hmem)
  | @alarm now later events e hc hpop he =>
      obtain ⟨hticks, hno⟩ := h.pop hpop
      obtain ⟨hsem, hmax⟩ := h.sem hc
      obtain ⟨hle, hone⟩ := h.permit hc
      have hgive : r.scheduler.alarmSem.give = r.scheduler.alarmSem.lower := if_pos hsem
      rw [show isAlarm e = true by simp [isAlarm, he]] at hticks
      refine ⟨fun hc' => ?_, fun _ => by rw [hgive]; exact ⟨hsem, hmax⟩, fun _ => ?_, hno⟩
      · rw [show r.scheduler.created = false from hc'] at hc
        cases hc
      · rw [SchedulerRun.ticks, hgive]
        simp only [XLSemaPhore.lower, if_true] at hticks ⊢
        omega
  | @event now later events e jobSet done hc hpop he =>
      obtain ⟨hticks, hno⟩ := h.pop hpop
      obtain ⟨hle, hone⟩ := h.permit hc
      refine ⟨fun hc' => ?_, h.sem, fun _ => ⟨?_, hone⟩, hno⟩
      · rw [show r.scheduler.created = false from hc'] at hc
        cases hc
      · rw [show isAlarm e = false by simp [isAlarm, he]] at hticks
        rw [SchedulerRun.ticks]
        simp only [Bool.false_eq_true, if_false, Nat.add_zero] at hticks ⊢
        omega

/-! ### Whole runs -/

/-- With no `ALARM_INPUT` or `NEXT_DAY_INPUT` pending, the day and the time are the latest ones. -/
def TracksClock (r : SchedulerRun) : Prop :=
  r.scheduler.created = true →
    (∀ e ∈ r.scheduler.events.pending, e.iType ≠ CScheduler.alarmInputType ∧
      e.iType ≠ CScheduler.nextDayInput) →
    Tracks r.scheduler

/-- If this step is the first `Start`, what is left of its first reading is the time of its
second; if it handles an alarm, its last reading is on the day `m_CurrentDay`. -/
def OnTime (r : SchedulerRun) : SchedulerStep → Prop
  | .start first second => r.scheduler.created = false →
      StartsExact r.scheduler.currentDay first.toTm second.toTm
  | .event _ later => (r.scheduler.events.pending.head?.any isAlarm) = true →
      later.tmWday = r.scheduler.currentDay
  | _ => True

instance (r : SchedulerRun) : ∀ l, Decidable (OnTime r l)
  | .start first second => inferInstanceAs (Decidable (_ → StartsExact _ first.toTm second.toTm))
  | .event _ later => inferInstanceAs (Decidable (_ → later.tmWday = r.scheduler.currentDay))
  | .alarmTake | .alarmPut | .setJob _ _ => isTrue trivial

theorem Moves.tracks (hmoves : Moves r l r') (h : Ticks r) (hQ : OnTime r l)
    (ht : r.scheduler.created = true → Tracks r.scheduler)
    (hc' : r'.scheduler.created = true) : Tracks r'.scheduler := by
  cases hmoves with
  | start hc => exact (CScheduler.tracks_start_iff hc (Reading.valid _)).mpr (hQ hc)
  | startTwice hc => exact ht hc
  | alarmTake => exact ht hc'
  | alarmPut | setJob =>
      obtain ⟨events, heq, -⟩ := r.scheduler.put_eq _
      rw [heq] at hc' ⊢
      exact ht hc'
  | @alarm now later events e hc hpop he =>
      have hday := hQ (by rw [hpop]; simp [isAlarm, he])
      exact ⟨later.toTm, by simp, hday.symm, CScheduler.ofInt_whole later.valid hday⟩
  | nextDay hmem he => exact absurd he (h.noNextDay _ hmem)
  | event hc => exact ht hc

/-- A first `Start` or an alarm that is not on time leaves the clock behind. -/
theorem Moves.untracked (hmoves : Moves r l r') (h : Ticks r) (hQ : ¬ OnTime r l) :
    ¬ TracksClock r' := by
  intro htracks
  cases hmoves with
  | @start first second hc =>
      have hnil : (r.scheduler.start (some first.toTm) (some second.toTm)).events.pending = [] := by
        rw [CScheduler.start_eq hc]
        exact (h.idle hc).1
      have hcreated : (r.scheduler.start (some first.toTm) (some second.toTm)).created = true := by
        rw [CScheduler.start_eq hc]
      exact hQ fun _ => (CScheduler.tracks_start_iff hc first.valid).mp
        (htracks hcreated (by rw [hnil]; simp))
  | startTwice hc => exact hQ fun hno => absurd (hc.symm.trans hno) (by decide)
  | alarmTake | alarmPut | setJob => exact hQ trivial
  | @alarm now later events e hc hpop he =>
      obtain ⟨hticks, hno⟩ := h.pop hpop
      obtain ⟨hle, hone⟩ := h.permit hc
      rw [show isAlarm e = true by simp [isAlarm, he], if_pos rfl] at hticks
      have hnone : events.pending.countP isAlarm = 0 := by omega
      rw [List.countP_eq_zero] at hnone
      obtain ⟨latest, hlast, hday, -⟩ := htracks hc fun e' he' =>
        ⟨by simpa [isAlarm] using hnone e' he', hno e' he'⟩
      have hlatest : latest = later.toTm := by simpa using hlast.symm
      exact hQ fun _ => by rw [← hlatest]; exact hday.symm
  | nextDay hmem he => exact absurd he (h.noNextDay _ hmem)
  | @event now later events e jobSet done hc hpop he =>
      exact hQ fun halarm => absurd halarm (by rw [hpop]; simp [isAlarm, he])

/-- Once there is a day, it stays. -/
theorem Moves.currentDay (hmoves : Moves r l r') (h : Ticks r) (hc : r.scheduler.created = true) :
    r'.scheduler.created = true ∧ r'.scheduler.currentDay = r.scheduler.currentDay := by
  cases hmoves with
  | start hc' =>
      rw [hc] at hc'
      cases hc'
  | startTwice => exact ⟨hc, rfl⟩
  | alarmTake | alarm | event => exact ⟨hc, rfl⟩
  | alarmPut | setJob =>
      obtain ⟨events, heq, -⟩ := r.scheduler.put_eq _
      rw [heq]
      exact ⟨hc, rfl⟩
  | nextDay hmem he => exact absurd he (h.noNextDay _ hmem)

/-- The day of a created scheduler is that of its `Start`, however many days go by. -/
theorem day_never_advances (h : Ticks r) (hc : r.scheduler.created = true)
    {ls : List SchedulerStep} (hrun : exec next r ls = some r') :
    r'.scheduler.currentDay = r.scheduler.currentDay :=
  (exec_invariant (I := fun u => Ticks u ∧ u.scheduler.created = true ∧
      u.scheduler.currentDay = r.scheduler.currentDay)
    (fun u l u' hu hstep => by
      have hmoves := moves_of_next hstep
      obtain ⟨hc', hday⟩ := hmoves.currentDay hu.1 hu.2.1
      exact ⟨hmoves.ticks hu.1, hc', hday.trans hu.2.2⟩) ⟨h, hc, rfl⟩ hrun).2.2

/--
A scheduler's day and time follow the clock throughout a run exactly if its `Start` is exact and
the last reading of every alarm is on the day `m_CurrentDay`.
-/
theorem tracks_clock_iff (now : Option Tm) {ls : List SchedulerStep}
    (hrun : exec next (new now) ls = some r) :
    Throughout next TracksClock (new now) ls ↔ Along next OnTime (new now) ls := by
  have hnew : (new now).scheduler.created = false := by cases now <;> rfl
  exact throughout_iff_along
    (I := fun u => Ticks u ∧ (u.scheduler.created = true → Tracks u.scheduler))
    (fun u hu hc _ => hu.2 hc)
    (fun u l u' hu hQ hstep =>
      have hmoves := moves_of_next hstep
      ⟨hmoves.ticks hu.1, hmoves.tracks hu.1 hQ hu.2⟩)
    (fun u l u' hu hQ hstep => (moves_of_next hstep).untracked hu.1 hQ)
    ⟨ticks_new now, fun hc => absurd (hnew.symm.trans hc) (by decide)⟩ hrun

/-- A full hour. -/
def oClock (hour wday : Int) : Tm := { tmHour := hour, tmMin := 0, tmSec := 0, tmWday := wday }

/-- The day a new scheduler takes it for. -/
def sundayAtTen : Reading := ⟨oClock 10 0, by decide⟩
/-- A day later. -/
def mondayAtTen : Reading := ⟨oClock 10 1, by decide⟩
/-- And the day after that, an hour earlier. -/
def tuesdayAtNine : Reading := ⟨oClock 9 2, by decide⟩

/-- A start, and one alarm. -/
def startThenAlarm (first second : Reading) : List SchedulerStep :=
  [.start first first, .alarmTake, .alarmPut, .event second second]

theorem tracks_clock_iff_sunday :
    Throughout next TracksClock (new sundayAtTen.toTm)
      (startThenAlarm sundayAtTen sundayAtTen) := by
  obtain ⟨r, hr, -⟩ := (Option.any_eq_true _ _).mp
    (show (exec next (new sundayAtTen.toTm) (startThenAlarm sundayAtTen sundayAtTen)).any
      (fun r => r.scheduler.created) = true by decide)
  exact (tracks_clock_iff sundayAtTen.toTm hr).mpr (by decide)

/-- The state is quiet and its day and time are these. -/
def stands (r : SchedulerRun) (day seconds : Int) : Bool :=
  r.scheduler.created && r.scheduler.events.pending == [] && r.scheduler.currentDay == day &&
    r.scheduler.currentTime.getDaySeconds == seconds

theorem not_tracks_of_stands {day seconds : Int} {now : Tm} (h : r.stands day seconds = true)
    (hlast : r.scheduler.readings.getLast? = some now)
    (hne : now.tmWday ≠ day ∨ now.daySeconds ≠ seconds) : ¬ TracksClock r := by
  simp only [stands, Bool.and_eq_true, beq_iff_eq] at h
  obtain ⟨⟨⟨hc, hnil⟩, hday⟩, hseconds⟩ := h
  intro htracks
  obtain ⟨latest, hlatest, htday, htime⟩ := htracks hc (by rw [hnil]; simp)
  cases hlast.symm.trans hlatest
  rcases hne with hne | hne
  · exact hne (htday.symm.trans hday)
  · exact hne (htime.symm.trans hseconds)

/-- Started on Monday at ten, a scheduler is at midnight.  An alarm on Tuesday morning leaves it
on Monday. -/
theorem monday_start_loses_the_hour :
    ∃ r r', exec next (new mondayAtTen.toTm) [.start mondayAtTen mondayAtTen] = some r ∧
      r.stands 1 0 = true ∧ ¬ TracksClock r ∧
      exec next (new mondayAtTen.toTm) (startThenAlarm mondayAtTen tuesdayAtNine) = some r' ∧
      r'.stands 1 0 = true ∧ ¬ TracksClock r' := by
  obtain ⟨r, hr, hstands⟩ := (Option.any_eq_true _ _).mp
    (show (exec next (new mondayAtTen.toTm) [.start mondayAtTen mondayAtTen]).any
      (fun r => r.stands 1 0 && r.scheduler.readings.getLast? == some mondayAtTen.toTm) = true
      by decide)
  obtain ⟨r', hr', hstands'⟩ := (Option.any_eq_true _ _).mp
    (show (exec next (new mondayAtTen.toTm) (startThenAlarm mondayAtTen tuesdayAtNine)).any
      (fun r => r.stands 1 0 && r.scheduler.readings.getLast? == some tuesdayAtNine.toTm) = true
      by decide)
  rw [Bool.and_eq_true, beq_iff_eq] at hstands hstands'
  exact ⟨r, r', hr, hstands.1, not_tracks_of_stands hstands.1 hstands.2 (Or.inr (by decide)), hr',
    hstands'.1, not_tracks_of_stands hstands'.1 hstands'.2 (Or.inl (by decide))⟩

end SchedulerRun

end ServClient
