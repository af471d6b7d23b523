/-
Which jobs a scheduler runs on one day.

Each `ALARM_INPUT` runs the jobs strictly between `m_CurrentTime` and the time it reads
first, and then sets `m_CurrentTime` to the time it reads second.  So the handlings of a
day are a row of windows, and a job that falls on the first of these times, on the second
or between them is in none.
-/
import ServClient.Scheduler
import ServClient.Lib.Windows
import Mathlib.Tactic.Ring

namespace ServClient

open Windows

/-! ### Times -/

namespace CScheduleTime

/-- The fields of `CScheduleTime(int)`: what is out of range is left at zero. -/
theorem getDaySeconds_ofInt (whole : Int) : (ofInt whole).getDaySeconds =
    (if 0 ≤ whole.tdiv 3600 ∧ whole.tdiv 3600 < 24 then whole.tdiv 3600 else 0) * 3600 +
      (if 0 ≤ (whole.tmod 3600).tdiv 60 ∧ (whole.tmod 3600).tdiv 60 < 60 then
        (whole.tmod 3600).tdiv 60 else 0) * 60 +
      (if 0 ≤ (whole.tmod 3600).tmod 60 ∧ (whole.tmod 3600).tmod 60 < 60 then
        (whole.tmod 3600).tmod 60 else 0) := by
  simp only [ofInt, setHour, setMinute, setSecond, getDaySeconds, new]
  split <;> split <;> split <;> rfl

/-- Before the day begins there is nothing left of the time. -/
theorem getDaySeconds_of_neg {whole : Int} (h : whole < 0) : (ofInt whole).getDaySeconds = 0 := by
  obtain ⟨n, rfl⟩ : ∃ n : Int, whole = -n := ⟨-whole, by omega⟩
  have hn : 0 ≤ n := by omega
  rw [getDaySeconds_ofInt, Int.neg_tdiv, Int.neg_tmod, Int.neg_tdiv, Int.neg_tmod,
    Int.tdiv_eq_ediv_of_nonneg hn, Int.tmod_eq_emod_of_nonneg hn,
    Int.tdiv_eq_ediv_of_nonneg (Int.emod_nonneg n (by decide)),
    Int.tmod_eq_emod_of_nonneg (Int.emod_nonneg n (by decide))]
  split <;> split <;> split <;> omega

/-- From the next day on the hour is lost. -/
theorem getDaySeconds_of_nonneg {whole : Int} (h : 0 ≤ whole) : (ofInt whole).getDaySeconds =
    if whole < 86400 then whole else whole % 3600 := by
  rw [getDaySeconds_ofInt, Int.tdiv_eq_ediv_of_nonneg h, Int.tmod_eq_emod_of_nonneg h,
    Int.tdiv_eq_ediv_of_nonneg (Int.emod_nonneg whole (by decide)),
    Int.tmod_eq_emod_of_nonneg (Int.emod_nonneg whole (by decide))]
  split <;> split <;> split <;> split <;> omega

/-- No time reaches `FullDay()`. -/
theorem getDaySeconds_ofInt_lt (whole : Int) : (ofInt whole).getDaySeconds < fullDay := by
  rcases lt_or_ge whole 0 with hneg | hnonneg
  · rw [getDaySeconds_of_neg hneg]
    decide
  · rw [getDaySeconds_of_nonneg hnonneg, fullDay]
    split <;> omega

end CScheduleTime

theorem Tm.Valid.daySeconds {now : Tm} (h : now.Valid) :
    0 ≤ now.daySeconds ∧ now.daySeconds < 86400 := by
  obtain ⟨hhour, hmin, hsec, -⟩ := h
  rw [Tm.daySeconds]
  omega

namespace CScheduler

variable {s : CScheduler} {now later : Tm}

theorem whole_eq (s : CScheduler) (now : Tm) :
    s.whole now = now.daySeconds + (now.tmWday - s.currentDay) * 86400 := by
  rw [whole, Tm.daySeconds]
  ring

/-- On the day `m_CurrentDay` the clock is read as it is. -/
theorem ofInt_whole (hnow : now.Valid) (hday : now.tmWday = s.currentDay) :
    (CScheduleTime.ofInt (s.whole now)).getDaySeconds = now.daySeconds := by
  obtain ⟨hnonneg, hlt⟩ := hnow.daySeconds
  rw [whole_eq, hday, Int.sub_self, Int.zero_mul, Int.add_zero,
    CScheduleTime.getDaySeconds_of_nonneg hnonneg, if_pos hlt]

/-! ### One alarm -/

/-- The entries one alarm calls, where the clock is first read as `now`. -/
def due (s : CScheduler) (now : Tm) : List (CScheduleTime × UInt64) :=
  (s.jobSet s.currentDay).filter fun e =>
    e.1.gt s.currentTime && e.1.lt (CScheduleTime.ofInt (s.whole now))

/-- The branch that would post `NEXT_DAY_INPUT` is never taken. -/
theorem alarmInput_eq (s : CScheduler) (now later : Tm) :
    s.alarmInput (some now) (some later) =
      { s with
        readings := s.readings ++ [now] ++ [later]
        done := s.done ++ s.due now
        currentTime := CScheduleTime.ofInt (s.whole later)
        alarmSem := s.alarmSem.give } := by
  have hno : ¬ (CScheduleTime.fullDay ≤ (CScheduleTime.ofInt (s.whole now)).getDaySeconds ∧
      s.currentTime.getDaySeconds < CScheduleTime.fullDay) := fun h =>
    absurd h.1 (not_le.mpr (CScheduleTime.getDaySeconds_ofInt_lt (s.whole now)))
  exact if_neg hno

theorem tOnEvent_alarm (s : CScheduler) {e : XLThreadEvent} (he : e.iType = alarmInputType)
    (now later : Option Tm) : s.tOnEvent e now later = s.alarmInput now later := by
  rw [tOnEvent, if_neg (by rw [he]; decide), if_neg (by rw [he]; decide),
    if_neg (by rw [he]; decide), if_pos he]

/-- A reading on the day `m_CurrentDay`. -/
def OnDay (s : CScheduler) (now : Tm) : Prop := now.Valid ∧ now.tmWday = s.currentDay

instance (s : CScheduler) (now : Tm) : Decidable (s.OnDay now) :=
  inferInstanceAs (Decidable (now.Valid ∧ now.tmWday = s.currentDay))

theorem count_due (hnow : s.OnDay now) (e : CScheduleTime × UInt64) : (s.due now).count e =
    (s.jobSet s.currentDay).count e *
      if s.currentTime.getDaySeconds < e.1.getDaySeconds ∧ e.1.getDaySeconds < now.daySeconds then 1
      else 0 := by
  have hdue : s.due now = (s.jobSet s.currentDay).filter fun e =>
      decide (s.currentTime.getDaySeconds < e.1.getDaySeconds ∧
        e.1.getDaySeconds < now.daySeconds) := by
    refine List.filter_congr fun e _ => ?_
    rw [CScheduleTime.gt, CScheduleTime.lt, ofInt_whole hnow.1 hnow.2, Bool.decide_and]
  rw [hdue]
  split
  · rename_i hin
    rw [List.count_filter (by simpa using hin), Nat.mul_one]
  · rename_i hout
    rw [Nat.mul_zero, List.count_eq_zero]
    exact fun hmem => hout (by simpa using (List.mem_filter.mp hmem).2)

/-! ### The alarms of one day

An alarm calls what is due between two readings of the clock, and the next one starts from the last
reading.  A job on a reading, or between the two readings of one alarm, is in no window.
-/

/-- The handling of several `ALARM_INPUT` events, with what the clock is read as in each. -/
def alarmInputs (s : CScheduler) (rs : List (Tm × Tm)) : CScheduler :=
  rs.foldl (fun s r => s.tOnEvent alarmEvent (some r.1) (some r.2)) s

/-- The two times of each handling. -/
def times (rs : List (Tm × Tm)) : List (Int × Int) :=
  rs.map fun r => (r.1.daySeconds, r.2.daySeconds)

/-- Of the jobs of the day, those after `m_CurrentTime` and up to the last reading have been
called once for each entry, and the others have not. -/
def RunsOnce (s : CScheduler) (rs : List (Tm × Tm)) : Prop :=
  ∃ calls, (s.alarmInputs rs).done = s.done ++ calls ∧ ∀ e : CScheduleTime × UInt64,
    calls.count e =
      if s.currentTime.getDaySeconds < e.1.getDaySeconds ∧
          e.1.getDaySeconds ≤ lastTime s.currentTime.getDaySeconds (times rs) then
        (s.jobSet s.currentDay).count e
      else 0

/-- The calls are one for each entry and each window it is in. -/
theorem done_alarmInputs (s : CScheduler) {rs : List (Tm × Tm)}
    (hday : ∀ r ∈ rs, s.OnDay r.1 ∧ s.OnDay r.2) :
    ∃ calls, (s.alarmInputs rs).done = s.done ++ calls ∧ ∀ e : CScheduleTime × UInt64,
      calls.count e = (s.jobSet s.currentDay).count e *
        hits s.currentTime.getDaySeconds (times rs) e.1.getDaySeconds := by
  induction rs generalizing s with
  | nil => exact ⟨[], (List.append_nil _).symm, fun e => rfl⟩
  | cons r rest ih =>
      obtain ⟨hnow, hlater⟩ := hday r List.mem_cons_self
      have hstep := (s.tOnEvent_alarm (e := alarmEvent) rfl (some r.1) (some r.2)).trans
        (alarmInput_eq s r.1 r.2)
      obtain ⟨calls, hdone, hcount⟩ := ih (s.tOnEvent alarmEvent (some r.1) (some r.2)) (by
        rw [hstep]
        exact fun r' hr' => hday r' (List.mem_cons_of_mem _ hr'))
      refine ⟨s.due r.1 ++ calls, ?_, fun e => ?_⟩
      · show (alarmInputs (s.tOnEvent alarmEvent (some r.1) (some r.2)) rest).done = _
        rw [hdone, hstep, List.append_assoc]
      · rw [List.count_append, count_due hnow, hcount, hstep,
          show times (r :: rest) = (r.1.daySeconds, r.2.daySeconds) :: times rest from rfl, hits,
          Nat.mul_add]
        simp only [ofInt_whole hlater.1 hlater.2]

/--
Over any number of alarms on one day, every job runs once at its time if and only if no job falls
on a reading of the clock or between the two readings of one alarm.
-/
theorem runs_once_iff (s : CScheduler) {rs : List (Tm × Tm)}
    (hday : ∀ r ∈ rs, s.OnDay r.1 ∧ s.OnDay r.2)
    (horder : InOrder s.currentTime.getDaySeconds (times rs)) :
    s.RunsOnce rs ↔ ∀ e ∈ s.jobSet s.currentDay,
      s.currentTime.getDaySeconds < e.1.getDaySeconds → ∀ r ∈ rs,
        ¬ (r.1.daySeconds ≤ e.1.getDaySeconds ∧ e.1.getDaySeconds ≤ r.2.daySeconds) := by
  have hgap : ∀ k, InGap (times rs) k ↔ ∃ r ∈ rs, r.1.daySeconds ≤ k ∧ k ≤ r.2.daySeconds := by
    intro k
    simp [InGap, times]
  obtain ⟨calls, hdone, hcount⟩ := s.done_alarmInputs hday
  constructor
  · rintro ⟨calls', hdone', honce⟩ e he ht r hr hin
    have hcalls : calls' = calls := List.append_cancel_left (hdone'.symm.trans hdone)
    have hpos : 0 < (s.jobSet s.currentDay).count e := List.count_pos_iff.mpr he
    have heq := honce e
    rw [hcalls, hcount] at heq
    refine (horder.hits_eq_iff.mp ?_) ht ((hgap _).mpr ⟨r, hr, hin⟩)
    split at heq <;> rename_i hlast
    · rw [if_pos hlast]
      exact Nat.eq_of_mul_eq_mul_left hpos (heq.trans (Nat.mul_one _).symm)
    · rw [if_neg hlast]
      exact (Nat.mul_eq_zero.mp heq).resolve_left (Nat.ne_of_gt hpos)
  · intro hno
    refine ⟨calls, hdone, fun e => ?_⟩
    rw [hcount]
    by_cases he : e ∈ s.jobSet s.currentDay
    · rw [horder.hits_eq_iff.mpr fun ht hin => ?_]
      · split
        · exact Nat.mul_one _
        · exact Nat.mul_zero _
      · obtain ⟨r, hr, hbetween⟩ := (hgap _).mp hin
        exact hno e he ht r hr hbetween
    · rw [List.count_eq_zero.mpr he, Nat.zero_mul, ite_self]

/-- Wednesday at midnight, with two entries of one job at 00:01:40. -/
def wednesday : CScheduler :=
  { new none with
    created := true
    currentDay := 3
    jobSet := fun d => if d = 3 then [(⟨0, 1, 40, 3⟩, 8), (⟨0, 1, 40, 3⟩, 8)] else [] }

/-- A time on Wednesday. -/
def wednesdayAt (m s : Int) : Tm := { tmHour := 0, tmMin := m, tmSec := s, tmWday := 3 }

theorem runs_once_iff_wednesday : wednesday.RunsOnce
    [(wednesdayAt 1 30, wednesdayAt 1 31), (wednesdayAt 2 0, wednesdayAt 2 0)] :=
  (runs_once_iff wednesday (by decide) (by decide)).mpr (by decide)

/-- The clock is read as 00:01:40 both times, and at the next alarm that minute is past. -/
theorem job_on_a_reading_never_runs :
    InOrder wednesday.currentTime.getDaySeconds
      (times [(wednesdayAt 1 40, wednesdayAt 1 40), (wednesdayAt 3 20, wednesdayAt 3 20)]) ∧
    (wednesday.alarmInputs
      [(wednesdayAt 1 40, wednesdayAt 1 40), (wednesdayAt 3 20, wednesdayAt 3 20)]).done = [] ∧
    ¬ wednesday.RunsOnce
      [(wednesdayAt 1 40, wednesdayAt 1 40), (wednesdayAt 3 20, wednesdayAt 3 20)] := by
  have hnone : (wednesday.alarmInputs
      [(wednesdayAt 1 40, wednesdayAt 1 40), (wednesdayAt 3 20, wednesdayAt 3 20)]).done = [] := by
    decide
  refine ⟨by decide, hnone, ?_⟩
  rintro ⟨calls, hdone, hcount⟩
  rw [hnone] at hdone
  have hcalls : calls = [] := (List.append_eq_nil_iff.mp hdone.symm).2
  have hjob := hcount (⟨0, 1, 40, 3⟩, 8)
  rw [hcalls] at hjob
  exact absurd hjob (by decide)

end CScheduler

end ServClient
