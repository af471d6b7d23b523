/-
A scheduler never does a job.

`SetJob` writes the time it has just constructed (`ServClient/Proofs/SchedulerJobs.lean`), so every
entry of `m_JobSet` is for 0:00:00 of day 0.  An alarm calls the jobs that are later than
`m_CurrentTime`, and no time is earlier than 0:00:00.  The other place that calls jobs is the
handler of an event that nobody posts.

So whatever the threads do, `DoTheJob` is not called.  What could fail is that some other event gets
into the queue; `Quiet` keeps that each comes from `OnAlarm` or from a call of `SetJob`.
-/
import ServClient.Proofs.AlarmTicks
import ServClient.Proofs.ScheduleTimes

namespace ServClient

open Runs

namespace CScheduler

variable {s s' : CScheduler} {calls : List (CScheduleTime × UInt64)}

/-! ### What is in `m_JobSet` -/

/-- What the calls of `SetJob` come to, each a time and a job. -/
def entries (calls : List (CScheduleTime × UInt64)) : List (CScheduleTime × UInt64) :=
  (calls.filter fun c => c.2 ≠ 0).map fun c => (CScheduleTime.new, c.2)

/-- The jobs of these calls are registered, and none has been done. -/
structure Holds (s : CScheduler) (calls : List (CScheduleTime × UInt64)) : Prop where
  done : s.done = []
  jobSet : ∀ d, s.jobSet d = if d = 0 then entries calls else []
  time : 0 ≤ s.currentTime.getDaySeconds

theorem Holds.congr (h : Holds s calls) (hdone : s'.done = s.done) (hjobSet : s'.jobSet = s.jobSet)
    (htime : s'.currentTime = s.currentTime) : Holds s' calls where
  done := hdone.trans h.done
  jobSet := hjobSet ▸ h.jobSet
  time := htime ▸ h.time

theorem Holds.setCurrentTime (h : Holds s calls) (now : Option Tm) :
    Holds (s.setCurrentTime now) calls := by
  cases now with
  | none => exact h
  | some now =>
      exact ⟨h.done, h.jobSet, (CScheduleTime.InRange.ofInt (s.whole now)).daySeconds.1⟩

theorem Holds.setCurrentDay (h : Holds s calls) (now : Option Tm) :
    Holds (s.setCurrentDay now) calls := by
  cases now <;> exact h.congr rfl rfl rfl

theorem holds_new (now : Option Tm) : Holds (new now) [] :=
  Holds.setCurrentTime ⟨rfl, fun d => by simp [entries], by decide⟩ now

/-- Every entry is for midnight. -/
theorem Holds.key (h : Holds s calls) {d : Int} {entry : CScheduleTime × UInt64}
    (hmem : entry ∈ s.jobSet d) : entry.1 = CScheduleTime.new := by
  rw [h.jobSet] at hmem
  split at hmem
  · obtain ⟨c, -, rfl⟩ := List.mem_map.mp hmem
    rfl
  · cases hmem

/-- No entry is later than `m_CurrentTime`. -/
theorem Holds.nothing_due (h : Holds s calls) (d : Int) (other : CScheduleTime) :
    (s.jobSet d).filter (fun e => e.1.gt s.currentTime && e.1.lt other) = [] := by
  refine List.filter_eq_nil_iff.mpr fun entry hmem hdue => ?_
  have hlate : entry.1.getDaySeconds > s.currentTime.getDaySeconds := by
    simpa [CScheduleTime.gt] using (Bool.and_eq_true_iff.mp hdue).1
  rw [h.key hmem, show CScheduleTime.new.getDaySeconds = 0 from rfl] at hlate
  exact absurd h.time (not_le.mpr hlate)

theorem Holds.alarmInputFront (h : Holds s calls) (now later : Option Tm) :
    Holds (s.alarmInputFront now later).1 calls := by
  have hread : Holds (s.setCurrentTimeOf now CScheduleTime.new).1 calls := by
    cases now <;> exact h.congr rfl rfl rfl
  unfold CScheduler.alarmInputFront
  dsimp only
  split
  · exact hread
  · rw [hread.nothing_due, hread.done]
    refine Holds.setCurrentTime ?_ later
    exact ⟨rfl, hread.jobSet, hread.time⟩

/-- What comes before nothing goes to the end. -/
theorem orderedInsert_last {α : Type} {r : α → α → Prop} [DecidableRel r] {a : α} {l : List α}
    (h : ∀ b ∈ l, ¬ r a b) : l.orderedInsert r a = l ++ [a] := by
  induction l with
  | nil => rfl
  | cons b rest ih =>
      rw [List.orderedInsert_cons, if_neg (h b List.mem_cons_self),
        ih fun c hc => h c (List.mem_cons_of_mem b hc), List.cons_append]

/-- A job for midnight goes behind the others. -/
theorem Holds.addAJob (h : Holds s calls) (t : CScheduleTime) (job : UInt64) :
    Holds (s.addAJob CScheduleTime.new job) (calls ++ [(t, job)]) := by
  have hentries : entries (calls ++ [(t, job)]) =
      entries calls ++ if job ≠ 0 then [(CScheduleTime.new, job)] else [] := by
    rw [entries, entries, List.filter_append, List.map_append]
    by_cases hjob : job = 0 <;> simp [hjob]
  unfold CScheduler.addAJob
  split
  · rename_i hjob
    refine ⟨h.done, fun d => ?_, h.time⟩
    dsimp only
    rw [if_pos hjob] at hentries
    by_cases hd : d = 0
    · have hlast : ∀ entry ∈ s.jobSet 0, ¬ CScheduleTime.new.lt entry.1 = true := by
        intro entry hmem
        rw [h.key hmem]
        decide
      rw [hd, if_pos rfl, hentries, show CScheduleTime.new.dow = 0 from rfl, Function.update_self,
        orderedInsert_last hlast, h.jobSet, if_pos rfl]
    · rw [if_neg hd, show CScheduleTime.new.dow = 0 from rfl, Function.update_of_ne hd, h.jobSet,
        if_neg hd]
  · rename_i hjob
    rw [if_neg hjob, List.append_nil] at hentries
    exact ⟨h.done, fun d => by rw [h.jobSet, hentries], h.time⟩

end CScheduler

namespace AlarmRun

open CScheduler (tOnEventFront isAlarm setJobEvent addAJobType)
open SchedulerRun (sundayAtTen)

variable {s s' : AlarmRun} {l : AlarmRunStep} {asked : CScheduleTime → UInt64 → Prop}
  {e : XLThreadEvent}

/-! ### Where the events come from -/

/-- The event of `OnAlarm`, or of a call of `SetJob`. -/
def Known (asked : CScheduleTime → UInt64 → Prop) (e : XLThreadEvent) : Prop :=
  e = CScheduler.alarmEvent ∨ ∃ t job, asked t job ∧ setJobEvent t job = some e

/-- The event of `SetJob`. -/
def isAddAJob (e : XLThreadEvent) : Bool := e.iType = addAJobType

/-- The calls of `SetJob` whose events have been handled, in that order. -/
def HandledCalls (s : AlarmRun) (calls : List (CScheduleTime × UInt64)) : Prop :=
  List.Forall₂ (fun e c => setJobEvent c.1 c.2 = some e) (s.thread.dispatched.filter isAddAJob)
    calls

/-- Every event is known, and the jobs of those handled are registered and not done. -/
structure Quiet (asked : CScheduleTime → UInt64 → Prop) (s : AlarmRun) : Prop where
  inv : s.thread.Inv
  puts : ∀ (i : Nat) (c : PutCall XLThreadEvent), s.thread.queue.puts[i]? = some c →
    Known asked c.event
  jobs : ∃ calls, (∀ c ∈ calls, asked c.1 c.2) ∧ HandledCalls s calls ∧ s.scheduler.Holds calls

theorem quiet_new (now : Option Tm) : Quiet asked (new now) where
  inv := XLEventThread.inv_new _
  puts := fun i c hi => by simp [new, XLEventThread.new, QueueRun.ofQueue] at hi
  jobs := ⟨[], by simp, List.Forall₂.nil, CScheduler.holds_new now⟩

/-- The event in hand has been put by somebody. -/
theorem Quiet.inHand (h : Quiet asked s) (hl : s.thread.loop = .handling) :
    Known asked s.thread.event := by
  obtain ⟨i, hi⟩ := h.inv.event_pushed hl
  obtain ⟨c, hc, hevent⟩ := h.inv.put_of_pushed (List.mem_of_getElem? hi)
  exact hevent ▸ h.puts i c hc

/-- The scheduler is written to, less the jobs and the time. -/
theorem Quiet.setScheduler (h : Quiet asked s) {c : CScheduler}
    (hc : ∀ calls, s.scheduler.Holds calls → c.Holds calls) : Quiet asked (s.setScheduler c) where
  inv := h.inv.setSelf c
  puts := h.puts
  jobs := by
    obtain ⟨calls, hasked, hhandled, hholds⟩ := h.jobs
    exact ⟨calls, hasked, hhandled, hc calls hholds⟩

theorem Quiet.put (h : Quiet asked s) (he : Known asked e) : Quiet asked (s.put e) where
  inv := by
    have hstep : s.thread.next (tOnEventFront none none) (.queue (.put e)) =
        some (s.put e).thread := rfl
    exact XLEventThread.inv_step h.inv hstep
  puts := by
    show ∀ (i : Nat) (c : PutCall XLThreadEvent),
      (s.thread.queue.callPut e).puts[i]? = some c → Known asked c.event
    exact Calls.forall_concat (P := fun _ (c : PutCall XLThreadEvent) => Known asked c.event) he
      h.puts
  jobs := h.jobs

/-- Nothing but the places of the threads changes. -/
theorem Quiet.places (h : Quiet asked s) (hthread : s'.thread = s.thread) : Quiet asked s' := by
  obtain ⟨inv, puts, jobs⟩ := h
  unfold HandledCalls scheduler at jobs
  rw [← hthread] at inv puts jobs
  exact ⟨inv, puts, jobs⟩

/-- What the handling of an event does to the jobs. -/
theorem holds_handled {c : CScheduler} {calls : List (CScheduleTime × UInt64)}
    (hc : c.Holds calls) (now later : Option Tm) :
    (e = CScheduler.alarmEvent → (c.tOnEventFront now later e).Holds calls) ∧
      ∀ t job, setJobEvent t job = some e →
        (c.tOnEventFront now later e).Holds (calls ++ [(t, job)]) := by
  constructor
  · rintro rfl
    rw [tOnEventFront,
      if_pos (show CScheduler.alarmEvent.iType = CScheduler.alarmInputType from rfl)]
    exact hc.alarmInputFront now later
  · intro t job he
    have htype : e.iType ≠ CScheduler.alarmInputType := by
      rw [CScheduler.setJobEvent_iType he]
      decide
    rw [tOnEventFront, if_neg htype, CScheduler.tOnEvent_setJob he]
    exact hc.addAJob t job

/-- The event thread goes on, and nothing comes in. -/
theorem Quiet.thread (h : Quiet asked s) {now later : Option Tm} {tl : EventThreadStep}
    {thread : XLEventThread CScheduler}
    (hthread : s.thread.next (tOnEventFront now later) tl = some thread)
    (hput : ∀ x, tl ≠ .queue (.put x)) (hstop : tl ≠ .stopMainLoop) :
    Quiet asked { s with thread := thread } where
  inv := XLEventThread.inv_step h.inv hthread
  puts := fun i c' hi => by
    obtain ⟨c, hc, hevent⟩ := (XLEventThread.flows h.inv hthread hput hstop).puts i c' hi
    rw [hevent]
    exact h.puts i c hc
  jobs := by
    obtain ⟨calls, hasked, hhandled, hholds⟩ := h.jobs
    rcases XLEventThread.dispatch_or_quiet hthread with ⟨hself, hdispatched⟩ | ⟨-, hl, -, rfl⟩
    · refine ⟨calls, hasked, ?_, ?_⟩
      · rw [HandledCalls, hdispatched]
        exact hhandled
      · rw [scheduler, hself]
        exact hholds
    · have hhandle := holds_handled (e := s.thread.event) hholds now later
      rcases h.inHand hl with halarm | ⟨t, job, hask, he⟩
      · refine ⟨calls, hasked, ?_, hhandle.1 halarm⟩
        have hother : ¬ isAddAJob s.thread.event = true := by
          rw [halarm]
          decide
        rw [HandledCalls, List.filter_append, List.filter_cons_of_neg hother, List.filter_nil,
          List.append_nil]
        exact hhandled
      · refine ⟨calls ++ [(t, job)], fun c hc => ?_, ?_, hhandle.2 t job he⟩
        · rcases List.mem_append.mp hc with hold | hnew
          · exact hasked c hold
          · rw [List.mem_singleton.mp hnew]
            exact hask
        · have hadd : isAddAJob s.thread.event = true := by
            rw [isAddAJob, CScheduler.setJobEvent_iType he]
            exact decide_eq_true rfl
          rw [HandledCalls, List.filter_append, List.filter_cons_of_pos hadd, List.filter_nil]
          exact List.rel_append hhandled (.cons he .nil)

theorem Quiet.next (h : Quiet asked s) (hl : ∀ t job, l = .setJob t job → asked t job)
    (hstep : s.next l = some s') : Quiet asked s' := by
  cases moves_of_next hstep with
  | @setJob t job e _ =>
      have hset : (setJobEvent t job).map s.put = some (s.put e) := hstep
      obtain ⟨e', he', heq⟩ := Option.map_eq_some_iff.mp hset
      rw [← heq]
      exact h.put (Or.inr ⟨t, job, hl t job rfl, he'⟩)
  | @start first second thread hfresh hthread =>
      have hread := h.setScheduler fun calls hcalls =>
        (hcalls.setCurrentTime first).setCurrentDay second
      exact (hread.thread hthread (by simp) (by simp)).places rfl
  | create hcreating hthread => exact h.thread hthread (by simp) (by simp)
  | arm | alarmTake | alarmGive =>
      refine Quiet.places (s := s.setScheduler _) ?_ rfl
      exact h.setScheduler fun calls hcalls => hcalls.congr rfl rfl rfl
  | alarmPut => exact (h.put (Or.inl rfl)).places rfl
  | alarmDone | nextDayDone => exact h.places rfl
  | loop hi hno hthread => exact h.thread hthread (by simp) (by simp)
  | @alarmInput now later hi hloop he =>
      have hthread : s.thread.next (tOnEventFront now later) .loop =
          some (s.handled now later).thread :=
        XLEventThread.next_dispatch hloop (isAlarm_ne_exit he)
      exact (h.thread hthread (by simp) (by simp)).places rfl
  | queue hinside hq =>
      have hthread : s.thread.next (tOnEventFront none none) (.queue _) = some _ :=
        XLEventThread.next_queue hinside hq
      refine h.thread hthread (fun x hx => ?_) (by simp)
      cases hx
      cases hinside

/--
In every run of a scheduler with its threads, whatever jobs are set for whatever times and however
often the alarm goes, no job is done; and what is registered are the jobs of the `SetJob` calls
whose events have been handled, in that order, all of them for 0:00:00 on day 0.
-/
theorem no_job_is_done (now : Option Tm) {ls : List AlarmRunStep}
    (hrun : exec next (new now) ls = some s) :
    s.scheduler.done = [] ∧
      ∃ calls, (∀ c ∈ calls, AlarmRunStep.setJob c.1 c.2 ∈ ls) ∧ HandledCalls s calls ∧
        ∀ d, s.scheduler.jobSet d = if d = 0 then CScheduler.entries calls else [] := by
  have hquiet : Quiet (fun t job => AlarmRunStep.setJob t job ∈ ls) s := by
    refine exec_invariant_along (Q := fun _ l => l ∈ ls) (fun u l v hu hl hstep => ?_)
      (quiet_new now) (along_of_forall fun l hl _ => hl) hrun
    refine hu.next (fun t job hlabel => ?_) hstep
    rw [← hlabel]
    exact hl
  obtain ⟨calls, hasked, hhandled, hholds⟩ := hquiet.jobs
  exact ⟨hholds.done, calls, hasked, hhandled, hholds.jobSet⟩

/-- A job between two ticks: its event is handled, and no tick calls it. -/
theorem no_job_is_done_twoTicks :
    ∃ s, exec next (new (some sundayAtTen.toTm)) twoTicks = some s ∧ s.ticks = 2 ∧
      s.scheduler.done = [] ∧
      ∃ calls, (∀ c ∈ calls, AlarmRunStep.setJob c.1 c.2 ∈ twoTicks) ∧ HandledCalls s calls ∧
        ∀ d, s.scheduler.jobSet d = if d = 0 then CScheduler.entries calls else [] := by
  obtain ⟨s, hs, hticks⟩ := (Option.any_eq_true _ _).mp
    (show (exec next (new (some sundayAtTen.toTm)) twoTicks).any (fun s => s.ticks = 2) = true by
      decide +kernel)
  exact ⟨s, hs, by simpa using hticks, no_job_is_done _ hs⟩

end AlarmRun

end ServClient
