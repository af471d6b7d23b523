/-
What `SetJob` has a scheduler do.

Its event goes through the queue and comes out whole, and the time and the job are read where they
were written.  But the time that was written is one `SetJob` has just constructed, not the one
it was given.
-/
import ServClient.Proofs.EventFields
import ServClient.Proofs.SchedulerClock
import Mathlib.Data.List.Infix

namespace ServClient

open Runs

namespace XLThreadEvent

variable {e : XLThreadEvent} {p : List UInt8}

/-- `Write` of a value at the end of the payload. -/
theorem Stores.write_end (h : e.Stores p) {v : List UInt8} (hne : v ≠ [])
    (hfits : IsInt ((p.length : Int) + v.length)) :
    ∃ e', e.write p.length v = some (e', false) ∧ e'.Stores (p ++ v) := by
  obtain ⟨e', hwrite, hstores⟩ := h.writeField_end (f := ⟨p.length, v, false, hne, hfits⟩) rfl
  exact ⟨e', hwrite, hstores⟩

end XLThreadEvent

namespace CScheduleTime

@[simp] theorem length_bytes (t : CScheduleTime) : t.bytes.length = 16 := by simp [bytes]

theorem ofBytes_bytes_new : ofBytes new.bytes = new := by decide

end CScheduleTime

namespace CScheduler

variable {s : CScheduler} {e : XLThreadEvent}

/-! ### The event and its handling -/

/-- The event holds a time that is as it was constructed, and the job behind it. -/
theorem setJobEvent_eq (t : CScheduleTime) (job : UInt64) :
    ∃ e, setJobEvent t job = some e ∧
      e.Stores (CScheduleTime.new.bytes ++ Bytes.ofNat 8 job.toNat) := by
  have hempty : (XLThreadEvent.new.setType addAJobType).Stores [] :=
    ⟨rfl, fun hne => absurd rfl hne⟩
  obtain ⟨e₁, htime, hstores₁⟩ := hempty.write_end (v := CScheduleTime.new.bytes)
    (List.ne_nil_of_length_eq_add_one (CScheduleTime.length_bytes _)) (by decide)
  have hlen : (([] ++ CScheduleTime.new.bytes).length : Int) = CScheduleTime.totalWriteLength := by
    decide
  have hne : Bytes.ofNat 8 job.toNat ≠ [] :=
    List.ne_nil_of_length_eq_add_one (Bytes.length_ofNat 8 job.toNat)
  obtain ⟨e₂, hjob, hstores₂⟩ := hstores₁.write_end hne (by
    rw [hlen, Bytes.length_ofNat]
    decide)
  rw [hlen] at hjob
  refine ⟨e₂, ?_, hstores₂⟩
  have hfirst : (XLThreadEvent.new.setType addAJobType).write 0 CScheduleTime.new.bytes =
      some (e₁, false) := htime
  simp only [setJobEvent, hfirst, Option.bind_some, hjob, Option.map_some]

/-- Handling it adds the job at that time. -/
theorem tOnEvent_setJob {t : CScheduleTime} {job : UInt64} (h : setJobEvent t job = some e)
    (s : CScheduler) (now later : Option Tm) :
    s.tOnEvent e now later = s.addAJob CScheduleTime.new job := by
  obtain ⟨e', he', hstores⟩ := setJobEvent_eq t job
  obtain rfl : e' = e := Option.some.inj (he'.symm.trans h)
  have htime : e'.read 0 16 = some CScheduleTime.new.bytes := by
    rw [hstores.read (by decide) ⟨Int.le_refl 0, by simp⟩]
    exact congrArg some (List.take_left' (CScheduleTime.length_bytes _))
  have hjob : e'.read CScheduleTime.totalWriteLength 8 = some (Bytes.ofNat 8 job.toNat) := by
    rw [hstores.read (by decide) ⟨by decide, by simp [CScheduleTime.totalWriteLength]⟩]
    have hdrop : (CScheduleTime.new.bytes ++ Bytes.ofNat 8 job.toNat).drop
        CScheduleTime.totalWriteLength.toNat = Bytes.ofNat 8 job.toNat :=
      List.drop_left' (CScheduleTime.length_bytes _)
    rw [hdrop, List.take_of_length_le (by simp)]
  have htype := setJobEvent_iType h
  have hstart : addAJobType ≠ startProcessingType := by decide
  have hlt : job.toNat < 256 ^ 8 := job.toNat_lt
  rw [tOnEvent, if_neg (by rw [htype]; exact hstart), if_pos htype]
  simp only [htime, hjob, Option.map_some, Option.getD_some, CScheduleTime.ofBytes_bytes_new,
    Bytes.toNat_ofNat hlt, UInt64.ofNat_toNat]

/-- One entry more on the day of a job, and the other days as they were. -/
def Registers (before after : CScheduler) (t : CScheduleTime) (job : UInt64) : Prop :=
  (after.jobSet t.dow).Perm ((t, job) :: before.jobSet t.dow) ∧
    ∀ d, d ≠ t.dow → after.jobSet d = before.jobSet d

theorem addAJob_registers (s : CScheduler) (t : CScheduleTime) {job : UInt64} (hjob : job ≠ 0) :
    Registers s (s.addAJob t job) t job := by
  rw [addAJob, if_pos hjob]
  refine ⟨?_, fun d hd => Function.update_of_ne hd _ _⟩
  dsimp only
  rw [Function.update_self]
  exact List.perm_orderedInsert _ _ _

/-- Nobody registers one entry as two. -/
theorem Registers.unique {after : CScheduler} {t t' : CScheduleTime} {job : UInt64}
    (h : Registers s after t job) (h' : Registers s after t' job) : t = t' := by
  by_cases hday : t.dow = t'.dow
  · have hperm := h'.1.symm.trans (hday ▸ h.1)
    have hcount := hperm.count_eq (t, job)
    rw [List.count_cons, List.count_cons_self] at hcount
    by_contra hne
    rw [if_neg (by simpa using fun heq : t' = t => hne heq.symm)] at hcount
    omega
  · have hlen := h.1.length_eq
    rw [h'.2 t.dow hday, List.length_cons] at hlen
    omega

/-! ### Its turn

The events before it have their turn first, and none of them changes the job.  So it is enough to
count the steps that take an event.
-/

theorem put_pending (s : CScheduler) (e : XLThreadEvent) :
    (s.put e).created = s.created ∧ s.events.pending <+: (s.put e).events.pending := by
  obtain ⟨events, heq, hpending⟩ := s.put_eq e
  rw [heq]
  refine ⟨rfl, ?_⟩
  rcases hpending with hsame | ⟨-, happend⟩
  · rw [hsame]
  · rw [happend]
    exact List.prefix_append _ _

theorem put_accepted (hc : s.created = true) (hroom : s.events.pending.length < s.events.maxSize)
    (e : XLThreadEvent) :
    (s.put e).created = true ∧ (s.put e).events.pending = s.events.pending ++ [e] := by
  rw [put, if_pos hc]
  exact ⟨hc, (XLLFQ.push_room hroom e).2⟩

theorem tOnEvent_nextDay (s : CScheduler) (hnext : e.iType = nextDayInput)
    (now later : Option Tm) : s.tOnEvent e now later =
      { s with currentDay := (s.currentDay + 1).tmod 7 }.setCurrentTime now := by
  rw [tOnEvent, if_neg (by rw [hnext]; decide), if_neg (by rw [hnext]; decide), if_pos hnext]

/-- The handling of an event leaves those that are pending. -/
theorem tOnEvent_pending (s : CScheduler) (e : XLThreadEvent) (now later : Tm) :
    (s.tOnEvent e (some now) (some later)).created = s.created ∧
      (s.tOnEvent e (some now) (some later)).events = s.events := by
  by_cases halarm : e.iType = alarmInputType
  · rw [tOnEvent_alarm s halarm, alarmInput_eq]
    exact ⟨rfl, rfl⟩
  · by_cases hnext : e.iType = nextDayInput
    · rw [tOnEvent_nextDay s hnext]
      exact ⟨rfl, rfl⟩
    · obtain ⟨jobSet, done, heq⟩ := tOnEvent_other s halarm hnext (some now) (some later)
      rw [heq]
      exact ⟨rfl, rfl⟩

end CScheduler

namespace SchedulerRun

open CScheduler (Registers)

variable {r r' : SchedulerRun} {l : SchedulerStep}

/-- The loop takes an event in this step. -/
def takesEvent : SchedulerStep → Bool
  | .event _ _ => true
  | .start _ _ | .alarmTake | .alarmPut | .setJob _ _ => false

theorem event_next {now later : Reading} (h : r.next (.event now later) = some r') :
    ∃ events e, r.scheduler.events.pending = e :: events.pending ∧
      r'.scheduler = { r.scheduler with events := events }.tOnEvent e (some now.toTm)
        (some later.toTm) := by
  simp only [next] at h
  split at h
  · obtain ⟨⟨events, e⟩, hpop, rfl⟩ := Option.map_eq_some_iff.mp h
    exact ⟨events, e, XLLFQ.pop_eq_some hpop, rfl⟩
  · cases h

/-- What is pending in a scheduler that is created moves up by one where the loop takes an
event, and not otherwise. -/
theorem next_pending (hc : r.scheduler.created = true) (h : r.next l = some r') :
    r'.scheduler.created = true ∧
      r.scheduler.events.pending.drop (if takesEvent l then 1 else 0) <+:
        r'.scheduler.events.pending := by
  cases l with
  | start first second =>
      simp only [next, CScheduler.start, if_pos hc, Option.some.injEq] at h
      subst h
      exact ⟨hc, List.prefix_rfl⟩
  | alarmTake =>
      simp only [next] at h
      split at h
      · obtain ⟨alarmSem, -, rfl⟩ := Option.map_eq_some_iff.mp h
        exact ⟨hc, List.prefix_rfl⟩
      · cases h
  | alarmPut =>
      simp only [next] at h
      split at h
      · cases h
        obtain ⟨hcreated, hpending⟩ := r.scheduler.put_pending CScheduler.alarmEvent
        exact ⟨hcreated.trans hc, hpending⟩
      · cases h
  | setJob t job =>
      simp only [next, CScheduler.setJob] at h
      obtain ⟨scheduler, hset, rfl⟩ := Option.map_eq_some_iff.mp h
      obtain ⟨e, -, rfl⟩ := Option.map_eq_some_iff.mp hset
      obtain ⟨hcreated, hpending⟩ := r.scheduler.put_pending e
      exact ⟨hcreated.trans hc, hpending⟩
  | event now later =>
      obtain ⟨events, e, hpop, heq⟩ := event_next h
      obtain ⟨hcreated, hevents⟩ := CScheduler.tOnEvent_pending
        { r.scheduler with events := events } e now.toTm later.toTm
      rw [heq, hcreated, hevents, hpop]
      exact ⟨hc, List.prefix_rfl⟩

/-- An event comes to the front once the loop has taken those before it. -/
theorem exec_front {r u : SchedulerRun} {ls : List SchedulerStep} {before : List XLThreadEvent}
    {e : XLThreadEvent} (hc : r.scheduler.created = true)
    (hpending : before ++ [e] <+: r.scheduler.events.pending)
    (hrun : exec next r ls = some u) (hturn : ls.countP takesEvent = before.length) :
    [e] <+: u.scheduler.events.pending := by
  induction ls generalizing r before with
  | nil =>
      cases hrun
      obtain rfl : before = [] := List.length_eq_zero_iff.mp hturn.symm
      exact hpending
  | cons l rest ih =>
      obtain ⟨r', hl, hrest⟩ := exec_cons_eq_some.mp hrun
      obtain ⟨hc', hnext⟩ := next_pending hc hl
      rw [List.countP_cons] at hturn
      have hdrop := (hpending.drop (if takesEvent l then 1 else 0)).trans hnext
      split at hturn
      · rename_i htakes
        rw [if_pos htakes] at hdrop
        cases before with
        | nil => exact absurd hturn (Nat.succ_ne_zero _)
        | cons b before => exact ih hc' hdrop hrest (Nat.succ.inj hturn)
      · rename_i htakes
        rw [if_neg htakes] at hdrop
        exact ih hc' hdrop hrest hturn

/--
An accepted `SetJob` registers the job at the time it was given, when its event has its turn, if
and only if that time is the one a `CScheduleTime` is constructed with.
-/
theorem setJob_registers_iff {r r' u v : SchedulerRun} {t : CScheduleTime} {job : UInt64}
    {ls : List SchedulerStep} {now later : Reading} (hjob : job ≠ 0)
    (hc : r.scheduler.created = true)
    (hroom : r.scheduler.events.pending.length < r.scheduler.events.maxSize)
    (hset : r.next (.setJob t job) = some r') (hrun : exec next r' ls = some u)
    (hturn : ls.countP takesEvent = r.scheduler.events.pending.length)
    (hevent : u.next (.event now later) = some v) :
    Registers u.scheduler v.scheduler t job ↔ t = CScheduleTime.new := by
  simp only [next, CScheduler.setJob] at hset
  obtain ⟨scheduler, hput, rfl⟩ := Option.map_eq_some_iff.mp hset
  obtain ⟨e, he, rfl⟩ := Option.map_eq_some_iff.mp hput
  obtain ⟨hcreated, hpending⟩ := CScheduler.put_accepted hc hroom e
  have hlast : r.scheduler.events.pending ++ [e] <+: (r.scheduler.put e).events.pending := by
    rw [hpending]
  have hfront := exec_front hcreated hlast hrun hturn
  obtain ⟨events, e', hpop, heq⟩ := event_next hevent
  rw [hpop, List.cons_prefix_cons] at hfront
  obtain rfl : e = e' := hfront.1
  rw [CScheduler.tOnEvent_setJob he] at heq
  have hnew : Registers u.scheduler v.scheduler CScheduleTime.new job := by
    rw [heq]
    exact CScheduler.addAJob_registers { u.scheduler with events := events } _ hjob
  exact ⟨fun h => h.unique hnew, fun ht => ht ▸ hnew⟩

/-- A scheduler at midnight on Sunday, with its clock standing still. -/
def atMidnight : Reading := ⟨{ tmHour := 0, tmMin := 0, tmSec := 0, tmWday := 0 }, by decide⟩

/-- And started. -/
def startedAtMidnight : SchedulerRun :=
  { scheduler :=
      (CScheduler.new atMidnight.toTm).start (some atMidnight.toTm) (some atMidnight.toTm)
    ticking := false }

/-- An alarm goes off before the loop has taken the event. -/
theorem setJob_registers_iff_noon :
    ∃ r' u v, startedAtMidnight.next (.setJob ⟨12, 0, 0, 3⟩ 8) = some r' ∧
      exec next r' [.alarmTake] = some u ∧ u.next (.event atMidnight atMidnight) = some v ∧
      (Registers u.scheduler v.scheduler ⟨12, 0, 0, 3⟩ 8 ↔ ⟨12, 0, 0, 3⟩ = CScheduleTime.new) :=
  ⟨_, _, _, rfl, rfl, rfl,
    setJob_registers_iff (r := startedAtMidnight) (by decide) rfl (by decide) rfl
      (show exec next _ [.alarmTake] = some _ from rfl) rfl
      (show next _ (.event atMidnight atMidnight) = some _ from rfl)⟩

/-- A job for Wednesday at noon, which is put down for midnight on Sunday. -/
theorem noon_registered_at_midnight :
    ∃ r' v, startedAtMidnight.next (.setJob ⟨12, 0, 0, 3⟩ 8) = some r' ∧
      r'.next (.event atMidnight atMidnight) = some v ∧
      v.scheduler.jobSet 0 = [(⟨0, 0, 0, 0⟩, 8)] ∧
      ¬Registers r'.scheduler v.scheduler ⟨12, 0, 0, 3⟩ 8 := by
  refine ⟨_, _, rfl, rfl, by decide, fun h => ?_⟩
  exact absurd h.1.length_eq (by decide)

end SchedulerRun

end ServClient
