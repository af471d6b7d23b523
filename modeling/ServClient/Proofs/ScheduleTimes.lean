/-
When the fields of a `CScheduleTime` stay in range.

The setters look at their arguments, so whatever they and the constructors are called with,
they keep the ranges.  `ReadFrom` copies four words as they come; it is the only way out, and
exactly when one of the words is out of range.
-/
import ServClient.ScheduleTimes

namespace ServClient

open Runs

namespace CScheduleTime

variable {t t' : CScheduleTime}

/-- A time of day on a day of the week. -/
structure InRange (t : CScheduleTime) : Prop where
  hour : 0 ≤ t.h ∧ t.h < 24
  minute : 0 ≤ t.m ∧ t.m < 60
  second : 0 ≤ t.s ∧ t.s < 60
  weekday : 0 ≤ t.dow ∧ t.dow < 7

/-- A time that can be relied on. -/
structure Sound (t : CScheduleTime) : Prop extends InRange t where
  daySeconds : 0 ≤ t.getDaySeconds ∧ t.getDaySeconds < 86400
  /-- `AddAJob` changes one of the seven sets, or none. -/
  inBounds : ∀ (s : CScheduler) (job : UInt64) (d : Int),
    (s.addAJob t job).jobSet d ≠ s.jobSet d → 0 ≤ d ∧ d < 7

/-- What `ReadFrom` copies, if it copies anything, is in range. -/
def ReadsInRange (input : Option (List UInt8)) (size : Int) : Prop :=
  ∀ bytes ∈ input, totalWriteLength ≤ size → InRange (ofBytes (bytes.take 16))

/-- What is read from a buffer is such a time. -/
def KeepsRange (_ : CScheduleTime) : TimeStep → Prop
  | .ofBuffer buffer buffsize => ReadsInRange buffer buffsize
  | .readFrom input size => ReadsInRange input size
  | .new | .ofInt _ | .ofFields .. | .setHour _ | .setMinute _ | .setSecond _ | .setDow _
  | .set .. =>
      True

/-! ### The setters -/

theorem InRange.new : InRange new := by
  constructor <;> decide

theorem InRange.setHour (ht : InRange t) (h : Int) : InRange (t.setHour h) := by
  unfold CScheduleTime.setHour
  split
  · rename_i hh
    exact { ht with hour := hh }
  · exact ht

theorem InRange.setMinute (ht : InRange t) (m : Int) : InRange (t.setMinute m) := by
  unfold CScheduleTime.setMinute
  split
  · rename_i hm
    exact { ht with minute := hm }
  · exact ht

theorem InRange.setSecond (ht : InRange t) (s : Int) : InRange (t.setSecond s) := by
  unfold CScheduleTime.setSecond
  split
  · rename_i hs
    exact { ht with second := hs }
  · exact ht

theorem InRange.setDow (ht : InRange t) (dow : Int) : InRange (t.setDow dow) := by
  unfold CScheduleTime.setDow
  split
  · rename_i hdow
    exact { ht with weekday := hdow }
  · exact ht

theorem InRange.set (ht : InRange t) (h m s dow : Int) : InRange (t.set h m s dow) :=
  (((ht.setHour h).setMinute m).setSecond s).setDow dow

theorem InRange.ofInt (whole : Int) : InRange (ofInt whole) :=
  ((InRange.new.setHour _).setMinute _).setSecond _

/-! ### What the ranges are good for -/

theorem InRange.daySeconds (ht : InRange t) :
    0 ≤ t.getDaySeconds ∧ t.getDaySeconds < 86400 := by
  obtain ⟨hhour, hminute, hsecond, -⟩ := ht
  unfold getDaySeconds
  omega

theorem addAJob_jobSet {s : CScheduler} {job : UInt64} {d : Int}
    (h : (s.addAJob t job).jobSet d ≠ s.jobSet d) : d = t.dow := by
  by_contra hd
  apply h
  unfold CScheduler.addAJob
  split
  · exact Function.update_of_ne hd _ _
  · rfl

theorem InRange.sound (ht : InRange t) : Sound t where
  toInRange := ht
  daySeconds := ht.daySeconds
  inBounds := fun s job d hd => by
    rw [addAJob_jobSet hd]
    exact ht.weekday

/-! ### All steps

The constructors and setters test what they are given.  `ReadFrom` does not, so it is the one step
that has to be looked at.
-/

/-- `ReadFrom` either copies the four words or does nothing. -/
theorem readFrom_eq_some {input : Option (List UInt8)} {size : Int}
    (h : t.readFrom input size = some t') :
    (∃ bytes, input = some bytes ∧ totalWriteLength ≤ size ∧ t' = ofBytes (bytes.take 16)) ∨
      t' = t ∧ ReadsInRange input size := by
  cases input with
  | none => exact Or.inr ⟨(Option.some.inj h).symm, fun _ hb => by cases hb⟩
  | some bytes =>
      by_cases hsize : totalWriteLength ≤ size
      · rw [readFrom, if_pos hsize, Bytes.load?] at h
        split at h
        · exact Or.inl ⟨bytes, rfl, hsize, (Option.some.inj h).symm⟩
        · cases h
      · rw [readFrom, if_neg hsize] at h
        exact Or.inr ⟨(Option.some.inj h).symm, fun _ _ hle => absurd hle hsize⟩

/-- It keeps the ranges of a time that has them exactly if what it reads has them. -/
theorem InRange.readFrom_iff (ht : InRange t) {input : Option (List UInt8)} {size : Int}
    (h : t.readFrom input size = some t') : InRange t' ↔ ReadsInRange input size := by
  rcases readFrom_eq_some h with ⟨bytes, rfl, hsize, rfl⟩ | ⟨rfl, hreads⟩
  · constructor
    · rintro hbytes b hb -
      cases hb
      exact hbytes
    · exact fun hreads => hreads bytes rfl hsize
  · exact ⟨fun _ => hreads, fun _ => ht⟩

theorem InRange.next_iff {l : TimeStep} (ht : InRange t) (h : t.next l = some t') :
    InRange t' ↔ KeepsRange t l := by
  cases l with
  | ofBuffer buffer buffsize => exact InRange.new.readFrom_iff h
  | readFrom input size => exact ht.readFrom_iff h
  | new => cases h; exact iff_of_true .new trivial
  | ofInt whole => cases h; exact iff_of_true (.ofInt whole) trivial
  | ofFields h m s dow => cases h; exact iff_of_true (InRange.new.set h m s dow) trivial
  | setHour h => cases h; exact iff_of_true (ht.setHour h) trivial
  | setMinute m => cases h; exact iff_of_true (ht.setMinute m) trivial
  | setSecond s => cases h; exact iff_of_true (ht.setSecond s) trivial
  | setDow dow => cases h; exact iff_of_true (ht.setDow dow) trivial
  | set h m s dow => cases h; exact iff_of_true (ht.set h m s dow) trivial

/--
Through any sequence of constructors, setters and `ReadFrom`s a time can be relied on if and only
if whatever `ReadFrom` copies is in range.
-/
theorem in_range_iff {ls : List TimeStep} (hrun : exec next new ls = some t) :
    Throughout next Sound new ls ↔ Along next KeepsRange new ls :=
  throughout_iff_along (I := InRange) (fun _ ht => ht.sound)
    (fun _ _ _ ht hkeeps hstep => (ht.next_iff hstep).mpr hkeeps)
    (fun _ _ _ ht hmiss hstep hsound => hmiss ((ht.next_iff hstep).mp hsound.toInRange))
    InRange.new hrun

/-- A time read from a buffer, and set back by an hour that there is not. -/
def readThenSet : List TimeStep :=
  [.readFrom (some (bytes ⟨23, 59, 59, 6⟩)) 16, .setHour 24]

theorem in_range_iff_readThenSet :
    Throughout next Sound new readThenSet ↔ Along next KeepsRange new readThenSet :=
  in_range_iff (t := ⟨23, 59, 59, 6⟩) (by decide)

/-- Sixteen bytes that are all set read as four times -1. -/
theorem read_out_of_range : ∃ t,
    exec next new [.readFrom (some (List.replicate 16 255)) 16] = some t ∧ ¬ Sound t := by
  refine ⟨⟨-1, -1, -1, -1⟩, by decide, fun h => ?_⟩
  exact absurd h.hour.1 (by decide)

end CScheduleTime

end ServClient
