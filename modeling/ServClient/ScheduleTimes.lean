/-
The ways to fill a `CScheduleTime`: its constructors, its setters and `ReadFrom`.

`CScheduleTime.new`, the setters of the three fields of the day and the constructor from one
`int` are with the scheduler.  An object is followed from its default constructor on; another
constructor is a step that makes it anew.  A step has no result where the buffer is shorter
than the size the caller gives for it.
-/
import ServClient.Scheduler
import ServClient.Lib.Runs

namespace ServClient

namespace CScheduleTime

/-- `SetDow`, which ignores what is no day of the week. -/
def setDow (t : CScheduleTime) (dow : Int) : CScheduleTime :=
  if 0 ≤ dow ∧ dow < 7 then { t with dow := dow } else t

/-- `Set`: all four of them. -/
def set (t : CScheduleTime) (h m s dow : Int) : CScheduleTime :=
  (((t.setHour h).setMinute m).setSecond s).setDow dow

/-- `CScheduleTime(int, int, int, int)`. -/
def ofFields (h m s dow : Int) : CScheduleTime := new.set h m s dow

/-- `ReadFrom`, which checks the length of the buffer and nothing of what it holds. -/
def readFrom (t : CScheduleTime) (input : Option (List UInt8)) (size : Int) :
    Option CScheduleTime :=
  match input with
  | none => some t
  | some input =>
      if totalWriteLength ≤ size then (Bytes.load? input 0 16).map ofBytes else some t

/-- `CScheduleTime(char*, int)`. -/
def ofBuffer (buffer : Option (List UInt8)) (buffsize : Int) : Option CScheduleTime :=
  new.readFrom buffer buffsize

end CScheduleTime

/-- A constructor, a setter, or a `ReadFrom`. -/
inductive TimeStep
  /-- The four constructors. -/
  | new
  | ofInt (whole : Int)
  | ofFields (h m s dow : Int)
  | ofBuffer (buffer : Option (List UInt8)) (buffsize : Int)
  | setHour (h : Int)
  | setMinute (m : Int)
  | setSecond (s : Int)
  | setDow (dow : Int)
  | set (h m s dow : Int)
  | readFrom (input : Option (List UInt8)) (size : Int)

namespace CScheduleTime

/-- One of them; `none` is a read past the end of the buffer. -/
def next (t : CScheduleTime) : TimeStep → Option CScheduleTime
  | .new => some new
  | .ofInt whole => some (ofInt whole)
  | .ofFields h m s dow => some (ofFields h m s dow)
  | .ofBuffer buffer buffsize => ofBuffer buffer buffsize
  | .setHour h => some (t.setHour h)
  | .setMinute m => some (t.setMinute m)
  | .setSecond s => some (t.setSecond s)
  | .setDow dow => some (t.setDow dow)
  | .set h m s dow => some (t.set h m s dow)
  | .readFrom input size => t.readFrom input size

end CScheduleTime

end ServClient
