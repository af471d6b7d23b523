/-
What the members of `XLThreadEvent` copy, and where.

`ServClient/Events.lean` says what an event holds after a call.  Here is which bytes the
call touches on the way: `readFrom?` is `ReadFrom` with every `memcpy` checked against the
source, and `readCopies`, `writeCopies` and `writeBlockCopies` list the `memcpy` calls on
the buffer of an event, each with the size of the buffer it is made on.

A sum of two `int` and a conversion to `int` are taken modulo 2^32.
-/
import ServClient.Events

namespace ServClient

/-- A `memcpy` to or from a buffer of `size` bytes. -/
structure Copy where
  pos : Int
  count : Int
  size : Int
deriving DecidableEq, Repr

/-- It copies no negative number of bytes, and stays in the buffer. -/
def Copy.Inside (c : Copy) : Prop := 0 ≤ c.count ∧ 0 ≤ c.pos ∧ c.pos + c.count ≤ c.size

instance (c : Copy) : Decidable c.Inside := inferInstanceAs (Decidable (_ ∧ _))

namespace XLThreadEvent

/-- `ReadFrom`: `none` when a `memcpy` would read outside the source. -/
def readFrom? (e : XLThreadEvent) (source : Option (List UInt8)) (length : Int) :
    Option XLThreadEvent :=
  match source with
  | none => some e
  | some bytes =>
      if e.writableSize ≤ length then do
        let iType ← (Bytes.load? bytes 0 4).map Bytes.toInt
        let iLength ← (Bytes.load? bytes 4 4).map Bytes.toInt
        let e := { e with iType := iType, iLength := iLength }
        if 0 < iLength ∧ iLength < length - 8 then
          (Bytes.load? bytes 8 iLength.toNat).map fun data => e.setData (some data) iLength
        else some { e with pData := none, iLength := 0 }
      else some e

/-- The size of the buffer. -/
def bufferSize (e : XLThreadEvent) : Int := (e.pData.getD []).length

/-- `Read<T>`, with `size = sizeof(T)`. -/
def readCopies (e : XLThreadEvent) (place : Int) (size : Nat) : List Copy :=
  if e.inPlace place size then [⟨place, size, e.bufferSize⟩] else []

/-- `AddData` with data: out of the old buffer, and into the new one. -/
def addDataCopies (e : XLThreadEvent) (length : Int) : List Copy :=
  if e.isValid ∧ 0 < length then
    let size := castInt (e.iLength + length)
    [⟨0, e.iLength, e.bufferSize⟩, ⟨0, e.iLength, size⟩, ⟨e.iLength, length, size⟩]
  else if 0 < length then [⟨0, length, length⟩] else []

/-- `Write<T>`. -/
def writeCopies (e : XLThreadEvent) (place : Int) (size : Nat) : List Copy :=
  if e.inPlace place size then [⟨place, size, e.bufferSize⟩]
  else if place = e.iLength then e.addDataCopies (castInt size) else []

/-- `Write(int, const char*, int)`, with data. -/
def writeBlockCopies (e : XLThreadEvent) (place size : Int) : List Copy :=
  if 0 ≤ place ∧ castInt (place + size) ≤ e.iLength then [⟨place, size, e.bufferSize⟩]
  else if place = e.iLength then e.addDataCopies size else []

/-- The length is one a frame can have, and the buffer has exactly that many bytes where there
are any. -/
structure Sized (e : XLThreadEvent) : Prop where
  nonneg : 0 ≤ e.iLength
  fits : e.iLength ≤ intMax - 8
  buffer : 0 < e.iLength → ∃ bytes, e.pData = some bytes ∧ bytes.length = e.iLength.toNat

end XLThreadEvent

end ServClient
