/-
`XLThreadEvent`, the message every thread of the library is woken with.

An event owns a `CHARSTORAGE` buffer, a length and a type.  Here the buffer is a
value: `none` for the null pointer, else the bytes it points to.  That is what one
event object sees of it; that copies of an event share one buffer is the subject of
`ServClient/SharedEvents.lean`.

An `int` is an integer, and `IsInt` says it is in range; a conversion to `int` is
`castInt`.  A `memcpy` that would leave its buffer has no result.
-/
import ServClient.Lib.Bytes

namespace ServClient

/-- The values a 32-bit `int` can have. -/
def IsInt (x : Int) : Prop := -2147483648 ≤ x ∧ x ≤ 2147483647

instance (x : Int) : Decidable (IsInt x) := inferInstanceAs (Decidable (_ ∧ _))

/-- `INT_MAX`. -/
def intMax : Int := 2147483647

/-- The conversion of an out-of-range value to `int`. -/
def castInt (x : Int) : Int := Int.bmod x (2 ^ 32)

theorem castInt_eq {x : Int} (h : IsInt x) : castInt x = x := by
  obtain ⟨hlo, hhi⟩ := h
  rw [castInt, show (2 : Nat) ^ 32 = 4294967296 from rfl]
  exact Int.bmod_eq_of_le (by omega) (by omega)

/-- An event: a type, a length and the data. -/
structure XLThreadEvent where
  /-- The bytes behind `m_pData`, `none` for null. -/
  pData : Option (List UInt8)
  iLength : Int
  iType : Int
deriving DecidableEq, Repr

namespace XLThreadEvent

/-- The default constructor. -/
def new : XLThreadEvent := { pData := none, iLength := 0, iType := 0 }

instance : Inhabited XLThreadEvent := ⟨new⟩

/-- `XLThreadEvent(int size)`.  The new buffer is not written to: `uninit` is what it holds. -/
def ofSize (size : Int) (uninit : List UInt8) : XLThreadEvent :=
  if 0 < size then { pData := some uninit, iLength := size, iType := 0 }
  else { pData := none, iLength := 0, iType := 0 }

/-- `IsValid`: there is data and a length. -/
def isValid (e : XLThreadEvent) : Bool := e.pData.isSome && decide (0 < e.iLength)

/-- `SetType`. -/
def setType (e : XLThreadEvent) (iType : Int) : XLThreadEvent := { e with iType := iType }

/-- `Reset`, which lets the data go and keeps the type. -/
def reset (e : XLThreadEvent) : XLThreadEvent := { e with pData := none, iLength := 0 }

/-- `SetData`: `data` is what stands behind the pointer, at least `length` bytes. -/
def setData (e : XLThreadEvent) (data : Option (List UInt8)) (length : Int) : XLThreadEvent :=
  match data with
  | some bytes =>
      if 0 < length then
        { e.reset with pData := some (bytes.take length.toNat), iLength := length }
      else e.reset
  | none => e.reset

/-- `AddData`.  The new length is not reduced to an `int`. -/
def addData (e : XLThreadEvent) (data : Option (List UInt8)) (length : Int) : XLThreadEvent :=
  match e.pData, data with
  | some old, some bytes =>
      if 0 < e.iLength ∧ 0 < length then
        { e with
          pData := some (old.take e.iLength.toNat ++ bytes.take length.toNat)
          iLength := e.iLength + length }
      else e.setData data length
  | _, _ => e.setData data length

/-- The guard of `Read<T>` and `Write<T>`, with `size = sizeof(T)`.  The sum is taken in
`size_t` and then converted to `int`. -/
def inPlace (e : XLThreadEvent) (place : Int) (size : Nat) : Bool :=
  decide (0 ≤ place) && decide (castInt (place + size) ≤ e.iLength)

/-- `Read<T>`: the bytes copied to the output, `none` when it returns false. -/
def read (e : XLThreadEvent) (place : Int) (size : Nat) : Option (List UInt8) :=
  if e.inPlace place size then some (((e.pData.getD []).drop place.toNat).take size) else none

/-- `memcpy` into the buffer. -/
def poke (e : XLThreadEvent) (pos : Nat) (input : List UInt8) : Option XLThreadEvent :=
  (Bytes.store? (e.pData.getD []) pos input).map fun bytes =>
    { e with pData := e.pData.map fun _ => bytes }

/-- `Write<T>`, with the bytes of its argument; what it returns comes with the event. -/
def write (e : XLThreadEvent) (place : Int) (input : List UInt8) :
    Option (XLThreadEvent × Bool) :=
  if e.inPlace place input.length then (e.poke place.toNat input).map (·, true)
  else if place = e.iLength then some (e.addData (some input) input.length, false)
  else some (e, false)

/-- `Write(int, const char*, int)`.  A negative size that gets past the guard reaches `memcpy`,
which then has no result. -/
def writeBlock (e : XLThreadEvent) (place : Int) (input : Option (List UInt8)) (size : Int) :
    Option (XLThreadEvent × Bool) :=
  match input with
  | some bytes =>
      if 0 ≤ place ∧ place + size ≤ e.iLength then
        if 0 ≤ size then (e.poke place.toNat (bytes.take size.toNat)).map (·, true) else none
      else if place = e.iLength then some (e.addData input size, false)
      else some (e, false)
  | none =>
      if place = e.iLength then some (e.addData input size, false) else some (e, false)

/-- Two `int` members precede the payload. -/
def metaDataLength : Int := 8

/-- `WritableSize`: the data behind its type and its length. -/
def writableSize (e : XLThreadEvent) : Int := e.iLength + metaDataLength

/-- `WriteTo`: what the destination holds afterwards. -/
def writeTo (e : XLThreadEvent) (destination : Option (List UInt8)) (length : Int) :
    Option (List UInt8) :=
  destination.map fun buffer =>
    if e.writableSize ≤ length then
      let buffer := Bytes.splice buffer 0 (Bytes.ofInt 4 e.iType)
      let buffer := Bytes.splice buffer 4 (Bytes.ofInt 4 e.iLength)
      if 0 < e.iLength then
        Bytes.splice buffer 8 ((e.pData.getD []).take e.iLength.toNat)
      else buffer
    else buffer

/-- `ReadFrom`.  The guard looks at the length the event had before. -/
def readFrom (e : XLThreadEvent) (source : Option (List UInt8)) (length : Int) : XLThreadEvent :=
  match source with
  | none => e
  | some bytes =>
      if e.writableSize ≤ length then
        let iType := Bytes.toInt (bytes.take 4)
        let iLength := Bytes.toInt ((bytes.drop 4).take 4)
        let e := { e with iType := iType, iLength := iLength }
        if 0 < iLength ∧ iLength < length - 8 then e.setData (some (bytes.drop 8)) iLength
        else { e with pData := none, iLength := 0 }
      else e

/-- `XLThreadEvent(const char*, int)`. -/
def ofBuffer (pData : Option (List UInt8)) (size : Int) : XLThreadEvent := new.readFrom pData size

/-- `ConvertIntoCharBuffer`: a new buffer of exactly `WritableSize()` bytes, written to. -/
def convertIntoCharBuffer (e : XLThreadEvent) : Option (List UInt8) :=
  e.writeTo (some (List.replicate e.writableSize.toNat 0)) e.writableSize

end XLThreadEvent

/-! ### What an event says -/

/-- The part of an event its receiver can see: a type and the payload bytes. -/
structure Contents where
  type : Int
  payload : List UInt8
deriving DecidableEq, Repr

namespace XLThreadEvent

/-- The first `m_iLength` bytes of the buffer. -/
def payload (e : XLThreadEvent) : List UInt8 := (e.pData.getD []).take e.iLength.toNat

/-- What an event says. -/
def contents (e : XLThreadEvent) : Contents := { type := e.iType, payload := e.payload }

/-- A type that is an `int`, a length that leaves room for the header, and a buffer of exactly
that length where there is a payload. -/
structure WellFormed (e : XLThreadEvent) : Prop where
  type : IsInt e.iType
  nonneg : 0 ≤ e.iLength
  fits : e.iLength ≤ intMax - 8
  buffer : 0 < e.iLength → ∃ bytes, e.pData = some bytes ∧ bytes.length = e.iLength.toNat

end XLThreadEvent

/-- Contents an event can carry over the wire. -/
structure Message extends Contents where
  type_isInt : IsInt type
  payload_fits : (payload.length : Int) ≤ intMax - 8

/-- The event a sender builds for a message. -/
def Message.event (m : Message) : XLThreadEvent :=
  (XLThreadEvent.new.setType m.type).setData (some m.payload) m.payload.length

end ServClient
