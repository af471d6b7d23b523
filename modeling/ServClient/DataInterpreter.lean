/-
`ServClientCommDI`, a message read as fields.

The message is bytes at an address; `m_MessLength` is how many.  A copy that leaves the message
or the buffer it is made to or from has no result, and neither has one that overlaps itself.

`SetData` for an `int` casts the value to a pointer, so what it copies is what stands at that
address, and that is known where it is in the message.
-/
import ServClient.SocketConfig

namespace ServClient

open SocketConfig (ofInt32 toInt32)

/-- A message that is somewhere in memory, and that an `int` can count. -/
structure ServClientCommDI where
  address : Nat
  message : List UInt8
  nonNull : address ≠ 0
  inMemory : address + message.length ≤ 2 ^ 64
  isInt : message.length ≤ 2147483647
deriving DecidableEq

/-- Where a copy into the message comes from: the caller's bytes, or an address. -/
inductive DataPointer
  | block (bytes : List UInt8)
  | at (address : Nat)
deriving DecidableEq, Repr

/-- The cast of an `int`. -/
def DataPointer.ofInt32 (data : Int32) : DataPointer := .at (data.toInt % 2 ^ 64).toNat

/-- The number of bytes `memcpy` gets: at most `width`. -/
def copyLength (len width : Int) : Int := if width < len then width else len

namespace ServClientCommDI

/-- `sizeof(int)`. -/
def ip : Int := 4

/-- Where the type of the address stands. -/
def ipType : Int := ip + 6

/-- Where the port stands. -/
def port : Int := ipType + 4

/-- The number of bytes with all fields. -/
def maxId : Int := port + 1

/-- What a copy of `n` bytes to the place `start` of the message reads. -/
def fetch (d : ServClientCommDI) (start n : Nat) : DataPointer → Option (List UInt8)
  | .block bytes => Bytes.load? bytes 0 n
  | .at source =>
      if d.address ≤ source ∧
          (source + n ≤ d.address + start ∨ d.address + start + n ≤ source) then
        Bytes.load? d.message (source - d.address) n
      else none

/-- `memcpy(data, &m_Message[start], n)`. -/
def copyOut (d : ServClientCommDI) (data : List UInt8) (start n : Int) : Option (List UInt8) :=
  if n < 0 then none
  else do
    let block ← Bytes.load? d.message start.toNat n.toNat
    Bytes.store? data 0 block

/-- `memcpy(&m_Message[start], data, n)`. -/
def copyIn (d : ServClientCommDI) (data : DataPointer) (start n : Int) :
    Option ServClientCommDI :=
  if n < 0 then none
  else
    (d.fetch start.toNat n.toNat data).bind fun block =>
      if h : start.toNat + block.length ≤ d.message.length then
        some { d with
          message := Bytes.splice d.message start.toNat block
          inMemory := by rw [Bytes.length_splice h]; exact d.inMemory
          isInt := by rw [Bytes.length_splice h]; exact d.isInt }
      else none

/-- `GetData(char*, int, int)`. -/
def getData (d : ServClientCommDI) (data : List UInt8) (len dataIdentifier : Int) :
    Option (List UInt8) :=
  if dataIdentifier = ip then d.copyOut data ip (copyLength len (ipType - ip))
  else if dataIdentifier = ipType then d.copyOut data ipType (copyLength len (port - ipType))
  else if dataIdentifier = port then d.copyOut data port (copyLength len (maxId - port))
  else some data

/-- `GetData(int&, int)`. -/
def getInt (d : ServClientCommDI) (data : Int32) (dataIdentifier : Int) : Option Int32 :=
  (d.getData (ofInt32 data) 4 dataIdentifier).map toInt32

/-- `SetData(char*, int, int)`. -/
def setData (d : ServClientCommDI) (data : DataPointer) (len dataIdentifier : Int) :
    Option ServClientCommDI :=
  if dataIdentifier = ip then d.copyIn data ip (copyLength len (ipType - ip))
  else if dataIdentifier = ipType then d.copyIn data ipType (copyLength len (port - ipType))
  else if dataIdentifier = port then d.copyIn data port (copyLength len (maxId - port))
  else some d

/-- `SetData(int&, int)`. -/
def setInt (d : ServClientCommDI) (data : Int32) (dataIdentifier : Int) :
    Option ServClientCommDI :=
  d.setData (.ofInt32 data) 4 dataIdentifier

/-- `GetType`: the first four bytes of the message. -/
def getType (d : ServClientCommDI) : Option Int32 :=
  if 0 < d.message.length then do
    let block ← Bytes.load? d.message 0 (copyLength d.message.length 4).toNat
    (Bytes.store? (ofInt32 0) 0 block).map toInt32
  else some 0

/-- `SetType`, which writes as many of the four bytes as there is room for. -/
def setType (d : ServClientCommDI) (type : Int32) : Option ServClientCommDI :=
  if 0 < d.message.length then do
    let block ← Bytes.load? (ofInt32 type) 0 (copyLength d.message.length 4).toNat
    d.copyIn (.block block) 0 block.length
  else some d

end ServClientCommDI

end ServClient
