/-
`SocketConfig`, and the record it is sent as.

The record is a field of 20 bytes for the host, which is written as a C string, and six
`int`s.  `WriteToSend` is first the copies it makes and then what they leave in the buffer;
a copy that would leave the buffer has no result, and neither has reading a string that the
buffer does not end.

The event listener is not part of the record and is left out.
-/
import ServClient.Events
import ServClient.Lib.CStrings

namespace ServClient

/-- The configuration of a socket. -/
structure SocketConfig where
  hostNumber : CString
  portNumber : Int32
  connectionType : Int32
  iPFormat : Int32
  iPProtocol : Int32
  connectionTries : Int32
  numberofClients : Int32
deriving DecidableEq

namespace SocketConfig

/-- The default constructor: `SOCK_STREAM`, `AF_INET`, `IPPROTO_TCP`, `MAX_NUM_CONN_TRIES` and
`DEFAULT_SERVER_ACCEPTORS`. -/
def new : SocketConfig where
  hostNumber := .empty
  portNumber := 0
  connectionType := 1
  iPFormat := 2
  iPProtocol := 6
  connectionTries := 5
  numberofClients := 2

/-- An empty string is not taken over.  `strlen` is converted to `int`. -/
def setHostNumber (c : SocketConfig) (hostnumber : Option CString) : SocketConfig :=
  match hostnumber with
  | some s => if 0 < castInt s.bytes.length then { c with hostNumber := s } else c
  | none => c

/-- The copy constructor. -/
def copy (another : SocketConfig) : SocketConfig :=
  { another with hostNumber := .empty }.setHostNumber (some another.hostNumber)

/-- `operator =`, from another object. -/
def assign (c another : SocketConfig) : SocketConfig :=
  { another with
    hostNumber := (c.setHostNumber (some another.hostNumber)).hostNumber }

/-- `TotalWriteLength()`: the host in 20 bytes, then six `int`s. -/
def totalWriteLength : Int := 20 + 4 * 6

/-- The bytes of an `int`. -/
def ofInt32 (x : Int32) : List UInt8 := Bytes.ofInt 4 x.toInt

/-- An `int` as it is read from the buffer. -/
def toInt32 (bytes : List UInt8) : Int32 := Int32.ofInt (Bytes.toInt bytes)

/-- The copies `WriteToSend` makes, each a position in the buffer and a block. -/
def writes (c : SocketConfig) (length : Int) : List (Nat × List UInt8) :=
  if length < totalWriteLength then []
  else
    [(0, List.replicate 20 0),
      (0, c.hostNumber.bytes),
      (20, ofInt32 c.portNumber),
      (24, ofInt32 c.connectionType),
      (28, ofInt32 c.iPFormat),
      (32, ofInt32 c.iPProtocol),
      (36, ofInt32 c.connectionTries),
      (40, ofInt32 c.numberofClients)]

/-- `WriteToSend`; `none` is a write past the end of the buffer. -/
def writeToSend (c : SocketConfig) (buffer : List UInt8) (length : Int) : Option (List UInt8) :=
  Bytes.storeAll? buffer (c.writes length)

/-- `SocketConfig(char*, int)`. -/
def ofBuffer (buffer : List UInt8) (length : Int) : Option SocketConfig :=
  if totalWriteLength ≤ length then do
    let c := new.setHostNumber (some (← CString.read buffer))
    let portNumber ← Bytes.load? buffer 20 4
    let connectionType ← Bytes.load? buffer 24 4
    let iPFormat ← Bytes.load? buffer 28 4
    let iPProtocol ← Bytes.load? buffer 32 4
    let connectionTries ← Bytes.load? buffer 36 4
    let numberofClients ← Bytes.load? buffer 40 4
    return { c with
      portNumber := toInt32 portNumber
      connectionType := toInt32 connectionType
      iPFormat := toInt32 iPFormat
      iPProtocol := toInt32 iPProtocol
      connectionTries := toInt32 connectionTries
      numberofClients := toInt32 numberofClients }
  else some new

end SocketConfig

end ServClient
