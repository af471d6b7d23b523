/-
The receiving side: `SocketUtility::Recieve` and the loop of `XLListeningThread`.

The build is the non-Windows one, where `GetErrorCode` knows no error.  What the
network answers to the successive `recv` calls is an input here, one result a call.
-/
import ServClient.Events

namespace ServClient

/-- `MAX_MESS_LENGTH`, the size of the receive buffer. -/
def maxMessLength : Nat := 50

/-- `SocketUtility::SocketErrCode`, as far as it is returned. -/
inductive SocketErrCode
  | socketNoError
  | invalidSocket
  | invalidParameter
  | invalidOperation
  | invalidProtocol
  | memoryError
  | remoteHostNotFound
  | noConnection
  | alreadyConnected
  | noNetwork
  | otherError
deriving DecidableEq, Repr

/-- What one `recv` call answers. -/
inductive RecvResult
  /-- It stored these bytes at the front of the buffer. -/
  | bytes (chunk : List UInt8)
  /-- The peer has closed the connection: 0. -/
  | closed
  /-- `SOCKET_ERROR`: -1. -/
  | failed
deriving DecidableEq, Repr

namespace RecvResult

/-- What is in the buffer afterwards. -/
def stored : RecvResult → List UInt8
  | bytes chunk => chunk
  | closed | failed => []

/-- What `recv` returns. -/
def numbytes : RecvResult → Int
  | bytes chunk => chunk.length
  | closed => 0
  | failed => -1

end RecvResult

namespace SocketUtility

/-- Without Windows' error numbers no branch of the switch is compiled in. -/
def getErrorCode (_type : Int) : SocketErrCode := .socketNoError

/-- The buffer after the call, and the code the call returns. -/
def recieve (msg : List UInt8) (r : RecvResult) : List UInt8 × SocketErrCode :=
  let msg := Bytes.splice msg 0 r.stored
  if r.numbytes = -1 then (msg, getErrorCode 0) else (msg, .socketNoError)

end SocketUtility

/-- `XLSocket::Recieve`.  The callbacks it makes on the way only print. -/
def XLSocket.recieve (buff : List UInt8) (r : RecvResult) : List UInt8 × SocketErrCode :=
  SocketUtility.recieve buff r

/-- The listening thread: its flag, its one event and its one buffer. -/
structure XLListeningThread where
  bExit : Bool
  event : XLThreadEvent
  /-- Whether `m_Listener` is set. -/
  listener : Bool
  dataStorage : List UInt8

namespace XLListeningThread

/-- The constructor.  Neither `new char[]` is initialised. -/
def new (uninitEvent uninitStorage : Vector UInt8 maxMessLength) : XLListeningThread where
  bExit := false
  event := XLThreadEvent.ofSize maxMessLength uninitEvent.toList
  listener := false
  dataStorage := uninitStorage.toList

/-- `SetListener`. -/
def setListener (t : XLListeningThread) : XLListeningThread := { t with listener := true }

/-- The body of the receive loop, and the event it hands to `OnListen`. -/
def receive (t : XLListeningThread) (r : RecvResult) :
    XLListeningThread × Option XLThreadEvent :=
  let (storage, error) := XLSocket.recieve t.dataStorage r
  let t := { t with dataStorage := storage }
  if error = .socketNoError then
    if t.listener then
      let event := t.event.readFrom (some t.dataStorage) maxMessLength
      ({ t with event := event }, some event)
    else (t, none)
  else (t, none)

/--
`RunProgram` from its loop on: the events handed to `OnListen`, in order.  The list is what the
`recv` calls answer; where it ends the thread waits in the next one.
-/
def runProgram : XLListeningThread → List RecvResult → List XLThreadEvent
  | _, [] => []
  | t, r :: rest =>
      if t.bExit then []
      else
        let (t, delivered) := t.receive r
        delivered.toList ++ runProgram t rest

end XLListeningThread

/-! ### The bytes between the two threads -/

/-- What the serving thread sends for one event: `Send(ConvertIntoCharBuffer(), WritableSize())`. -/
def Message.wire (m : Message) : List UInt8 :=
  (m.event.convertIntoCharBuffer.getD []).take m.event.writableSize.toNat

/-- The bytes of one message after the other. -/
def wireStream (sent : List Message) : List UInt8 := sent.flatMap Message.wire

/--
One way the stream may reach the client: cut into chunks no larger than the buffer, and then any
number of calls that find the connection closed.
-/
def IsDelivery (stream : List UInt8) (results : List RecvResult) : Prop :=
  ∃ (chunks : List (List UInt8)) (closes : Nat),
    results = chunks.map .bytes ++ List.replicate closes .closed ∧
    chunks.flatten = stream ∧
    ∀ c ∈ chunks, 1 ≤ c.length ∧ c.length ≤ maxMessLength

end ServClient
