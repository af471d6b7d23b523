/-
`XLSocket::Send` and `XLSocket::Recieve`, with what they tell the event listener.

The build is the non-Windows one.  What `send` and `recv` answer is an input; the size given to
either is that of the message, or of the buffer.
-/
import ServClient.Socket
import ServClient.Listening

namespace ServClient

/-- A call of the event listener. -/
inductive SocketReport
  | onSend (msg : List UInt8) (size : Int)
  | onRecieve (msg : List UInt8) (size : Int)
  | onDisConnect
deriving DecidableEq, Repr

namespace SocketUtility

/-- `numbytes` is what `send` returns. -/
def send (numbytes : Int) : SocketErrCode :=
  if numbytes = -1 then getErrorCode 0 else .socketNoError

/-- No case of the switch changes `bRet`. -/
def isConnected (type : SocketErrCode) : Bool :=
  match type with
  | .remoteHostNotFound | .noConnection | .noNetwork => true
  | _ => true

end SocketUtility

namespace XLSocket

/-- `Send`, with what the listener is told of its result. -/
def send (s : XLSocket) (msg : List UInt8) (numbytes : Int) :
    SocketErrCode × List SocketReport :=
  let error := SocketUtility.send numbytes
  if s.listener ∧ error = .socketNoError then (error, [.onSend msg msg.length])
  else if s.listener ∧ SocketUtility.isConnected error then (error, [.onDisConnect])
  else (error, [])

/-- The buffer after the call, the code and the reports. -/
def recieveReporting (s : XLSocket) (buff : List UInt8) (r : RecvResult) :
    List UInt8 × SocketErrCode × List SocketReport :=
  let (buff, error) := SocketUtility.recieve buff r
  if s.listener ∧ error = .socketNoError then (buff, error, [.onRecieve buff buff.length])
  else if s.listener ∧ SocketUtility.isConnected error then (buff, error, [.onDisConnect])
  else (buff, error, [])

end XLSocket

end ServClient
