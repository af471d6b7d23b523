/-
`XLServerClientHandler`: its messages, and what `t_OnEvent` makes of each.

`t_OnEvent` is in three parts, since it may call `Put` on its own queue: what comes before the
`Put`, the event that is put, and what comes after.  What is printed is left out, as is the
`DataInterpreter` that is made of received data and dropped.  `m_RecieverThread` is null
throughout: the line that would make one is commented out.

`ServClient/HandlerWork.lean` has the handler and its queue, a call one step, and
`ServClient/HandlerRun.lean` has the threads.
-/
import ServClient.EventThread
import ServClient.Socket

namespace ServClient

/-- A call of `SocketUtility::Send`. -/
structure SocketSend where
  socket : Int
  msg : Option (List UInt8)
  msglen : Int
deriving DecidableEq, Repr

/-- A call of `m_RecieveListener->OnRecieve`. -/
structure RecieveReport where
  msg : Option (List UInt8)
  len : Int
deriving DecidableEq, Repr

/-- The handler, with what it has sent and what it has reported. -/
structure XLServerClientHandler where
  clientIdentifier : Int
  eventPlace : XLThreadEvent
  /-- Whether `m_RecieveListener` is set, and what it has been called with. -/
  recieveListener : Bool
  reports : List RecieveReport
  recieverSocket : Option XLSocket
  sockConfig : SocketConfig
  /-- Whether `m_SockConfig` has an event listener. -/
  configListener : Bool
  sends : List SocketSend

namespace XLServerClientHandler

/-! ### The messages -/

/-- `XLEventThreadEventType_Max` of the messages' own header. -/
def messageTypeMax : Int := 3
/-- `SERVER_MSG_START`. -/
def serverMsgStart : Int := messageTypeMax + 1
/-- `SERVER_ON_MSG_MAX`; the four messages before it are not used here. -/
def serverOnMsgMax : Int := serverMsgStart + 5
/-- `SERVER_CLIENT_HANDLER_MSG_START`. -/
def msgStart : Int := serverOnMsgMax + 1
/-- `SERVER_CLIENT_HANDLER_MSG_ON_CONNECT`. -/
def msgOnConnect : Int := msgStart + 1
/-- `SERVER_CLIENT_HANDLER_MSG_ON_DISCONNECT`. -/
def msgOnDisconnect : Int := msgOnConnect + 1
/-- `SERVER_CLIENT_HANDLER_MSG_ON_ALIVE`. -/
def msgOnAlive : Int := msgOnDisconnect + 1
/-- `SERVER_CLIENT_HANDLER_MSG_ON_RECIEVE`. -/
def msgOnRecieve : Int := msgOnAlive + 1
/-- `SERVER_CLIENT_HANDLER_MSG_ON_SEND`. -/
def msgOnSend : Int := msgOnRecieve + 1
/-- `SERVER_CLIENT_START`. -/
def serverClientStart : Int := msgOnSend + 1
/-- `SERVER_DATA_RECIEVED`. -/
def serverDataRecieved : Int := serverClientStart + 1
/-- `SERVER_CLIENT_HANDLER_MSG_ON_MAX`. -/
def msgOnMax : Int := serverDataRecieved + 1
/-- `MESSAGE_HELLO_FROM_SERVER`. -/
def messageHelloFromServer : Int := msgOnMax + 1

/-! ### The handler -/

/-- The constructor, and `SetListener`. -/
def new (identifier : Int) (config : SocketConfig) (configListener recieveListener : Bool) :
    XLServerClientHandler where
  clientIdentifier := identifier
  eventPlace := XLThreadEvent.new
  recieveListener := recieveListener
  reports := []
  recieverSocket := none
  sockConfig := config.copy
  configListener := configListener
  sends := []

/-- The second part of `Start`. -/
def makeSocket (h : XLServerClientHandler) : XLServerClientHandler :=
  match h.recieverSocket with
  | some _ => h
  | none =>
      let config := { h.sockConfig with portNumber := h.sockConfig.portNumber + 1 }
      { h with
        sockConfig := config
        recieverSocket := some (XLSocket.new config h.configListener false) }

/-- The event of `PutEvent(int)`. -/
def eventOf (type : Int) : XLThreadEvent := XLThreadEvent.new.setType type

/-- The event of `PutEvent(int, char*, int)`. -/
def eventWith (type : Int) (msg : Option (List UInt8)) (len : Int) : XLThreadEvent :=
  (XLThreadEvent.new.setType type).setData msg len

/-- `m_EventPlace` is sent. -/
def send (h : XLServerClientHandler) : XLServerClientHandler :=
  { h with sends := h.sends ++ [⟨h.clientIdentifier, h.eventPlace.pData, h.eventPlace.iLength⟩] }

/-- The message type is sent, as the four bytes it has in memory. -/
def sendType (h : XLServerClientHandler) (type : Int) : XLServerClientHandler :=
  { h with eventPlace := h.eventPlace.setData (some (Bytes.ofInt 4 type)) 4 }.send

/-- `m_SockConfig` is written to `m_EventPlace`, as far as there is room. -/
def writeConfig (h : XLServerClientHandler) : XLServerClientHandler :=
  match h.sockConfig.writeToSend (h.eventPlace.pData.getD []) h.eventPlace.iLength with
  | some bytes =>
      { h with eventPlace := { h.eventPlace with pData := h.eventPlace.pData.map fun _ => bytes } }
  | none => h

/-- `InterpretDataAndSendEvent` does nothing to the handler. -/
def onData (h : XLServerClientHandler) : XLServerClientHandler :=
  if h.recieveListener then
    { h with reports := h.reports ++ [⟨h.eventPlace.pData, h.eventPlace.iLength⟩] }
  else h

/-- `t_OnEvent` up to its `Put`, and the event it puts, if any. -/
def tOnEventFront (h : XLServerClientHandler) (e : XLThreadEvent) :
    XLServerClientHandler × Option XLThreadEvent :=
  let h := { h with eventPlace := e }
  let type := e.iType
  if type = msgOnConnect ∨ type = msgOnDisconnect ∨ type = msgOnAlive ∨ type = msgOnRecieve then
    (h.sendType type, none)
  else if type = msgOnSend then
    (h, some (eventWith msgOnSend h.eventPlace.pData h.eventPlace.iLength))
  else if type = serverDataRecieved then
    (h, some (eventWith msgOnRecieve h.eventPlace.pData h.eventPlace.iLength))
  else if type = serverClientStart then
    let h := { h with eventPlace := h.eventPlace.reset.setType messageHelloFromServer }
    (h.writeConfig.send, none)
  else
    -- `t_OnOtherEvents` is empty.
    (h, none)

/-- The rest of it, where there was a `Put`; `type` is that of the event. -/
def tOnEventBack (h : XLServerClientHandler) (type : Int) : XLServerClientHandler :=
  if type = msgOnSend then h.sendType type else h.onData

end XLServerClientHandler

end ServClient
