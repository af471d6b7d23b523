/-
`XLSocket`, and the system calls it makes.

A descriptor is an `int`, and `INVALID_SOCKET` is -1.  The answers of the system are part of
each step; what `socket` returns is either -1 or not open already.  The calls an object makes
are logged in their order, with what the system answered.

`listen` may fail, but nothing looks at that.  Sending and receiving, the pauses between two
attempts to bind, the printing of the configuration and the session of another platform are
left out, and of the event listener it only matters whether there is one.
-/
import ServClient.SocketConfig
import ServClient.Lib.Ledger
import ServClient.Lib.Runs

namespace ServClient

/-- `INVALID_SOCKET`. -/
def invalidSocket : Int := -1

/-- A call with its result, or what the object is given or gives away. -/
inductive SocketCall
  /-- The constructor from a descriptor. -/
  | adopt (sock : Int)
  | socket (result : Int)
  | connect (ok : Bool)
  | bind (ok : Bool)
  | listen
  | accept (result : Int)
  /-- `OnAccept`, with a new object for the accepted descriptor. -/
  | onAccept (sock : Int)
  | close (sock : Int)
deriving DecidableEq, Repr

/-- A call that opens a descriptor of the object, or closes one. -/
def SocketCall.entry : SocketCall → Ledger.Entry Int
  | adopt sock | socket sock => if 0 ≤ sock then .take sock else .other
  | close sock => .give sock
  | connect _ | bind _ | listen | accept _ | onAccept _ => .other

/-- The results of `Start`. -/
inductive SocketResult
  | ok | noStartup | noSocket | noConnect | noBind | wrongVersion | fail
deriving DecidableEq, Repr

/-- What the system answers during one `Start`. -/
structure SocketAnswers where
  socket : Int
  connect : Bool
  /-- The attempts to bind, by their number. -/
  binds : Nat → Bool
  accept : Int

/-- The socket, with the calls it has made of the system. -/
structure XLSocket where
  serverMode : Bool
  config : SocketConfig
  /-- The configuration has an event listener. -/
  listener : Bool
  active : Bool
  listenSocket : Int
  log : List SocketCall

namespace XLSocket

/-- The constructor from a configuration. -/
def new (config : SocketConfig) (listener isServerMode : Bool) : XLSocket where
  serverMode := isServerMode
  config := config.copy
  listener := listener
  active := false
  listenSocket := invalidSocket
  log := []

/-- The constructor from a descriptor. -/
def ofSocket (sock : Int) : XLSocket where
  serverMode := true
  config := SocketConfig.new
  listener := false
  active := true
  listenSocket := sock
  log := [.adopt sock]

/-- `SetConfig`. -/
def setConfig (s : XLSocket) (conf : SocketConfig) (listener : Bool) : XLSocket :=
  { s with config := s.config.assign conf, listener := listener }

/-- One more call of the system is made. -/
def call (s : XLSocket) (c : SocketCall) : XLSocket := { s with log := s.log ++ [c] }

/-- `m_ListenSocket = socket(...)`. -/
def openSocket (s : XLSocket) (a : SocketAnswers) : XLSocket :=
  { s.call (.socket a.socket) with listenSocket := a.socket }

/-- `TryConnect`, on a client that is not active. -/
def tryConnect (s : XLSocket) (a : SocketAnswers) : XLSocket × SocketResult :=
  if s.serverMode || s.active then (s, .fail)
  else
    let s := s.openSocket a
    if s.listenSocket = invalidSocket then (s, .noSocket)
    else
      let s := s.call (.connect a.connect)
      if a.connect then ({ s with active := true }, .ok) else (s, .noConnect)

/-- The loop around `bind`, from attempt `k` on and with so many retries left. -/
def bindRetrying (binds : Nat → Bool) : Nat → Nat → XLSocket → XLSocket × Bool
  | retries, k, s =>
      let s := s.call (.bind (binds k))
      if binds k then (s, true)
      else
        match retries with
        | 0 => (s, false)
        | retries + 1 => bindRetrying binds retries (k + 1) s

/-- The attempts after the first, while fewer than `m_ConnectionTries` were made. -/
def retries (config : SocketConfig) : Nat := (config.connectionTries.toInt - 1).toNat

/-- `ListenOnPort`, on a server that is not active. -/
def listenOnPort (s : XLSocket) (a : SocketAnswers) : XLSocket × SocketResult :=
  if !s.serverMode || s.active then (s, .fail)
  else
    let s := s.openSocket a
    if s.listenSocket = invalidSocket then (s, .noSocket)
    else
      let (s, bound) := bindRetrying a.binds (retries s.config) 0 s
      if bound then ({ s.call .listen with active := true }, .ok) else (s, .noBind)

/-- The accepted descriptor goes to a new object, which the listener gets, or nowhere. -/
def acceptConnection (s : XLSocket) (a : SocketAnswers) : XLSocket × Bool :=
  if !s.serverMode then (s, false)
  else
    let s := s.call (.accept a.accept)
    if s.listener then (s.call (.onAccept a.accept), true) else (s, true)

/-- `SetServerMode`. -/
def setServerMode (s : XLSocket) (set : Bool) : XLSocket := { s with serverMode := set }

/-- The object `OnAccept` gets. -/
def clientSock (s : XLSocket) (sock : Int) : XLSocket :=
  ((ofSocket sock).setConfig s.config s.listener).setServerMode s.serverMode

/-- `Start`: a server listens and accepts, a client connects. -/
def start (s : XLSocket) (a : SocketAnswers) : XLSocket × SocketResult :=
  if s.serverMode then
    let (s, errorCode) := s.listenOnPort a
    if errorCode ≠ .ok then (s, errorCode)
    else
      let (s, accepted) := s.acceptConnection a
      if accepted then ({ s with active := true }, errorCode) else (s, .fail)
  else
    let (s, errorCode) := s.tryConnect a
    if errorCode ≠ .ok then (s, errorCode) else ({ s with active := true }, errorCode)

/-- `OnCleanUp`, which closes the listening descriptor whatever it is. -/
def onCleanUp (s : XLSocket) : XLSocket :=
  { s.call (.close s.listenSocket) with active := false }

/-- `Stop`. -/
def stop (s : XLSocket) : XLSocket := s.onCleanUp

/-- The destructor. -/
def destroy (s : XLSocket) : XLSocket := s.onCleanUp

/-- The descriptors the object has opened or was given, and has not closed. -/
def owned (s : XLSocket) : List Int := Ledger.held SocketCall.entry s.log

/-- `socket` returns -1 or a descriptor that is not open. -/
def isFresh (s : XLSocket) (a : SocketAnswers) : Bool :=
  a.socket = invalidSocket || (decide (0 ≤ a.socket) && a.socket ∉ s.owned)

end XLSocket

/-- The two ways to make an object; the second is followed by `SetConfig`. -/
inductive SocketMade
  | config (config : SocketConfig) (listener isServerMode : Bool)
  | descriptor (sock : Int) (conf : SocketConfig) (listener : Bool)

/-- What the owner of a socket does with it. -/
inductive SocketStep
  | start (a : SocketAnswers)
  | stop

namespace XLSocket

/-- The two ways in which a socket is made. -/
def make : SocketMade → XLSocket
  | .config config listener isServerMode => new config listener isServerMode
  | .descriptor sock conf listener => (ofSocket sock).setConfig conf listener

/-- One call of the owner, with what the system answers it. -/
def next (s : XLSocket) : SocketStep → Option XLSocket
  | .start a => if s.isFresh a then some (s.start a).1 else none
  | .stop => some s.stop

end XLSocket

end ServClient
