/-
`XLSSLSocket` as a client.

What the system and the library answer is part of each step.  `m_Session` is set by the
constructor; of the session it only matters whether it is an `OpenSSLSession`, and then what
`CanPeerCertify` says.  `m_pSSLBio` is null from the constructor on, so the branches that use it
are never taken; they are left out, and so are sending, receiving and the server.
-/
import ServClient.Socket

namespace ServClient

/-- A call with its result. -/
inductive SSLCall
  | socket (result : Int)
  | connect (ok : Bool)
  | sslNew (ctx result : Option Nat)
  | sslConnect (ssl : Nat) (result : Int)
  /-- `OnConnect` of the listener. -/
  | onConnect
  | sslFree (ssl : Nat)
  | close (sock : Int)
deriving DecidableEq, Repr

/-- What is answered during one `Start`. -/
structure SSLAnswers where
  socket : Int
  connect : Bool
  /-- The object of `SSL_new`, if there is one. -/
  sslNew : Option Nat
  sslConnect : Int
  /-- What `CertifyPeer` asks for is there: the certificate, its subject and its issuer. -/
  certificate : Bool
  subject : Bool
  issuer : Bool
deriving DecidableEq, Repr

/-- An SSL socket, with the calls it has made. -/
structure XLSSLSocket where
  /-- `none` is not an `OpenSSLSession`; else what its `CanPeerCertify` says. -/
  session : Option Bool
  /-- The configuration has an event listener. -/
  listener : Bool
  connectionCtx : Option Nat
  secureStruct : Option Nat
  connected : Bool
  socket : Int
  log : List SSLCall
deriving DecidableEq, Repr

namespace XLSSLSocket

/-- The constructor from a configuration; `ctx` is the context of the session. -/
def new (session : Option Bool) (ctx : Option Nat) (listener : Bool) : XLSSLSocket where
  session := session
  listener := listener
  connectionCtx := if session.isSome then ctx else none
  secureStruct := none
  connected := false
  socket := invalidSocket
  log := []

/-- One more call is made. -/
def call (s : XLSSLSocket) (c : SSLCall) : XLSSLSocket := { s with log := s.log ++ [c] }

/-- `SetConnected`. -/
def setConnected (s : XLSSLSocket) (set : Bool) : XLSSLSocket := { s with connected := set }

/-- `CreateSocket`. -/
def createSocket (s : XLSSLSocket) (a : SSLAnswers) : XLSSLSocket × Bool :=
  ({ s.call (.socket a.socket) with socket := a.socket }, decide (a.socket ≠ invalidSocket))

/-- `CertifyPeer`: there is a certificate, and both of its names can be read. -/
def certifyPeer (a : SSLAnswers) : Bool := a.certificate && a.subject && a.issuer

/-- `OnConnect`, which tells the listener. -/
def onConnect (s : XLSSLSocket) : XLSSLSocket := if s.listener then s.call .onConnect else s

/-- `Stop`: frees the SSL object, closes the descriptor, and forgets both. -/
def stop (s : XLSSLSocket) : XLSSLSocket :=
  let s :=
    match s.secureStruct with
    | some ssl => { s.call (.sslFree ssl) with secureStruct := none }
    | none => s
  let s :=
    if s.socket ≠ invalidSocket then
      { s.call (.close s.socket) with socket := invalidSocket }
    else s
  { s with connectionCtx := none }.setConnected false

/-- `StartAsClient`, returning at the first call that fails. -/
def startAsClient (s : XLSSLSocket) (a : SSLAnswers) : XLSSLSocket × SocketResult :=
  match s.session with
  | some canPeerCertify =>
      let (s, created) := s.createSocket a
      if !created then (s, .noSocket)
      else
        let s := s.call (.connect a.connect)
        if !a.connect then (s, .noConnect)
        else
          let s := { s.call (.sslNew s.connectionCtx a.sslNew) with secureStruct := a.sslNew }
          match a.sslNew with
          | none => (s, .noConnect)
          | some ssl =>
              let s := s.call (.sslConnect ssl a.sslConnect)
              if a.sslConnect < 0 then (s, .noConnect)
              else if canPeerCertify then
                if !certifyPeer a then (s, .noConnect)
                else (s.onConnect.onConnect.setConnected true, .ok)
              else (s.onConnect.setConnected true, .ok)
  | none => (s.stop.setConnected false, .fail)

end XLSSLSocket

/-- A client socket, and its last `Start` with what it returned. -/
structure SSLClient where
  socket : XLSSLSocket
  last : Option (SSLAnswers × SocketResult)
deriving DecidableEq, Repr

/-- What the owner of a socket does with it. -/
inductive SSLStep
  | start (a : SSLAnswers)
  | stop
deriving DecidableEq, Repr

namespace SSLClient

/-- A client as it is constructed. -/
def new (session : Option Bool) (ctx : Option Nat) (listener : Bool) : SSLClient :=
  { socket := XLSSLSocket.new session ctx listener, last := none }

/-- One step: a `Start`, whose answers and result are kept, or a `Stop`. -/
def next (c : SSLClient) : SSLStep → Option SSLClient
  | .start a =>
      let (socket, result) := c.socket.startAsClient a
      some { socket := socket, last := some (a, result) }
  | .stop => some { c with socket := c.socket.stop }

end SSLClient

end ServClient
