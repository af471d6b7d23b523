/-
`CLibraryInterface` with what is behind it: the flag of `XLSocketFactory`, the one
`OpenSSLSession`, and the secure sockets made with it.

`XLSSLSocket` is here in full: `ServClient/SSLSocket.lean` has the client, and this adds the server,
the objects of accepted connections, and `Send` and `Recieve`.  The build is the non-Windows one,
where the loop around `bind` is commented out and what was its body is run once.  `m_pSSLBio` is
null throughout.

A run is any sequence of calls, of the library and of any of the sockets.  What the system and the
OpenSSL library answer is part of each step; of `SSL_new` it is known that it makes nothing from a
null context.  An accepted object that the listener does not get is destroyed at once, and one that
it gets lives until it is destroyed.

Of the OpenSSL library two things matter beyond its answers.  An object that `SSL_new` makes takes
a reference of the context, and the mode and the callback of its verification.  And a handshake
calls that callback with the outcome of every check it makes of the peer's certificates, which is
part of the step too.

The files, the passwords and the ciphers, `WinsockSession`, whose `Stop` does nothing here, and the
sockets that are not secure are left out.
-/
import ServClient.SSLSocket
import ServClient.SSLSession
import ServClient.SocketTransfer

namespace ServClient

/-! ### The handshake -/

/-- `SSL_connect` and `SSL_accept`.  The callback is called with each of `checks`, and unless the
mode is `SSL_VERIFY_NONE` a 0 that it returns ends the handshake with an error.  Where the
certificates do not end it, it comes to `result`. -/
def handshake (verifyMode : Int) (verifyCallback : Int → Int) (checks : List Int)
    (result : Int) : Int :=
  if verifyMode ≠ sslVerifyNone ∧ ∃ preverifyOk ∈ checks, verifyCallback preverifyOk = 0 then -1
  else result

/-- With a callback that hands `preverify_ok` on, a peer whose certificate does not check is
refused. -/
example : handshake sslVerifyPeer id [1, 0] 1 = -1 ∧ handshake sslVerifyNone id [1, 0] 1 = 1 := by
  decide

/-! ### The socket -/

/-- What is answered during one `AcceptConnection`. -/
structure AcceptAnswers where
  accept : Int
  sslNew : Option Nat
  sslAccept : Int
  /-- What `CertifyPeer` asks for is there. -/
  certified : Bool
deriving DecidableEq, Repr

/-- `XLSSLSocket`, with what only its server looks at. -/
structure SSLSocketObject where
  base : XLSSLSocket
  serverMode : Bool
  active : Bool
deriving DecidableEq, Repr

namespace SSLSocketObject

/-- The constructor from a configuration. -/
def new (session : Option Bool) (ctx : Option Nat) (listener isServerMode : Bool) :
    SSLSocketObject where
  base := XLSSLSocket.new session ctx listener
  serverMode := isServerMode
  active := false

/-- `StartAsServer`.  Nothing is bound, and `listen` is not reached. -/
def startAsServer (s : SSLSocketObject) (a : SSLAnswers) : SSLSocketObject × SocketResult :=
  if s.base.session.isSome then
    let (base, created) := s.base.createSocket a
    ({ s with base := base }, if created then .noBind else .noSocket)
  else ({ s with base := s.base.stop.setConnected false }, .fail)

/-- `Start`. -/
def start (s : SSLSocketObject) (a : SSLAnswers) : SSLSocketObject × SocketResult :=
  if s.serverMode then s.startAsServer a
  else
    let (base, result) := s.base.startAsClient a
    ({ s with base := base }, result)

/-- `Stop`, which is the same for a client and a server. -/
def stop (s : SSLSocketObject) : SSLSocketObject := { s with base := s.base.stop }

/-- The constructor from a descriptor; `ctx` is the context the session has now. -/
def ofSocket (session : Option Bool) (ctx : Option Nat) (listener : Bool) (a : AcceptAnswers) :
    SSLSocketObject :=
  let base := { XLSSLSocket.new none none listener with session := session, socket := a.accept }
  let s := { base := base, serverMode := true, active := false }
  if session.isSome ∧ a.accept ≠ invalidSocket then
    match ctx with
    | none => s
    | some ctx =>
        let base := { base with connectionCtx := some ctx }
        let base := { base.call (.sslNew (some ctx) a.sslNew) with secureStruct := a.sslNew }
        match a.sslNew with
        | none => { s with base := base }
        | some _ =>
            if 0 < a.sslAccept then { s with base := base.setConnected true, active := true }
            else { s with base := base.setConnected false, active := false }
  else s

/-- `AcceptConnection`, with the object it makes, if any, and whether `OnAccept` gets that. -/
def acceptConnection (s : SSLSocketObject) (session : Option Bool) (ctx : Option Nat)
    (a : AcceptAnswers) : Bool × Option (SSLSocketObject × Bool) :=
  if !s.serverMode then (false, none)
  else
    let clientSock := ofSocket session ctx s.base.listener a
    if clientSock.active then
      match s.base.session with
      | some canPeerCertify =>
          if canPeerCertify && !a.certified then (false, some (clientSock, false))
          else (true, some (clientSock, s.base.listener))
      | none => (true, some (clientSock, false))
    else (false, some (clientSock, false))

/-- `Send`, where `SSL_write` returns `n`. -/
def send (s : SSLSocketObject) (msg : List UInt8) (n : Int) :
    SocketErrCode × List SocketReport :=
  if !s.base.connected then (.noConnection, [])
  else if n ≤ 0 then (.noConnection, [])
  else if s.base.listener then (.socketNoError, [.onSend msg msg.length])
  else (.socketNoError, [])

/-- `Recieve`, where `SSL_read` returns `bufRead`.  An error is not told from bytes. -/
def recieve (s : SSLSocketObject) (bufRead : Int) : SocketErrCode :=
  if !s.base.connected then .noConnection
  else if bufRead = 0 then .noConnection
  else .socketNoError

/-- The destructor. -/
def destroy (s : SSLSocketObject) : SSLSocketObject := s.stop

end SSLSocketObject

/-- A call that opens a descriptor, or closes one. -/
def SSLCall.descriptorEntry : SSLCall → Ledger.Entry Int
  | socket result => if 0 ≤ result then .take result else .other
  | close sock => .give sock
  | connect _ | sslNew _ _ | sslConnect _ _ | onConnect | sslFree _ => .other

/-- A call that makes an object from `ctx`, and with it a reference of `ctx`, or frees one. -/
def SSLCall.referenceEntry (ctx : Nat) : SSLCall → Ledger.Entry Nat
  | sslNew (some source) (some ssl) => if source = ctx then .take ssl else .other
  | sslFree ssl => .give ssl
  | socket _ | connect _ | sslNew none _ | sslNew (some _) none | sslConnect _ _ | onConnect
  | close _ => .other

/-- A call that makes an object of the OpenSSL library, or frees one. -/
def SSLCall.objectEntry : SSLCall → Ledger.Entry Nat
  | sslNew _ (some ssl) => .take ssl
  | sslFree ssl => .give ssl
  | socket _ | connect _ | sslNew _ none | sslConnect _ _ | onConnect | close _ => .other

namespace SSLSocketObject

/-- The descriptors that the socket has opened and not closed. -/
def descriptors (s : SSLSocketObject) : List Int :=
  Ledger.held SSLCall.descriptorEntry s.base.log

/-- The objects it was given and has not freed. -/
def objects (s : SSLSocketObject) : List Nat := Ledger.held SSLCall.objectEntry s.base.log

/-- The objects made from `ctx` that it has not freed. -/
def objectsOf (s : SSLSocketObject) (ctx : Nat) : List Nat :=
  Ledger.held (SSLCall.referenceEntry ctx) s.base.log

/-- `socket` returns -1 or a descriptor that is not open, and `SSL_new` null or an object that is
not there already. -/
def isFresh (s : SSLSocketObject) (a : SSLAnswers) : Bool :=
  (a.socket = invalidSocket || (decide (0 ≤ a.socket) && a.socket ∉ s.descriptors)) &&
    a.sslNew.all (· ∉ s.objects)

/-- One socket on its own. -/
def next (s : SSLSocketObject) : SSLStep → Option SSLSocketObject
  | .start a => if s.isFresh a then some (s.start a).1 else none
  | .stop => some s.stop

end SSLSocketObject

/-! ### The library -/

/-- A secure socket that has been made. -/
structure LibrarySocket where
  object : SSLSocketObject
  /-- It has not been destroyed. -/
  alive : Bool
deriving DecidableEq, Repr

/-- The library: the flag of the factory, its session, and every secure socket ever made. -/
structure CLibraryInterface where
  /-- `m_bSSLSocket` of the factory. -/
  sslSocket : Bool
  session : OpenSSLSession
  /-- `m_b2ndTypeRemoteVerification` of the session. -/
  secondTypeRemoteVerification : Bool
  sockets : List LibrarySocket
deriving DecidableEq, Repr

/-- A call of the library, or of one of the sockets. -/
inductive LibraryStep
  | setUseSSL (set : Bool)
  | setLocalVerification (set : Bool)
  | setRemoteVerification (set : Bool)
  | startSocketLibrary (a : SessionAnswers)
  | stopSocketLibrary
  | getDefaultSocket (listener isServerMode : Bool)
  | getSSLSocket (listener isServerMode : Bool)
  /-- A call of socket `i`; `checks` are the checks of the peer's certificates, and the handshake
  comes to the answer that is given if it does not fail for them. -/
  | start (i : Nat) (a : SSLAnswers) (checks : List Int)
  | stop (i : Nat)
  | acceptConnection (i : Nat) (a : AcceptAnswers) (checks : List Int)
  | destroy (i : Nat)
deriving DecidableEq, Repr

namespace CLibraryInterface

/-- The library as it is before any call. -/
def new : CLibraryInterface where
  sslSocket := false
  session := OpenSSLSession.new
  secondTypeRemoteVerification := false
  sockets := []

/-- `CanPeerCertify` of the session. -/
def canPeerCertify (r : CLibraryInterface) : Bool := r.secondTypeRemoteVerification

/-- `StartSession` of the factory. -/
def startSession (r : CLibraryInterface) (a : SessionAnswers) : CLibraryInterface :=
  if !r.sslSocket then r else { r with session := r.session.start a }

/-- `StopSession`. -/
def stopSession (r : CLibraryInterface) : CLibraryInterface :=
  if !r.sslSocket then r else { r with session := r.session.stop }

/-- One more socket. -/
def addSocket (r : CLibraryInterface) (x : LibrarySocket) : CLibraryInterface :=
  { r with sockets := r.sockets ++ [x] }

/-- `GetSocket(SST_OpenSSL, ...)`. -/
def getSSLSocket (r : CLibraryInterface) (listener isServerMode : Bool) : CLibraryInterface :=
  r.addSocket
    { object := SSLSocketObject.new (some r.canPeerCertify) r.session.connectionCtx listener
        isServerMode
      alive := true }

/-- A call of socket `i`. -/
def onSocket (r : CLibraryInterface) (i : Nat) (f : SSLSocketObject → LibrarySocket) :
    Option CLibraryInterface :=
  match r.sockets[i]? with
  | some ⟨object, true⟩ => some { r with sockets := r.sockets.set i (f object) }
  | _ => none

/-- A handshake of an object that `SSL_new` has made from `ctx`. -/
def shake (r : CLibraryInterface) (ctx : Option Nat) (checks : List Int) (result : Int) : Int :=
  handshake (ctx.elim sslVerifyNone r.session.verifyMode) OpenSSLSession.sslVerifyCallback checks
    result

/-- The answers of a `Start`, with what its handshake comes to. -/
def shakeStart (r : CLibraryInterface) (s : SSLSocketObject) (a : SSLAnswers)
    (checks : List Int) : SSLAnswers :=
  { a with sslConnect := r.shake s.base.connectionCtx checks a.sslConnect }

/-- Those of an `AcceptConnection`; the object is made from the context the session has now. -/
def shakeAccept (r : CLibraryInterface) (a : AcceptAnswers) (checks : List Int) : AcceptAnswers :=
  { a with sslAccept := r.shake r.session.connectionCtx checks a.sslAccept }

/-- The references of a context: the session's, and one of each object made from it. -/
def references (r : CLibraryInterface) (ctx : Nat) : Nat :=
  r.session.references.count ctx +
    (r.sockets.map fun x => (x.object.objectsOf ctx).length).sum

/-- `SSL_new` makes nothing from a null context. -/
def answers (a : SSLAnswers) (x : LibrarySocket) : Bool :=
  x.object.base.connectionCtx.isSome || a.sslNew.isNone

/-- One call; a socket that has been destroyed is not called. -/
def next (r : CLibraryInterface) : LibraryStep → Option CLibraryInterface
  | .setUseSSL set => some { r with sslSocket := set }
  | .setLocalVerification set =>
      some { r with session := r.session.setRemoteCertification set }
  | .setRemoteVerification set =>
      some { r with session := r.session.setLocalCertification set }
  | .startSocketLibrary a => some (r.startSession a)
  | .stopSocketLibrary => some r.stopSession
  | .getDefaultSocket listener isServerMode =>
      some (if r.sslSocket then r.getSSLSocket listener isServerMode else r)
  | .getSSLSocket listener isServerMode => some (r.getSSLSocket listener isServerMode)
  | .start i a checks =>
      if r.sockets[i]?.any (answers a) then
        r.onSocket i fun s => ⟨(s.start (r.shakeStart s a checks)).1, true⟩
      else none
  | .stop i => r.onSocket i fun s => ⟨s.stop, true⟩
  | .acceptConnection i a checks =>
      match r.sockets[i]? with
      | some ⟨object, true⟩ =>
          match (object.acceptConnection (some r.canPeerCertify) r.session.connectionCtx
            (r.shakeAccept a checks)).2 with
          | some (clientSock, true) => some (r.addSocket ⟨clientSock, true⟩)
          | some (clientSock, false) => some (r.addSocket ⟨clientSock.stop, false⟩)
          | none => some r
      | _ => none
  | .destroy i => r.onSocket i fun s => ⟨s.stop, false⟩

end CLibraryInterface

end ServClient
