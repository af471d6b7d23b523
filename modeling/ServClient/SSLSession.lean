/-
`OpenSSLSession`, and the contexts it makes.

What the library answers is part of each step.  Contexts are numbered in the order `SSL_CTX_new`
returns them.  The calls on contexts are logged with their results; the set-up and the clean-up
of the library itself and the names of the files are left out.

A context counts its references.  `SSL_CTX_new` makes the session's own and `SSL_CTX_free` gives
that back; those of the objects that are made from a context are not the session's
(`ServClient/LibraryInterface.lean`).
-/
import ServClient.Lib.Ledger
import ServClient.Lib.Runs

namespace ServClient

/-- `SSL_VERIFY_NONE` of OpenSSL: a verification that fails is not minded. -/
def sslVerifyNone : Int := 0

/-- `SSL_VERIFY_PEER`: the peer is verified, and where that fails so does the handshake. -/
def sslVerifyPeer : Int := 1

/-- A call with its result. -/
inductive SessionCall
  | ctxNew (result : Option Nat)
  | setCipherList (ctx : Nat) (ok : Bool)
  | useCertificateFile (ctx : Nat) (ok : Bool)
  | setDefaultPasswd (ctx : Nat)
  | usePrivateKeyFile (ctx : Nat) (ok : Bool)
  | checkPrivateKey (ctx : Nat) (result : Int)
  | loadVerifyLocations (ctx : Nat) (ok : Bool)
  | setVerify (ctx : Nat) (mode : Int)
  | ctxFree (ctx : Nat)
deriving DecidableEq, Repr

/-- A call that makes the session a reference of a context, or gives it back. -/
def SessionCall.entry : SessionCall → Ledger.Entry Nat
  | ctxNew (some ctx) => .take ctx
  | ctxFree ctx => .give ctx
  | ctxNew none | setCipherList .. | useCertificateFile .. | setDefaultPasswd _
  | usePrivateKeyFile .. | checkPrivateKey .. | loadVerifyLocations .. | setVerify .. => .other

/-- What the library answers during one `Start`. -/
structure SessionAnswers where
  ctxNew : Bool
  cipherList : Bool
  certificate : Bool
  privateKey : Bool
  /-- `SSL_CTX_check_private_key`: 1, and 0 where the key is not that of the certificate. -/
  checkPrivateKey : Int
  verifyLocations : Bool
deriving DecidableEq, Repr

/-- The session, with the calls it has made of the SSL library. -/
structure OpenSSLSession where
  connectionCtx : Option Nat
  localVerification : Bool
  remoteVerification : Bool
  started : Bool
  /-- How many contexts `SSL_CTX_new` has returned. -/
  made : Nat
  log : List SessionCall
deriving DecidableEq, Repr

namespace OpenSSLSession

/-- The constructor: no context, and neither certification asked for. -/
def new : OpenSSLSession where
  connectionCtx := none
  localVerification := false
  remoteVerification := false
  started := false
  made := 0
  log := []

/-- One more call of the SSL library is made. -/
def call (s : OpenSSLSession) (c : SessionCall) : OpenSSLSession := { s with log := s.log ++ [c] }

/-- The part of `Start` for `m_bLocalVerification`; false where it returns. -/
def startLocal (s : OpenSSLSession) (ctx : Nat) (a : SessionAnswers) : OpenSSLSession × Bool :=
  if s.localVerification then
    let s := s.call (.useCertificateFile ctx a.certificate)
    if !a.certificate then (s, false)
    else
      let s := (s.call (.setDefaultPasswd ctx)).call (.usePrivateKeyFile ctx a.privateKey)
      if !a.privateKey then (s, false)
      else
        let s := s.call (.checkPrivateKey ctx a.checkPrivateKey)
        if a.checkPrivateKey = -1 then (s, false) else (s, true)
  else (s, true)

/-- The part of `Start` for `m_bRemoteVerification`. -/
def startRemote (s : OpenSSLSession) (ctx : Nat) (a : SessionAnswers) : OpenSSLSession × Bool :=
  if s.remoteVerification then
    let s := s.call (.loadVerifyLocations ctx a.verifyLocations)
    if !a.verifyLocations then (s, false) else (s.call (.setVerify ctx sslVerifyPeer), true)
  else (s, true)

/-- `Start`: each call of the SSL library that fails is returned from as the source does. -/
def start (s : OpenSSLSession) (a : SessionAnswers) : OpenSSLSession :=
  if s.started then s
  else if !a.ctxNew then { s.call (.ctxNew none) with connectionCtx := none }
  else
    let ctx := s.made
    let s := { s.call (.ctxNew (some ctx)) with connectionCtx := some ctx, made := ctx + 1 }
    let s := s.call (.setCipherList ctx a.cipherList)
    let (s, ok) := s.startLocal ctx a
    if !ok then s
    else
      let (s, ok) := s.startRemote ctx a
      if !ok then s else { s with started := true }

/-- The destructor does the same. -/
def stop (s : OpenSSLSession) : OpenSSLSession :=
  if !s.started then s
  else
    let s :=
      match s.connectionCtx with
      | some ctx => { s.call (.ctxFree ctx) with connectionCtx := none }
      | none => s
    { s with started := false }

/-- `SetLocalCertification`. -/
def setLocalCertification (s : OpenSSLSession) (set : Bool) : OpenSSLSession :=
  { s with localVerification := set }

/-- `SetRemoteCertification`. -/
def setRemoteCertification (s : OpenSSLSession) (set : Bool) : OpenSSLSession :=
  { s with remoteVerification := set }

/-- The contexts the session has a reference of: those it has not passed to `SSL_CTX_free`. -/
def references (s : OpenSSLSession) : List Nat := Ledger.held SessionCall.entry s.log

/-- `SSL_VerifyCallback`, which `SSL_CTX_set_verify` is given: `preverify_ok` is not looked at. -/
def sslVerifyCallback (_preverifyOk : Int) : Int := 1

/-- The `verify_mode` of a context. -/
def verifyMode (s : OpenSSLSession) (ctx : Nat) : Int :=
  s.log.foldl (fun mode c =>
    match c with
    | .setVerify set m => if set = ctx then m else mode
    | _ => mode) sslVerifyNone

/-- All that the flags ask for is loaded, and the private key is that of the certificate. -/
def configures (s : OpenSSLSession) (a : SessionAnswers) : Bool :=
  (!s.localVerification || a.certificate && a.privateKey && decide (0 < a.checkPrivateKey)) &&
    (!s.remoteVerification || a.verifyLocations)

end OpenSSLSession

/-- A session, and the contexts that are fully configured. -/
structure SessionRun where
  session : OpenSSLSession
  configured : List Nat
deriving DecidableEq, Repr

/-- What the program does with its session. -/
inductive SessionStep
  | start (a : SessionAnswers)
  | stop
  | setLocalCertification (set : Bool)
  | setRemoteCertification (set : Bool)
deriving DecidableEq, Repr

namespace SessionRun

/-- A session nothing has been done with. -/
def new : SessionRun := { session := OpenSSLSession.new, configured := [] }

/-- One step of it; a context that has been configured is remembered. -/
def next (r : SessionRun) : SessionStep → Option SessionRun
  | .start a =>
      some {
        session := r.session.start a
        configured :=
          if !r.session.started && a.ctxNew && r.session.configures a then
            r.session.made :: r.configured
          else r.configured }
  | .stop => some { r with session := r.session.stop }
  | .setLocalCertification set =>
      some { r with session := r.session.setLocalCertification set }
  | .setRemoteCertification set =>
      some { r with session := r.session.setRemoteCertification set }

end SessionRun

end ServClient
