/-
What the secure sockets of a process have to do with the library's session.

A secure socket copies the session's context when it is made and clears it when it is stopped, and
`SSL_new` makes nothing without one.  So a socket that connects has never been stopped
(`works_in_first_life`).

A certificate could matter in two places.  Where verification is asked for the handshake makes its
checks, but the callback lets every outcome pass.  And `CertifyPeer` is called where the session
says that the peer can certify, and that flag is never set.  So no setting of the library makes a
certificate matter (`certificates_ignored`).

What could fail is a client that is started again while it is connected: a `Start` that gets no
object from `SSL_new` leaves it connected without one (`transfers_on_object_iff`).
-/
import ServClient.LibraryInterface
import ServClient.Proofs.SSLSocket
import ServClient.Proofs.SSLSession
import ServClient.Lib.Calls

namespace ServClient

open Runs

/-! ### One `Start` -/

namespace XLSSLSocket

variable {s : XLSSLSocket} {a : SSLAnswers}

@[simp] theorem call_connectionCtx (s : XLSSLSocket) (c : SSLCall) :
    (s.call c).connectionCtx = s.connectionCtx := rfl

@[simp] theorem onConnect_connectionCtx (s : XLSSLSocket) :
    s.onConnect.connectionCtx = s.connectionCtx := by
  unfold onConnect
  split <;> rfl

/-- A `Start` as far as `SSL_new`. -/
def reachesNew (a : SSLAnswers) : Bool := decide (a.socket ≠ invalidSocket) && a.connect

theorem startAsClient_keeps {canPeerCertify : Bool} (hsession : s.session = some canPeerCertify)
    (a : SSLAnswers) :
    (s.startAsClient a).1.connectionCtx = s.connectionCtx ∧
      (s.startAsClient a).1.secureStruct =
        if reachesNew a then a.sslNew else s.secureStruct := by
  unfold startAsClient reachesNew createSocket
  rw [hsession]
  by_cases hsocket : a.socket = invalidSocket
  · simp [hsocket]
  cases hconnect : a.connect with
  | false => simp [hsocket]
  | true =>
      cases hnew : a.sslNew with
      | none => simp [hsocket]
      | some ssl =>
          simp only [hsocket, ne_eq, not_false_eq_true, decide_true, Bool.not_true,
            Bool.false_eq_true, if_false, Bool.and_self, if_true]
          split
          · exact ⟨rfl, rfl⟩
          · split
            · split <;> simp [setConnected]
            · simp [setConnected]

end XLSSLSocket

namespace SSLSocketObject

open XLSSLSocket (reachesNew)

variable {s : SSLSocketObject} {a : SSLAnswers}

/-- What a `Start` can do to an object that has its session. -/
structure Started (s : SSLSocketObject) (a : SSLAnswers) : Prop where
  session : (s.start a).1.base.session = s.base.session
  connectionCtx : (s.start a).1.base.connectionCtx = s.base.connectionCtx
  serverMode : (s.start a).1.serverMode = s.serverMode
  active : (s.start a).1.active = s.active
  secureStruct : (s.start a).1.base.secureStruct =
    if s.serverMode = false ∧ reachesNew a = true then a.sslNew else s.base.secureStruct
  result : ((s.start a).2 = .ok ∧ (s.serverMode = false ∧ reachesNew a = true) ∧
      a.sslNew.isSome = true ∧ (s.start a).1.base.connected = true) ∨
    ((s.start a).2 ≠ .ok ∧ (s.start a).1.base.connected = s.base.connected)

theorem started {canPeerCertify : Bool} (hsession : s.base.session = some canPeerCertify)
    (a : SSLAnswers) : Started s a := by
  cases hmode : s.serverMode with
  | true =>
      have hstart : s.start a = ({ s with base := (s.base.createSocket a).1 },
          if (s.base.createSocket a).2 then .noBind else .noSocket) := by
        rw [start, if_pos hmode, startAsServer, hsession]
        rfl
      have hfail : (s.start a).2 ≠ .ok := by
        rw [hstart]
        dsimp only
        split <;> simp
      refine ⟨?_, ?_, ?_, ?_, ?_, Or.inr ⟨hfail, ?_⟩⟩ <;>
        simp [hstart, XLSSLSocket.createSocket, hmode]
  | false =>
      have hstart : s.start a =
          ({ s with base := (s.base.startAsClient a).1 }, (s.base.startAsClient a).2) := by
        rw [start, if_neg (by rw [hmode]; exact Bool.false_ne_true)]
      obtain ⟨hctx, hstruct⟩ := XLSSLSocket.startAsClient_keeps hsession a
      rcases XLSSLSocket.startAsClient_cases hsession a with
        ⟨hpasses, hok, hconnected, -, hsame⟩ | ⟨-, hfail, hconnected, hsame⟩
      · simp only [XLSSLSocket.passes, Bool.and_eq_true] at hpasses
        obtain ⟨⟨⟨⟨hsocket, hconnect⟩, hnew⟩, -⟩, -⟩ := hpasses
        have hreaches : reachesNew a = true := Bool.and_eq_true_iff.mpr ⟨hsocket, hconnect⟩
        refine ⟨?_, ?_, ?_, ?_, ?_, Or.inl ⟨?_, ⟨hmode, hreaches⟩, hnew, ?_⟩⟩ <;>
          simp [hstart, hctx, hstruct, hok, hconnected, hsame, hmode]
      · refine ⟨?_, ?_, ?_, ?_, ?_, Or.inr ⟨?_, ?_⟩⟩ <;>
          simp [hstart, hctx, hstruct, hfail, hconnected, hsame, hmode]

theorem stop_spec (s : SSLSocketObject) :
    s.stop.base.session = s.base.session ∧ s.stop.base.connectionCtx = none ∧
      s.stop.base.connected = false ∧ s.stop.serverMode = s.serverMode := by
  refine ⟨?_, rfl, rfl, rfl⟩
  unfold stop XLSSLSocket.stop
  dsimp only [XLSSLSocket.setConnected]
  split <;> split <;> rfl

/-- The object of an accepted connection: connected where it is active, with an object of
`SSL_new` and the session's context. -/
theorem ofSocket_spec (session : Option Bool) (ctx : Option Nat) (listener : Bool)
    (a : AcceptAnswers) :
    (ofSocket session ctx listener a).base.session = session ∧
      (ofSocket session ctx listener a).serverMode = true ∧
      (∀ c, (ofSocket session ctx listener a).base.connectionCtx = some c → ctx = some c) ∧
      ((ofSocket session ctx listener a).base.connected = true →
        (ofSocket session ctx listener a).active = true ∧
          (ofSocket session ctx listener a).base.secureStruct.isSome = true ∧
          (ofSocket session ctx listener a).base.connectionCtx.isSome = true) := by
  unfold ofSocket
  dsimp only
  split
  · cases ctx with
    | none => exact ⟨rfl, rfl, nofun, nofun⟩
    | some ctx =>
        cases hnew : a.sslNew with
        | none => exact ⟨rfl, rfl, fun c hc => hc, nofun⟩
        | some ssl =>
            dsimp only
            split
            · exact ⟨rfl, rfl, fun c hc => hc, fun _ => ⟨rfl, rfl, rfl⟩⟩
            · exact ⟨rfl, rfl, fun c hc => hc, nofun⟩
  · exact ⟨rfl, rfl, nofun, nofun⟩

/-- What `AcceptConnection` makes is made from the descriptor. -/
theorem acceptConnection_snd {session : Option Bool} {ctx : Option Nat} {b : AcceptAnswers}
    {made : SSLSocketObject × Bool} (h : (s.acceptConnection session ctx b).2 = some made) :
    made.1 = ofSocket session ctx s.base.listener b := by
  unfold acceptConnection at h
  split at h
  · cases h
  · dsimp only at h
    split at h
    · split at h
      · split at h <;> (cases h; rfl)
      · cases h; rfl
    · cases h; rfl

end SSLSocketObject

namespace CLibraryInterface

variable {r r' : CLibraryInterface} {l : LibraryStep} {i : Nat} {x : LibrarySocket}

/-! ### What one step can do

A step of the library changes one socket, makes one, or changes the session.  What the calls of a
socket keep, and what sockets are made with, all sockets have.
-/

/-- What one call can do, with what it finds. -/
inductive Moves (r : CLibraryInterface) : LibraryStep → CLibraryInterface → Prop
  | setUseSSL {set} : Moves r (.setUseSSL set) { r with sslSocket := set }
  | setLocalVerification {set} : Moves r (.setLocalVerification set)
      { r with session := r.session.setRemoteCertification set }
  | setRemoteVerification {set} : Moves r (.setRemoteVerification set)
      { r with session := r.session.setLocalCertification set }
  | startSocketLibrary {a} : Moves r (.startSocketLibrary a) (r.startSession a)
  | stopSocketLibrary : Moves r .stopSocketLibrary r.stopSession
  | getNormalSocket {listener mode} (hssl : r.sslSocket = false) :
      Moves r (.getDefaultSocket listener mode) r
  | getDefaultSocket {listener mode} (hssl : r.sslSocket = true) :
      Moves r (.getDefaultSocket listener mode) (r.getSSLSocket listener mode)
  | getSSLSocket {listener mode} :
      Moves r (.getSSLSocket listener mode) (r.getSSLSocket listener mode)
  | start {i a checks object} (hi : r.sockets[i]? = some ⟨object, true⟩)
      (ha : answers a ⟨object, true⟩ = true) :
      Moves r (.start i a checks)
        { r with
          sockets := r.sockets.set i ⟨(object.start (r.shakeStart object a checks)).1, true⟩ }
  | stop {i object} (hi : r.sockets[i]? = some ⟨object, true⟩) :
      Moves r (.stop i) { r with sockets := r.sockets.set i ⟨object.stop, true⟩ }
  | announced {i a checks object} (hi : r.sockets[i]? = some ⟨object, true⟩) :
      Moves r (.acceptConnection i a checks)
        (r.addSocket ⟨SSLSocketObject.ofSocket (some r.canPeerCertify) r.session.connectionCtx
          object.base.listener (r.shakeAccept a checks), true⟩)
  | dropped {i a checks object} (hi : r.sockets[i]? = some ⟨object, true⟩) :
      Moves r (.acceptConnection i a checks)
        (r.addSocket ⟨(SSLSocketObject.ofSocket (some r.canPeerCertify) r.session.connectionCtx
          object.base.listener (r.shakeAccept a checks)).stop, false⟩)
  | acceptNone {i a checks object} (hi : r.sockets[i]? = some ⟨object, true⟩) :
      Moves r (.acceptConnection i a checks) r
  | destroy {i object} (hi : r.sockets[i]? = some ⟨object, true⟩) :
      Moves r (.destroy i) { r with sockets := r.sockets.set i ⟨object.stop, false⟩ }

theorem onSocket_eq_some {f : SSLSocketObject → LibrarySocket} (h : r.onSocket i f = some r') :
    ∃ object, r.sockets[i]? = some ⟨object, true⟩ ∧
      r' = { r with sockets := r.sockets.set i (f object) } := by
  unfold onSocket at h
  split at h
  · rename_i object hi
    cases h
    exact ⟨object, hi, rfl⟩
  · cases h

theorem moves_of_next (h : r.next l = some r') : Moves r l r' := by
  cases l with
  | setUseSSL set => cases h; exact .setUseSSL
  | setLocalVerification set => cases h; exact .setLocalVerification
  | setRemoteVerification set => cases h; exact .setRemoteVerification
  | startSocketLibrary a => cases h; exact .startSocketLibrary
  | stopSocketLibrary => cases h; exact .stopSocketLibrary
  | getDefaultSocket listener mode =>
      simp only [next] at h
      split at h
      · rename_i hssl; cases h; exact .getDefaultSocket hssl
      · rename_i hssl; cases h; exact .getNormalSocket (Bool.eq_false_iff.mpr hssl)
  | getSSLSocket listener mode => cases h; exact .getSSLSocket
  | start i a checks =>
      simp only [next] at h
      split at h
      · rename_i ha
        obtain ⟨object, hi, rfl⟩ := onSocket_eq_some h
        exact .start hi (by simpa [hi] using ha)
      · cases h
  | stop i =>
      obtain ⟨object, hi, rfl⟩ := onSocket_eq_some h
      exact .stop hi
  | acceptConnection i a checks =>
      simp only [next] at h
      split at h
      · rename_i object hi
        split at h
        · rename_i clientSock hmade
          cases h
          rw [show clientSock = _ from SSLSocketObject.acceptConnection_snd hmade]
          exact .announced hi
        · rename_i clientSock hmade
          cases h
          rw [show clientSock = _ from SSLSocketObject.acceptConnection_snd hmade]
          exact .dropped hi
        · cases h; exact .acceptNone hi
      · cases h
  | destroy i =>
      obtain ⟨object, hi, rfl⟩ := onSocket_eq_some h
      exact .destroy hi

@[simp] theorem startSession_sockets (r : CLibraryInterface) (a : SessionAnswers) :
    (r.startSession a).sockets = r.sockets := by
  unfold startSession
  split <;> rfl

@[simp] theorem stopSession_sockets (r : CLibraryInterface) :
    r.stopSession.sockets = r.sockets := by
  unfold stopSession
  split <;> rfl

/-- What the calls of a socket keep, and what sockets are made with, every socket has. -/
theorem Moves.forall_sockets {P : LibrarySocket → Prop} (h : Moves r l r')
    (hs : ∀ x ∈ r.sockets, P x)
    (hmake : ∀ listener mode, P ⟨SSLSocketObject.new (some r.canPeerCertify)
      r.session.connectionCtx listener mode, true⟩)
    (haccept : ∀ listener a, P ⟨SSLSocketObject.ofSocket (some r.canPeerCertify)
      r.session.connectionCtx listener a, true⟩)
    (hstart : ∀ i a checks object, l = .start i a checks →
      r.sockets[i]? = some ⟨object, true⟩ → answers a ⟨object, true⟩ = true →
        P ⟨(object.start (r.shakeStart object a checks)).1, true⟩)
    (hstop : ∀ object alive, P ⟨object, true⟩ → P ⟨object.stop, alive⟩) :
    ∀ x ∈ r'.sockets, P x := by
  have hset {i : Nat} {y : LibrarySocket} (hy : P y) : ∀ x ∈ r.sockets.set i y, P x :=
    fun x hx => (List.mem_or_eq_of_mem_set hx).elim (hs x) fun heq => heq ▸ hy
  have hadd {y : LibrarySocket} (hy : P y) : ∀ x ∈ r.sockets ++ [y], P x := fun x hx =>
    (List.mem_append.mp hx).elim (hs x) fun hnew => List.mem_singleton.mp hnew ▸ hy
  cases h with
  | setUseSSL | setLocalVerification | setRemoteVerification | getNormalSocket | acceptNone =>
      exact hs
  | startSocketLibrary => rwa [startSession_sockets]
  | stopSocketLibrary => rwa [stopSession_sockets]
  | getDefaultSocket | getSSLSocket => exact hadd (hmake _ _)
  | start hi ha => exact hset (hstart _ _ _ _ rfl hi ha)
  | stop hi | destroy hi => exact hset (hstop _ _ (hs _ (List.mem_of_getElem? hi)))
  | announced => exact hadd (haccept _ _)
  | dropped => exact hadd (hstop _ _ (haccept _ _))

/-! ### Every socket has the session, and where it is connected a context

Every socket is made with the library's session, and a `Start` succeeds only with a context.  A
connected socket therefore has one, whatever the session has done since.
-/

/-- A socket has the session, and is connected with a context; a server only as it was made. -/
structure Sound (x : LibrarySocket) : Prop where
  session : x.object.base.session = some false
  connected : x.object.base.connected = true → x.object.base.connectionCtx.isSome = true ∧
    (x.object.serverMode = true → x.object.active = true)

theorem Sound.start {object : SSLSocketObject} {a : SSLAnswers} (h : Sound ⟨object, true⟩)
    (ha : answers a ⟨object, true⟩ = true) : Sound ⟨(object.start a).1, true⟩ := by
  have hstarted := SSLSocketObject.started h.session a
  refine ⟨hstarted.session.trans h.session, fun hconnected => ?_⟩
  dsimp only at hconnected ⊢
  rw [hstarted.connectionCtx, hstarted.serverMode, hstarted.active]
  rcases hstarted.result with ⟨-, ⟨hclient, -⟩, hnew, -⟩ | ⟨-, hsame⟩
  · refine ⟨?_, fun hserver => by rw [hclient] at hserver; cases hserver⟩
    obtain ⟨ssl, hssl⟩ := Option.isSome_iff_exists.mp hnew
    simpa [answers, hssl] using ha
  · exact h.connected (hsame ▸ hconnected)

theorem Sound.stop {object : SSLSocketObject} {alive : Bool} (h : Sound ⟨object, true⟩) :
    Sound ⟨object.stop, alive⟩ := by
  obtain ⟨hsession, -, hconnected, -⟩ := object.stop_spec
  refine ⟨hsession.trans h.session, fun hc => ?_⟩
  exact absurd (hconnected.symm.trans hc) (by decide)

/-- The flag that no call sets is not set, and every socket is sound. -/
structure Kept (r : CLibraryInterface) : Prop where
  flag : r.secondTypeRemoteVerification = false
  sockets : ∀ x ∈ r.sockets, Sound x

theorem kept_new : Kept new := ⟨rfl, List.forall_mem_nil _⟩

theorem Kept.next (h : Kept r) (hstep : r.next l = some r') : Kept r' := by
  have hcan : r.canPeerCertify = false := h.flag
  have hmoves := moves_of_next hstep
  refine ⟨?_, hmoves.forall_sockets h.sockets (fun listener mode => ⟨by rw [hcan]; rfl, nofun⟩)
    (fun listener a => ?_)
    (fun i a checks object _ hi ha => (h.sockets _ (List.mem_of_getElem? hi)).start
      (a := r.shakeStart object a checks) ha)
    fun object alive hx => hx.stop⟩
  · cases hmoves with
    | startSocketLibrary =>
        unfold startSession
        split <;> exact h.flag
    | stopSocketLibrary =>
        unfold stopSession
        split <;> exact h.flag
    | setUseSSL | setLocalVerification | setRemoteVerification | getNormalSocket
    | getDefaultSocket | getSSLSocket | start | stop | announced | dropped | acceptNone
    | destroy => exact h.flag
  · obtain ⟨hsession, -, -, hconnected⟩ := SSLSocketObject.ofSocket_spec (some r.canPeerCertify)
      r.session.connectionCtx listener a
    exact ⟨hsession.trans (by rw [hcan]),
      fun hc => ⟨(hconnected hc).2.2, fun _ => (hconnected hc).1⟩⟩

/-! ### Certificates

The handshake hands every certificate to `SSL_VerifyCallback`, which lets it pass, and `CertifyPeer`
is called where a flag says so that nobody sets.  So no step depends on what the peer shows.
-/

/-- SSL is on and the library started, and then a client is made. -/
def oneClient : List LibraryStep :=
  [.setUseSSL true, .startSocketLibrary SessionRun.served, .getDefaultSocket true false]

/-- `SSL_write` and `SSL_read` are called where the socket is connected, and get an object. -/
def TransfersOnObject (r : CLibraryInterface) : Prop :=
  ∀ x ∈ r.sockets, x.object.base.connected = true → x.object.base.secureStruct.isSome = true

/-- No `Start` of a client that is connected gets as far as `SSL_new` and nothing from it. -/
def KeepsObject (r : CLibraryInterface) : LibraryStep → Prop
  | .start i a _ => ∀ x, r.sockets[i]? = some x → x.object.base.connected = true →
      x.object.serverMode = false → XLSSLSocket.reachesNew a = true → a.sslNew.isSome = true
  | _ => True

theorem transfers_next (h : Kept r) (hr : TransfersOnObject r) (hl : KeepsObject r l)
    (hstep : r.next l = some r') : TransfersOnObject r' := by
  refine (moves_of_next hstep).forall_sockets hr (fun listener mode => nofun)
    (fun listener a hconnected => ?_) (fun i a checks object hlabel hi ha hconnected => ?_)
    fun object alive _ => nofun
  · obtain ⟨-, -, -, hmade⟩ := SSLSocketObject.ofSocket_spec (some r.canPeerCertify)
      r.session.connectionCtx listener a
    exact (hmade hconnected).2.1
  · subst hlabel
    have hmem := List.mem_of_getElem? hi
    have hstarted := SSLSocketObject.started (h.sockets _ hmem).session
      (r.shakeStart object a checks)
    dsimp only at hconnected ⊢
    rw [hstarted.secureStruct]
    rcases hstarted.result with ⟨-, hreaches, hnew, -⟩ | ⟨-, hsame⟩
    · rw [if_pos hreaches]
      exact hnew
    · rw [hsame] at hconnected
      split
      · rename_i hreaches
        exact hl _ hi hconnected hreaches.1 hreaches.2
      · exact hr _ hmem hconnected

theorem not_transfers (h : Kept r) (hl : ¬ KeepsObject r l) (hstep : r.next l = some r') :
    ¬ TransfersOnObject r' := by
  cases l with
  | start i a checks =>
      simp only [KeepsObject, not_forall] at hl
      obtain ⟨x, hx, hconnected, hclient, hreaches, hnone⟩ := hl
      cases moves_of_next hstep with
      | @start _ _ _ object hi ha =>
          obtain rfl : (⟨object, true⟩ : LibrarySocket) = x := Option.some.inj (hi.symm.trans hx)
          have hstarted := SSLSocketObject.started (h.sockets _ (List.mem_of_getElem? hi)).session
            (r.shakeStart object a checks)
          intro htransfers
          have hmem : (⟨(object.start (r.shakeStart object a checks)).1, true⟩ : LibrarySocket) ∈
              r.sockets.set i ⟨(object.start (r.shakeStart object a checks)).1, true⟩ :=
            List.mem_of_getElem? (List.getElem?_set_self (Calls.lt_of_getElem?_eq_some hi))
          rcases hstarted.result with ⟨-, -, hnew, -⟩ | ⟨-, hsame⟩
          · exact hnone hnew
          · have hobject := htransfers _ hmem (hsame.trans hconnected)
            dsimp only at hobject
            rw [hstarted.secureStruct, if_pos ⟨hclient, hreaches⟩] at hobject
            exact hnone hobject
  | setUseSSL | setLocalVerification | setRemoteVerification | startSocketLibrary
  | stopSocketLibrary | getDefaultSocket | getSSLSocket | stop | acceptConnection | destroy =>
      exact absurd trivial hl

/--
In a run of the library and its sockets `Send` and `Recieve` always have an object to call
`SSL_write` and `SSL_read` with, if and only if no client that is connected is started again and
then gets none from `SSL_new`.
-/
theorem transfers_on_object_iff {ls : List LibraryStep} (hrun : exec next new ls = some r) :
    Throughout next TransfersOnObject new ls ↔ Along next KeepsObject new ls :=
  throughout_iff_along (I := fun r => Kept r ∧ TransfersOnObject r) (fun _ h => h.2)
    (fun _ _ _ hu hl hstep => ⟨hu.1.next hstep, transfers_next hu.1 hu.2 hl hstep⟩)
    (fun _ _ _ hu hl hstep => not_transfers hu.1 hl hstep)
    ⟨kept_new, List.forall_mem_nil _⟩ hrun

theorem transfers_on_object_iff_oneClient :
    Throughout next TransfersOnObject new
        (oneClient ++ [.start 0 SSLClient.welcome [], .start 0 SSLClient.welcome []]) ↔
      Along next KeepsObject new
        (oneClient ++ [.start 0 SSLClient.welcome [], .start 0 SSLClient.welcome []]) := by
  obtain ⟨r, hr⟩ := Option.isSome_iff_exists.mp (show (exec next new
    (oneClient ++ [.start 0 SSLClient.welcome [], .start 0 SSLClient.welcome []])).isSome = true by
      decide)
  exact transfers_on_object_iff hr

/-! ### The one life of a socket

`Stop` of a socket takes its context away for good, since the session gives one out at the
construction of a socket only.
-/

/-- A `Start` of the socket can succeed, or a `Send` or a `Recieve`. -/
def Works (x : LibrarySocket) : Prop :=
  (∃ a, answers a x = true ∧ (x.object.start a).2 = .ok) ∨
    (∃ msg n, (x.object.send msg n).1 = .socketNoError) ∨
      ∃ bufRead, x.object.recieve bufRead = .socketNoError

/-- It takes a context, and a server does nothing but as an accepted connection. -/
theorem Sound.works (h : Sound x) (hworks : Works x) :
    x.object.base.connectionCtx.isSome = true ∧
      (x.object.serverMode = true → x.object.active = true) := by
  rcases hworks with ⟨a, ha, hok⟩ | ⟨msg, n, hsend⟩ | ⟨bufRead, hrecieve⟩
  · rcases (SSLSocketObject.started h.session a).result with
      ⟨-, ⟨hclient, -⟩, hnew, -⟩ | ⟨hfail, -⟩
    · obtain ⟨ssl, hssl⟩ := Option.isSome_iff_exists.mp hnew
      refine ⟨by simpa [answers, hssl] using ha, fun hserver => ?_⟩
      rw [hclient] at hserver
      cases hserver
    · exact absurd hok hfail
  · cases hconnected : x.object.base.connected with
    | true => exact h.connected hconnected
    | false =>
        rw [SSLSocketObject.send, hconnected] at hsend
        cases hsend
  · cases hconnected : x.object.base.connected with
    | true => exact h.connected hconnected
    | false =>
        rw [SSLSocketObject.recieve, hconnected] at hrecieve
        cases hrecieve

/-- Socket `i` is there, without a context. -/
def Dry (i : Nat) (r : CLibraryInterface) : Prop :=
  ∃ x, r.sockets[i]? = some x ∧ x.object.base.connectionCtx = none

/-- Nothing gives a socket a context again. -/
theorem Dry.next (h : Dry i r) (hkept : Kept r) (hstep : r.next l = some r') : Dry i r' := by
  cases moves_of_next hstep with
  | setUseSSL | setLocalVerification | setRemoteVerification | getNormalSocket | acceptNone =>
      exact h
  | startSocketLibrary => simpa only [Dry, startSession_sockets] using h
  | stopSocketLibrary => simpa only [Dry, stopSession_sockets] using h
  | getDefaultSocket | getSSLSocket | announced | dropped => exact Calls.exists_concat _ h
  | @start j a checks object hj ha =>
      have hstarted := SSLSocketObject.started
        (hkept.sockets _ (List.mem_of_getElem? hj)).session (r.shakeStart object a checks)
      exact Calls.exists_set hj (fun hnone => hstarted.connectionCtx.trans hnone) h
  | stop hj | destroy hj => exact Calls.exists_set hj (fun _ => rfl) h

theorem dry_of_stop (hstep : r.next (.stop i) = some r') : Dry i r' := by
  obtain ⟨object, hi, rfl⟩ := onSocket_eq_some hstep
  exact ⟨_, List.getElem?_set_self (Calls.lt_of_getElem?_eq_some hi), rfl⟩

/-- `Stop` of the session gives it no context. -/
theorem isSome_of_stop {s : OpenSSLSession} (h : s.stop.connectionCtx.isSome = true) :
    s.connectionCtx.isSome = true := by
  cases hctx : s.connectionCtx with
  | some ctx => rfl
  | none =>
      cases hstarted : s.started with
      | true => simp [OpenSSLSession.stop, hstarted, hctx] at h
      | false =>
          rw [OpenSSLSession.stop_of_idle hstarted, hctx] at h
          exact h

/-- SSL has been switched on, and the library started with a context. -/
def HasStarted (done : LibraryStep → Prop) : Prop :=
  done (.setUseSSL true) ∧ ∃ a, a.ctxNew = true ∧ done (.startSocketLibrary a)

/-- A context is there because the library has been started. -/
structure Traced (done : LibraryStep → Prop) (r : CLibraryInterface) : Prop where
  kept : Kept r
  flag : r.sslSocket = true → done (.setUseSSL true)
  session : r.session.connectionCtx.isSome = true → HasStarted done
  sockets : ∀ x ∈ r.sockets, x.object.base.connectionCtx.isSome = true → HasStarted done

theorem traced_new {done : LibraryStep → Prop} : Traced done new :=
  ⟨kept_new, nofun, nofun, List.forall_mem_nil _⟩

theorem Traced.next {done : LibraryStep → Prop} (h : Traced done r) (hl : done l)
    (hstep : r.next l = some r') : Traced done r' := by
  have hmoves := moves_of_next hstep
  have hsockets : ∀ x ∈ r'.sockets, x.object.base.connectionCtx.isSome = true →
      HasStarted done := by
    refine hmoves.forall_sockets h.sockets (fun _ _ => h.session) (fun listener a hctx => ?_)
      (fun i a checks object _ hi _ hctx => ?_) fun object alive _ => nofun
    · obtain ⟨ctx, hsome⟩ := Option.isSome_iff_exists.mp hctx
      obtain ⟨-, -, hsession, -⟩ := SSLSocketObject.ofSocket_spec (some r.canPeerCertify)
        r.session.connectionCtx listener a
      exact h.session (by rw [hsession ctx hsome]; rfl)
    · have hmem := List.mem_of_getElem? hi
      have hstarted := SSLSocketObject.started (h.kept.sockets _ hmem).session
        (r.shakeStart object a checks)
      exact h.sockets _ hmem (hstarted.connectionCtx ▸ hctx)
  refine ⟨h.kept.next hstep, ?_, ?_, hsockets⟩
  · cases hmoves with
    | setUseSSL => exact fun hset => hset ▸ hl
    | startSocketLibrary =>
        unfold startSession
        split <;> exact h.flag
    | stopSocketLibrary =>
        unfold stopSession
        split <;> exact h.flag
    | setLocalVerification | setRemoteVerification | getNormalSocket | getDefaultSocket
    | getSSLSocket | start | stop | announced | dropped | acceptNone | destroy => exact h.flag
  · cases hmoves with
    | @startSocketLibrary a =>
        unfold startSession
        split
        · exact h.session
        · rename_i hssl
          intro hctx
          dsimp only at hctx
          cases hstarted : r.session.started with
          | true =>
              rw [OpenSSLSession.start_of_started hstarted] at hctx
              exact h.session hctx
          | false =>
              cases hnew : a.ctxNew with
              | false =>
                  rw [OpenSSLSession.start_none hstarted hnew] at hctx
                  cases hctx
              | true => exact ⟨h.flag (by simpa using hssl), a, hnew, hl⟩
    | stopSocketLibrary =>
        unfold stopSession
        split
        · exact h.session
        · exact fun hctx => h.session (isSome_of_stop hctx)
    | setUseSSL | setLocalVerification | setRemoteVerification | getNormalSocket | getDefaultSocket
    | getSSLSocket | start | stop | announced | dropped | acceptNone | destroy => exact h.session

/--
A secure socket that can still be started with success, or can send or receive, has never been
stopped; it is a client or an accepted connection, and was made after the library was started with
SSL on.
-/
theorem works_in_first_life {ls : List LibraryStep} (hrun : exec next new ls = some r)
    (hi : r.sockets[i]? = some x) (hworks : Works x) :
    .stop i ∉ ls ∧ (x.object.serverMode = true → x.object.active = true) ∧
      .setUseSSL true ∈ ls ∧ ∃ a, a.ctxNew = true ∧ .startSocketLibrary a ∈ ls := by
  have htraced : Traced (· ∈ ls) r :=
    exec_invariant_along (Q := fun _ l => l ∈ ls) (fun _ _ _ hu hl hstep => hu.next hl hstep)
      traced_new (along_of_forall fun l hl _ => hl) hrun
  have hmem := List.mem_of_getElem? hi
  obtain ⟨hctx, hserver⟩ := (htraced.kept.sockets x hmem).works hworks
  refine ⟨fun hstop => ?_, hserver, htraced.sockets x hmem hctx⟩
  obtain ⟨before, after, rfl⟩ := List.append_of_mem hstop
  rw [exec_append, Option.bind_eq_some_iff] at hrun
  obtain ⟨s, hbefore, hrest⟩ := hrun
  obtain ⟨t, hstep, hafter⟩ := exec_cons_eq_some.mp hrest
  have hkept : Kept t := (exec_invariant (fun _ _ _ hu hl => Kept.next hu hl) kept_new hbefore).next
    hstep
  obtain ⟨-, y, hy, hnone⟩ := exec_invariant (I := fun u => Kept u ∧ Dry i u)
    (fun _ _ _ hu hl => ⟨hu.1.next hl, hu.2.next hu.1 hl⟩) ⟨hkept, dry_of_stop hstep⟩ hafter
  rw [hi, Option.some.injEq] at hy
  rw [hy, hnone] at hctx
  cases hctx

theorem works_in_first_life_oneClient : .stop 0 ∉ oneClient ++ [.start 0 SSLClient.welcome []] ∧
    .setUseSSL true ∈ oneClient ++ [.start 0 SSLClient.welcome []] ∧
    ∃ a, a.ctxNew = true ∧
      .startSocketLibrary a ∈ oneClient ++ [.start 0 SSLClient.welcome []] := by
  obtain ⟨r, hr, hsocket⟩ := (Option.any_eq_true _ _).mp
    (show (exec next new (oneClient ++ [.start 0 SSLClient.welcome []])).any
      (fun r => r.sockets[0]?.any fun x => x.object.recieve 5 = .socketNoError) = true by decide)
  obtain ⟨x, hx, hrecieve⟩ := (Option.any_eq_true _ _).mp hsocket
  obtain ⟨hstop, -, hssl, hstarted⟩ := works_in_first_life hr hx
    (Or.inr (Or.inr ⟨5, of_decide_eq_true hrecieve⟩))
  exact ⟨hstop, hssl, hstarted⟩

end CLibraryInterface

end ServClient
