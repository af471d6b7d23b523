/-
When an `XLSSLSocket` is connected.

Only `Stop` and a `Start` that gets to its end set `m_bConnected`.  So a `Start` that fails on the
way leaves it as it was, and it was set if the socket was connected before.  And `SSL_connect` is
taken to have failed below zero only, so a handshake that was shut down, which is zero, counts.
-/
import ServClient.SSLSocket
import ServClient.Lib.Runs

namespace ServClient

open Runs

namespace XLSSLSocket

variable {s : XLSSLSocket} {a : SSLAnswers}

/-- What `StartAsClient` looks at to get to its end. -/
def passes (canPeerCertify : Bool) (a : SSLAnswers) : Bool :=
  decide (a.socket ≠ invalidSocket) && a.connect && a.sslNew.isSome && decide (0 ≤ a.sslConnect) &&
    (!canPeerCertify || certifyPeer a)

@[simp] theorem call_session (s : XLSSLSocket) (c : SSLCall) : (s.call c).session = s.session := rfl

@[simp] theorem call_connected (s : XLSSLSocket) (c : SSLCall) :
    (s.call c).connected = s.connected := rfl

@[simp] theorem call_secureStruct (s : XLSSLSocket) (c : SSLCall) :
    (s.call c).secureStruct = s.secureStruct := rfl

@[simp] theorem onConnect_session (s : XLSSLSocket) : s.onConnect.session = s.session := by
  unfold onConnect
  split <;> rfl

@[simp] theorem onConnect_secureStruct (s : XLSSLSocket) :
    s.onConnect.secureStruct = s.secureStruct := by
  unfold onConnect
  split <;> rfl

/-- A `Start` gets to its end, with the object of its `SSL_new`, or it fails and leaves
`m_bConnected` alone. -/
theorem startAsClient_cases {canPeerCertify : Bool} (hsession : s.session = some canPeerCertify)
    (a : SSLAnswers) :
    (passes canPeerCertify a = true ∧ (s.startAsClient a).2 = .ok ∧
        (s.startAsClient a).1.connected = true ∧
        (s.startAsClient a).1.secureStruct = a.sslNew ∧
        (s.startAsClient a).1.session = s.session) ∨
      (passes canPeerCertify a = false ∧ (s.startAsClient a).2 ≠ .ok ∧
        (s.startAsClient a).1.connected = s.connected ∧
        (s.startAsClient a).1.session = s.session) := by
  by_cases hsocket : a.socket = invalidSocket
  · exact Or.inr (by simp [startAsClient, hsession, createSocket, hsocket, passes])
  cases hconnect : a.connect with
  | false =>
      exact Or.inr (by simp [startAsClient, hsession, createSocket, hsocket, hconnect, passes])
  | true =>
      cases hnew : a.sslNew with
      | none =>
          exact Or.inr
            (by simp [startAsClient, hsession, createSocket, hsocket, hconnect, hnew, passes])
      | some ssl =>
          by_cases hless : a.sslConnect < 0
          · have hnot : ¬ 0 ≤ a.sslConnect := not_le.mpr hless
            exact Or.inr (by
              simp [startAsClient, hsession, createSocket, hsocket, hconnect, hnew, hless, hnot,
                passes])
          · have hle : 0 ≤ a.sslConnect := not_lt.mp hless
            cases hcan : canPeerCertify with
            | false =>
                subst hcan
                exact Or.inl (by
                  simp [startAsClient, hsession, createSocket, hsocket, hconnect, hnew, hless, hle,
                    passes, setConnected])
            | true =>
                subst hcan
                cases hcertify : certifyPeer a with
                | true =>
                    exact Or.inl (by
                      simp [startAsClient, hsession, createSocket, hsocket, hconnect, hnew, hless,
                        hle, hcertify, passes, setConnected])
                | false =>
                    exact Or.inr (by
                      simp [startAsClient, hsession, createSocket, hsocket, hconnect, hnew, hless,
                        hcertify, passes])

/-- Without a session `Start` stops the socket. -/
theorem startAsClient_none (hsession : s.session = none) (a : SSLAnswers) :
    s.startAsClient a = (s.stop.setConnected false, .fail) := by
  rw [startAsClient, hsession]

end XLSSLSocket

namespace SSLClient

open XLSSLSocket

variable {c c' : SSLClient}

/-- The socket is connected only after a handshake of its last `Start`, and not where that has
failed. -/
structure Secure (c : SSLClient) : Prop where
  handshake : c.socket.connected = true → ∃ a ssl, c.last = some (a, .ok) ∧
    a.sslNew = some ssl ∧ c.socket.secureStruct = some ssl ∧ 0 < a.sslConnect ∧
    (c.socket.session = some true → certifyPeer a = true)
  failed : ∀ a result, c.last = some (a, result) → result ≠ .ok → c.socket.connected = false

/-- A `Start` that gets to its end had a handshake, and one that does not finds the socket
unconnected. -/
def Shakes (c : SSLClient) : SSLStep → Prop
  | .start a => ∀ canPeerCertify, c.socket.session = some canPeerCertify →
      if passes canPeerCertify a then a.sslConnect ≠ 0 else c.socket.connected = false
  | .stop => True

theorem secure_new (session : Option Bool) (ctx : Option Nat) (listener : Bool) :
    Secure (new session ctx listener) where
  handshake := fun h => by cases h
  failed := fun a result h => by cases h

theorem secure_start_iff {a : SSLAnswers} (hs : c.next (.start a) = some c') :
    Secure c' ↔ Shakes c (.start a) := by
  have hc' : c' = ⟨(c.socket.startAsClient a).1, some (a, (c.socket.startAsClient a).2)⟩ :=
    (Option.some.inj hs).symm
  subst hc'
  cases hsession : c.socket.session with
  | none =>
      have hunconnected : (c.socket.startAsClient a).1.connected = false := by
        rw [startAsClient_none hsession]
        rfl
      refine iff_of_true ⟨fun h => ?_, fun _ _ _ _ => hunconnected⟩ fun can hcan => ?_
      · rw [hunconnected] at h
        cases h
      · rw [hsession] at hcan
        cases hcan
  | some can =>
      have hshakes : Shakes c (.start a) ↔
          if passes can a then a.sslConnect ≠ 0 else c.socket.connected = false := by
        simp [Shakes, hsession]
      rw [hshakes]
      rcases startAsClient_cases hsession a with
        ⟨hpasses, hok, hconnected, hstruct, hsame⟩ | ⟨hpasses, hfail, hconnected, hsame⟩
      · rw [if_pos hpasses]
        simp only [passes, Bool.and_eq_true, decide_eq_true_eq, Bool.or_eq_true,
          Bool.not_eq_true'] at hpasses
        obtain ⟨⟨⟨-, hnew⟩, hle⟩, hcertify⟩ := hpasses
        constructor
        · intro h
          obtain ⟨b, ssl, hb, -, -, hpos, -⟩ := h.handshake hconnected
          obtain rfl : a = b := (Prod.mk.inj (Option.some.inj hb)).1
          exact ne_of_gt hpos
        · intro hne
          obtain ⟨ssl, hssl⟩ := Option.isSome_iff_exists.mp hnew
          refine ⟨fun _ => ⟨a, ssl, by rw [hok], hssl, hstruct.trans hssl, ?_, ?_⟩, ?_⟩
          · exact lt_of_le_of_ne hle (Ne.symm hne)
          · intro hcan
            rw [hsame, hsession] at hcan
            cases hcan
            exact hcertify.resolve_left (by decide)
          · intro b result hb hresult
            cases hb
            exact absurd hok hresult
      · rw [if_neg (by rw [hpasses]; exact Bool.false_ne_true)]
        constructor
        · intro h
          rw [← hconnected]
          exact h.failed a _ rfl hfail
        · intro hfalse
          rw [← hconnected] at hfalse
          exact ⟨fun h => (by rw [hfalse] at h; cases h), fun _ _ _ _ => hfalse⟩

theorem secure_stop (hs : c.next .stop = some c') : Secure c' := by
  have hunconnected : c'.socket.connected = false := by
    cases hs
    rfl
  refine ⟨fun h => ?_, fun _ _ _ _ => hunconnected⟩
  rw [hunconnected] at h
  cases h

/--
Through any sequence of `Start` and `Stop` a connected socket has had its handshake if and only if
no `Start` takes zero from `SSL_connect` for success, and none fails on a socket that is connected.
-/
theorem secure_iff (session : Option Bool) (ctx : Option Nat) (listener : Bool)
    {ls : List SSLStep} (hrun : exec next (new session ctx listener) ls = some c) :
    Throughout next Secure (new session ctx listener) ls ↔
      Along next Shakes (new session ctx listener) ls := by
  refine throughout_iff_along (I := Secure) (fun _ h => h) (fun u l v hu hl hstep => ?_)
    (fun u l v hu hl hstep => ?_) (secure_new session ctx listener) hrun
  · cases l with
    | start a => exact (secure_start_iff hstep).mpr hl
    | stop => exact secure_stop hstep
  · cases l with
    | start a => exact fun hv => hl ((secure_start_iff hstep).mp hv)
    | stop => exact absurd trivial hl

/-- Every answer is the best one. -/
def welcome : SSLAnswers where
  socket := 3
  connect := true
  sslNew := some 0
  sslConnect := 1
  certificate := true
  subject := true
  issuer := true

/-- `Stop` clears the context, and the second `Start` gets no object. -/
def twoStarts : List SSLStep := [.start welcome, .stop, .start { welcome with sslNew := none }]

theorem secure_iff_twoStarts :
    Throughout next Secure (new (some true) (some 0) true) twoStarts ↔
      Along next Shakes (new (some true) (some 0) true) twoStarts := by
  obtain ⟨c, hc⟩ := Option.isSome_iff_exists.mp
    (show (exec next (new (some true) (some 0) true) twoStarts).isSome = true by decide)
  exact secure_iff (some true) (some 0) true hc

/-- `SSL_connect` returns zero, and the socket is connected. -/
theorem connected_without_handshake : ∃ c,
    exec next (new (some false) (some 0) true) [.start { welcome with sslConnect := 0 }] = some c ∧
      ¬ Secure c := by
  refine ⟨_, rfl, fun h => ?_⟩
  obtain ⟨a, ssl, hlast, -, -, hpos, -⟩ := h.handshake rfl
  cases hlast
  exact absurd hpos (by decide)

end SSLClient

end ServClient
