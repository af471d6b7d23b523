/-
When a secure socket is left with a context that is gone.

A socket copies the session's context when it is made, and the copy is a plain pointer that counts
for nothing.  What counts are references: the session has one of its context, and so has every
object that `SSL_new` makes from it.  So `StopSession` leaves the context of a client that is
connected, and it is the `Stop` of that client, or its destructor, that takes the context away from
the sockets that are not connected.

What makes this countable is that a socket makes its objects from one context and no other.
-/
import ServClient.Proofs.SSLAccounts

namespace ServClient

open Runs Ledger

namespace SSLSocketObject

open XLSSLSocket (reachesNew)

variable {s : SSLSocketObject} {a : SSLAnswers} {c : Nat}

/-! ### The objects made from a context

The log of a socket says of each object from which context it was made, and only `SSL_new` and
`SSL_free` have to do with them.
-/

theorem referenceEntry_other {call : SSLCall} (h : call.objectEntry = .other) :
    call.referenceEntry c = .other := by
  cases call with
  | sslNew source ssl =>
      cases ssl with
      | none => cases source <;> rfl
      | some ssl => cases h
  | sslFree ssl => cases h
  | socket | connect | sslConnect | onConnect | close => rfl

theorem Appends.objectsOf {s t : XLSSLSocket} (h : Appends s t) (c : Nat) :
    held (SSLCall.referenceEntry c) t.log = held (SSLCall.referenceEntry c) s.log := by
  obtain ⟨calls, hquiet, hlog⟩ := h
  rw [hlog]
  exact held_append_other fun call hcall => referenceEntry_other (hquiet call hcall).2

theorem held_sslNew (log : List SSLCall) (source ssl : Option Nat) :
    held (SSLCall.referenceEntry c) (log ++ [.sslNew source ssl]) =
      (if source = some c then ssl.toList else []) ++ held (SSLCall.referenceEntry c) log := by
  rw [held_concat]
  cases source with
  | none => rfl
  | some source =>
      cases ssl with
      | none => simp [add, SSLCall.referenceEntry]
      | some ssl => by_cases hsource : source = c <;> simp [add, SSLCall.referenceEntry, hsource]

/-- A `Start` that gets an object gets it from the context that the socket has. -/
theorem objectsOf_start {canPeerCertify : Bool} (hsession : s.base.session = some canPeerCertify)
    (a : SSLAnswers) (c : Nat) : (s.start a).1.objectsOf c =
      (if (s.serverMode = false ∧ reachesNew a = true) ∧ s.base.connectionCtx = some c then
        a.sslNew.toList else []) ++ s.objectsOf c := by
  cases hmode : s.serverMode with
  | true =>
      have hstart : (s.start a).1.base.log = s.base.log ++ [.socket a.socket] := by
        rw [start, if_pos hmode, startAsServer, hsession]
        rfl
      rw [objectsOf, hstart, held_concat]
      simp [add, SSLCall.referenceEntry, objectsOf]
  | false =>
      have hstart : (s.start a).1.base = (s.base.startAsClient a).1 := by
        rw [start, if_neg (by rw [hmode]; exact Bool.false_ne_true)]
      rcases startAsClient_log hsession a with ⟨hreaches, happends⟩ | ⟨hreaches, happends⟩
      · rw [objectsOf, hstart, happends.objectsOf, XLSSLSocket.call, held_concat, hreaches]
        simp [add, SSLCall.referenceEntry, objectsOf]
      · rw [objectsOf, hstart, happends.objectsOf, XLSSLSocket.call, held_sslNew,
          XLSSLSocket.call, XLSSLSocket.call, held_concat, held_concat, hreaches]
        simp [add, SSLCall.referenceEntry, objectsOf]

/-- `Stop` frees the object the socket has. -/
theorem objectsOf_stop (s : SSLSocketObject) (c : Nat) : s.stop.objectsOf c =
    s.base.secureStruct.elim (s.objectsOf c) (s.objectsOf c).erase := by
  have hclose : ∀ call ∈ (if s.base.socket = invalidSocket then []
      else [SSLCall.close s.base.socket]), call.referenceEntry c = .other := by
    split <;> simp [SSLCall.referenceEntry]
  rw [objectsOf, (stop_eq s).1, stopCalls, ← List.append_assoc, held_append_other hclose]
  cases s.base.secureStruct with
  | none => simp [objectsOf]
  | some ssl =>
      rw [Option.toList_some, List.map_singleton, held_concat]
      rfl

/-! ### One context

What a socket has made and not freed it has made from the context it still has, and its own object
is among that; a socket that has been stopped has neither.
-/

/-- Every object is made from the socket's context, and the socket's own is one of them. -/
structure OneContext (s : SSLSocketObject) : Prop where
  same : ∀ c d, s.base.connectionCtx = some c → s.objectsOf d ≠ [] → d = c
  current : ∀ ssl, s.base.secureStruct = some ssl →
    ∃ c, s.base.connectionCtx = some c ∧ ssl ∈ s.objectsOf c

theorem oneContext_new (session : Option Bool) (ctx : Option Nat) (listener mode : Bool) :
    OneContext (new session ctx listener mode) :=
  ⟨fun _ _ _ hmade => absurd rfl hmade, nofun⟩

theorem oneContext_ofSocket (session : Option Bool) (ctx : Option Nat) (listener : Bool)
    (a : AcceptAnswers) : OneContext (ofSocket session ctx listener a) := by
  have hempty {s : SSLSocketObject} (hlog : s.base.log = []) (hnone : s.base.secureStruct = none) :
      OneContext s := by
    refine ⟨fun _ d _ hmade => absurd ?_ hmade, fun ssl hssl => ?_⟩
    · rw [objectsOf, hlog]
      rfl
    · cases hnone.symm.trans hssl
  have hmade {s : SSLSocketObject} {ctx : Nat} (hctx : s.base.connectionCtx = some ctx)
      (hlog : s.base.log = [.sslNew (some ctx) a.sslNew])
      (hstruct : s.base.secureStruct = a.sslNew) : OneContext s := by
    have hobjects (d : Nat) :
        s.objectsOf d = if some ctx = some d then a.sslNew.toList else [] := by
      rw [objectsOf, hlog]
      exact (held_sslNew [] _ _).trans (List.append_nil _)
    refine ⟨fun c d hc hd => ?_, fun ssl hssl => ⟨ctx, hctx, ?_⟩⟩
    · cases hctx.symm.trans hc
      rw [hobjects] at hd
      by_contra hne
      exact hd (if_neg fun heq => hne (Option.some.inj heq).symm)
    · rw [hobjects, if_pos rfl, ← hstruct, hssl]
      exact List.mem_singleton_self ssl
  unfold ofSocket
  dsimp only
  split
  · cases ctx with
    | none => exact hempty rfl rfl
    | some ctx =>
        cases hnew : a.sslNew with
        | none => exact hmade rfl (by rw [hnew]; rfl) hnew.symm
        | some ssl =>
            dsimp only
            split <;> exact hmade rfl (by rw [hnew]; rfl) hnew.symm
  · exact hempty rfl rfl

theorem OneContext.start {canPeerCertify : Bool} (h : OneContext s)
    (hsession : s.base.session = some canPeerCertify)
    (ha : s.base.connectionCtx.isSome = true ∨ a.sslNew = none) : OneContext (s.start a).1 := by
  have hstarted := started hsession a
  refine ⟨fun c d hc hd => ?_, fun ssl hssl => ?_⟩
  · rw [hstarted.connectionCtx] at hc
    rw [objectsOf_start hsession] at hd
    rw [ne_eq, List.append_eq_nil_iff, not_and_or] at hd
    rcases hd with hnew | hold
    · split at hnew
      · rename_i hreaches
        exact Option.some.inj (hreaches.2.symm.trans hc)
      · exact absurd rfl hnew
    · exact h.same c d hc hold
  · rw [hstarted.secureStruct] at hssl
    rw [hstarted.connectionCtx]
    split at hssl
    · rename_i hreaches
      obtain ⟨c, hc⟩ := Option.isSome_iff_exists.mp
        (ha.resolve_right fun hnone => by cases hnone.symm.trans hssl)
      refine ⟨c, hc, ?_⟩
      rw [objectsOf_start hsession, if_pos ⟨hreaches, hc⟩, hssl]
      exact List.mem_cons_self
    · obtain ⟨c, hc, hmem⟩ := h.current ssl hssl
      refine ⟨c, hc, ?_⟩
      rw [objectsOf_start hsession]
      exact List.mem_append_right _ hmem

theorem oneContext_stop (s : SSLSocketObject) : OneContext s.stop :=
  ⟨nofun, fun ssl hssl => by cases s.stop_eq.2.2.symm.trans hssl⟩

/-- The context of which `Stop` gives a reference back. -/
def gives (s : SSLSocketObject) : Option Nat :=
  if s.base.secureStruct.isSome then s.base.connectionCtx else none

theorem OneContext.stop (h : OneContext s) (c : Nat) :
    (s.gives = some c → (s.stop.objectsOf c).length + 1 = (s.objectsOf c).length) ∧
      (s.gives ≠ some c → s.stop.objectsOf c = s.objectsOf c) := by
  rw [objectsOf_stop, gives]
  cases hstruct : s.base.secureStruct with
  | none => exact ⟨nofun, fun _ => rfl⟩
  | some ssl =>
      obtain ⟨d, hd, hmem⟩ := h.current ssl hstruct
      rw [Option.isSome_some, if_pos rfl, hd]
      refine ⟨fun heq => ?_, fun hne => ?_⟩
      · cases heq
        have hpos := List.length_pos_of_mem hmem
        have hlength := List.length_erase_of_mem hmem
        simp only [Option.elim_some]
        omega
      · have hnone : s.objectsOf c = [] := by
          by_contra hmade
          exact hne (by rw [h.same d c hd hmade])
        rw [hnone]
        rfl

end SSLSocketObject

namespace CLibraryInterface

variable {r r' : CLibraryInterface} {l : LibraryStep} {c : Nat}

/-! ### References

A step takes references or gives one back, and which it gives is known before.
-/

/-- The session has a reference of its context. -/
def Owns (s : OpenSSLSession) : Prop := ∀ c, s.connectionCtx = some c → c ∈ s.references

/-- The context of which `Stop` of the session gives the reference back. -/
def given (s : OpenSSLSession) : Option Nat := if s.started then s.connectionCtx else none

theorem Owns.start {s : OpenSSLSession} (h : Owns s) (a : SessionAnswers) :
    Owns (s.start a) ∧ ∀ c, s.references.count c ≤ (s.start a).references.count c := by
  cases hstarted : s.started with
  | true =>
      rw [OpenSSLSession.start_of_started hstarted]
      exact ⟨h, fun _ => Nat.le_refl _⟩
  | false =>
      cases hnew : a.ctxNew with
      | false =>
          have hsame : (s.callAll [.ctxNew none]).references = s.references :=
            OpenSSLSession.references_quiet
              (OpenSSLSession.quiet_cons.mpr ⟨rfl, List.forall_mem_nil _⟩)
          rw [OpenSSLSession.start_none hstarted hnew]
          exact ⟨nofun, fun c => Nat.le_of_eq (congrArg (List.count c) hsame.symm)⟩
      | true =>
          obtain ⟨calls, hquiet, heq⟩ := OpenSSLSession.start_eq hstarted hnew
          have hmade : (s.start a).references = s.made :: s.references := by
            rw [heq]
            exact OpenSSLSession.references_new hquiet
          rw [Owns, hmade]
          refine ⟨fun c hc => ?_, fun c => List.count_le_count_cons⟩
          rw [heq, Option.some.injEq] at hc
          exact hc ▸ List.mem_cons_self

theorem Owns.stop {s : OpenSSLSession} (h : Owns s) : Owns s.stop ∧
    s.stop.references = (given s).elim s.references s.references.erase := by
  unfold given
  cases hstarted : s.started with
  | false =>
      rw [OpenSSLSession.stop_of_idle hstarted]
      exact ⟨h, rfl⟩
  | true =>
      cases hctx : s.connectionCtx with
      | none =>
          have hstop : s.stop = { s with started := false } := by
            rw [OpenSSLSession.stop, if_neg (by rw [hstarted]; exact Bool.false_ne_true)]
            split
            · rename_i c hsome
              cases hctx.symm.trans hsome
            · rfl
          rw [hstop]
          exact ⟨h, rfl⟩
      | some c =>
          rw [OpenSSLSession.stop_of_started hstarted hctx]
          refine ⟨?_, OpenSSLSession.references_free c⟩
          intro d hnone
          cases hnone

/-- The context of which a step gives a reference back: `StopSession` with `SSL_CTX_free`, and the
`Stop` and the destructor of a socket with `SSL_free`. -/
def released (r : CLibraryInterface) : LibraryStep → Option Nat
  | .stopSocketLibrary => if r.sslSocket then given r.session else none
  | .stop i | .destroy i =>
      match r.sockets[i]? with
      | some ⟨object, true⟩ => object.gives
      | _ => none
  | _ => none

/-- A context is there as long as there is a reference of it. -/
def Live (r : CLibraryInterface) (c : Nat) : Prop := 0 < r.references c

/-- No socket that is still there has a context that is gone. -/
def Sane (r : CLibraryInterface) : Prop :=
  ∀ x ∈ r.sockets, x.alive = true → ∀ c, x.object.base.connectionCtx = some c → Live r c

/-- The last reference of a context is given back when no other socket has it. -/
def FreesUnused (r : CLibraryInterface) (l : LibraryStep) : Prop :=
  ∀ c, released r l = some c → r.references c = 1 → ∀ (j : Nat) (y : LibrarySocket),
    r.sockets[j]? = some y → y.alive = true → l ≠ .stop j → l ≠ .destroy j →
      y.object.base.connectionCtx ≠ some c

/-- What every step keeps. -/
structure Holding (r : CLibraryInterface) : Prop where
  kept : Kept r
  owns : Owns r.session
  sockets : ∀ x ∈ r.sockets, x.object.OneContext

theorem holding_new : Holding new := ⟨kept_new, nofun, List.forall_mem_nil _⟩

theorem Holding.next (h : Holding r) (hstep : r.next l = some r') : Holding r' := by
  have hmoves := moves_of_next hstep
  refine ⟨h.kept.next hstep, ?_, ?_⟩
  · cases hmoves with
    | startSocketLibrary =>
        unfold startSession
        split
        · exact h.owns
        · exact (h.owns.start _).1
    | stopSocketLibrary =>
        unfold stopSession
        split
        · exact h.owns
        · exact h.owns.stop.1
    | setUseSSL | setLocalVerification | setRemoteVerification | getNormalSocket
    | getDefaultSocket | getSSLSocket | start | stop | announced | dropped | acceptNone
    | destroy => exact h.owns
  · refine hmoves.forall_sockets h.sockets (fun _ _ => SSLSocketObject.oneContext_new _ _ _ _)
      (fun _ _ => SSLSocketObject.oneContext_ofSocket _ _ _ _)
      (fun i a checks object _ hi ha => ?_) fun object _ _ => object.oneContext_stop
    have hmem := List.mem_of_getElem? hi
    refine (h.sockets _ hmem).start (h.kept.sockets _ hmem).session ?_
    exact (show _ ∨ a.sslNew = none by simpa [answers] using ha)

theorem references_addSocket (r : CLibraryInterface) (x : LibrarySocket) (c : Nat) :
    (r.addSocket x).references c = r.references c + (x.object.objectsOf c).length := by
  rw [references, addSocket, List.map_append, List.sum_append, List.map_singleton,
    List.sum_singleton, ← Nat.add_assoc]
  rfl

theorem references_set {i : Nat} {x : LibrarySocket} (hi : r.sockets[i]? = some x)
    (y : LibrarySocket) (c : Nat) :
    { r with sockets := r.sockets.set i y }.references c + (x.object.objectsOf c).length =
      r.references c + (y.object.objectsOf c).length := by
  have hsum := Calls.sum_set y (fun x => (x.object.objectsOf c).length) hi
  simp only [references]
  omega

/-- What the `Stop` of a socket gives back. -/
theorem Holding.references_stop (h : Holding r) {i : Nat} {object : SSLSocketObject}
    (hi : r.sockets[i]? = some ⟨object, true⟩) (alive : Bool) (c : Nat) :
    let stopped := { r with sockets := r.sockets.set i ⟨object.stop, alive⟩ }
    (object.gives = some c → stopped.references c + 1 = r.references c) ∧
      (object.gives ≠ some c → r.references c ≤ stopped.references c) := by
  have hset := references_set hi ⟨object.stop, alive⟩ c
  have hstop := (h.sockets _ (List.mem_of_getElem? hi)).stop c
  dsimp only at hset hstop
  refine ⟨fun hgives => ?_, fun hgives => ?_⟩
  · have hless := hstop.1 hgives
    omega
  · rw [hstop.2 hgives] at hset
    omega

theorem Holding.references_stopSession (h : Holding r) (c : Nat) :
    (released r .stopSocketLibrary = some c → r.stopSession.references c + 1 = r.references c) ∧
      (released r .stopSocketLibrary ≠ some c → r.references c ≤ r.stopSession.references c) := by
  obtain ⟨-, hstop⟩ := h.owns.stop
  rw [released, references, references, stopSession_sockets, stopSession]
  cases hssl : r.sslSocket with
  | false => exact ⟨nofun, fun _ => Nat.le_refl _⟩
  | true =>
      rw [Bool.not_true, if_neg Bool.false_ne_true, if_pos rfl, hstop]
      cases hgiven : given r.session with
      | none => exact ⟨nofun, fun _ => Nat.le_refl _⟩
      | some d =>
          have hd : d ∈ r.session.references := by
            unfold given at hgiven
            split at hgiven
            · exact h.owns d hgiven
            · cases hgiven
          refine ⟨fun heq => ?_, fun hne => ?_⟩
          · cases heq
            have hpos := List.count_pos_iff.mpr hd
            rw [Option.elim_some, List.count_erase_self]
            omega
          · rw [Option.elim_some, List.count_erase_of_ne fun heq => hne (congrArg some heq.symm)]

/-- A step gives back one reference of the context it releases, and none of any other. -/
theorem Moves.references (hmoves : Moves r l r') (h : Holding r) (c : Nat) :
    (released r l = some c → r'.references c + 1 = r.references c) ∧
      (released r l ≠ some c → r.references c ≤ r'.references c) := by
  have hmore {x : LibrarySocket} : r.references c ≤ (r.addSocket x).references c := by
    rw [references_addSocket]
    exact Nat.le_add_right _ _
  cases hmoves with
  | setUseSSL | setLocalVerification | setRemoteVerification | getNormalSocket | acceptNone =>
      exact ⟨nofun, fun _ => Nat.le_refl _⟩
  | getDefaultSocket | getSSLSocket | announced | dropped => exact ⟨nofun, fun _ => hmore⟩
  | startSocketLibrary =>
      refine ⟨nofun, fun _ => ?_⟩
      rw [CLibraryInterface.references, CLibraryInterface.references, startSession_sockets,
        startSession]
      split
      · exact Nat.le_refl _
      · exact Nat.add_le_add_right ((h.owns.start _).2 c) _
  | stopSocketLibrary => exact h.references_stopSession c
  | @start i a checks object hi ha =>
      refine ⟨nofun, fun _ => ?_⟩
      have hset := references_set hi ⟨(object.start (r.shakeStart object a checks)).1, true⟩ c
      have hsession := (h.kept.sockets _ (List.mem_of_getElem? hi)).session
      dsimp only at hset hsession
      rw [SSLSocketObject.objectsOf_start hsession, List.length_append] at hset
      omega
  | stop hi | destroy hi =>
      rw [released, hi]
      exact h.references_stop hi _ c

/-- A step that gives a reference back leaves the sockets alone but for the one it is a call of. -/
theorem Moves.stays (hmoves : Moves r l r') (hreleased : released r l = some c) {j : Nat}
    (hstop : l ≠ .stop j) (hdestroy : l ≠ .destroy j) : r'.sockets[j]? = r.sockets[j]? := by
  cases hmoves with
  | setUseSSL | setLocalVerification | setRemoteVerification | getNormalSocket | acceptNone
  | getDefaultSocket | getSSLSocket | announced | dropped | startSocketLibrary | start =>
      cases hreleased
  | stopSocketLibrary => rw [stopSession_sockets]
  | stop hi => exact List.getElem?_set_ne fun heq => hstop (congrArg LibraryStep.stop heq)
  | destroy hi => exact List.getElem?_set_ne fun heq => hdestroy (congrArg LibraryStep.destroy heq)

/-- That one has no context afterwards. -/
theorem Moves.cleared (hmoves : Moves r l r') {j : Nat} {x : LibrarySocket}
    (hl : l = .stop j ∨ l = .destroy j) (hj : r'.sockets[j]? = some x) :
    x.object.base.connectionCtx = none := by
  rcases hl with rfl | rfl
  · cases hmoves with
    | stop hi =>
        rw [List.getElem?_set_self (Calls.lt_of_getElem?_eq_some hi)] at hj
        cases hj
        rfl
  · cases hmoves with
    | destroy hi =>
        rw [List.getElem?_set_self (Calls.lt_of_getElem?_eq_some hi)] at hj
        cases hj
        rfl

/-! ### Every run -/

/-- What the sockets have after a step was there before it. -/
theorem Holding.live (h : Holding r) (hsane : Sane r) (hmoves : Moves r l r') : ∀ x ∈ r'.sockets,
    x.alive = true → ∀ c, x.object.base.connectionCtx = some c → Live r c := by
  have hcurrent (c : Nat) (hc : r.session.connectionCtx = some c) : Live r c :=
    Nat.add_pos_left (List.count_pos_iff.mpr (h.owns c hc)) _
  refine hmoves.forall_sockets hsane (fun listener mode _ c hc => hcurrent c hc)
    (fun listener a _ c hc => ?_) (fun i a checks object _ hi _ _ c hc => ?_)
    fun object alive _ _ c hc => nomatch hc
  · obtain ⟨-, -, hsession, -⟩ := SSLSocketObject.ofSocket_spec (some r.canPeerCertify)
      r.session.connectionCtx listener a
    exact hcurrent c (hsession c hc)
  · have hmem := List.mem_of_getElem? hi
    have hstarted := SSLSocketObject.started (h.kept.sockets _ hmem).session
      (r.shakeStart object a checks)
    exact hsane _ hmem rfl c (hstarted.connectionCtx ▸ hc)

theorem Holding.sane_next (h : Holding r) (hsane : Sane r) (hl : FreesUnused r l)
    (hstep : r.next l = some r') : Sane r' := by
  have hmoves := moves_of_next hstep
  intro x hx halive c hc
  have hlive := h.live hsane hmoves x hx halive c hc
  obtain ⟨hgive, hkeep⟩ := hmoves.references h c
  unfold Live at hlive ⊢
  by_cases hreleased : released r l = some c
  · have hless := hgive hreleased
    by_cases hlast : r.references c = 1
    · -- The last reference: the socket is the one that was stopped, or one that `hl` rules out.
      obtain ⟨j, hj⟩ := List.getElem?_of_mem hx
      by_cases hself : l = .stop j ∨ l = .destroy j
      · cases (hmoves.cleared hself hj).symm.trans hc
      · rw [not_or] at hself
        rw [hmoves.stays hreleased hself.1 hself.2] at hj
        exact absurd hc (hl c hreleased hlast j x hj halive hself.1 hself.2)
    · omega
  · exact Nat.lt_of_lt_of_le hlive (hkeep hreleased)

/-- The context that goes is one a socket still has. -/
theorem Holding.not_sane (h : Holding r) (hl : ¬ FreesUnused r l) (hstep : r.next l = some r') :
    ¬ Sane r' := by
  have hmoves := moves_of_next hstep
  simp only [FreesUnused, not_forall, ne_eq, Decidable.not_not] at hl
  obtain ⟨c, hreleased, hlast, j, y, hj, halive, hstop, hdestroy, hc⟩ := hl
  intro hsane
  have hless := (hmoves.references h c).1 hreleased
  have hlive : 0 < r'.references c := by
    refine hsane y (List.mem_of_getElem? (i := j) ?_) halive c hc
    rw [hmoves.stays hreleased hstop hdestroy]
    exact hj
  omega

/--
In a run of the library and its sockets no socket has a context that is gone, so that none is given
to `SSL_new`, if and only if the last reference of a context is never given back, by `StopSession`
or by the `Stop` or the destructor of a socket, while another socket still has it.
-/
theorem contexts_live_iff {ls : List LibraryStep} (hrun : exec next new ls = some r) :
    Throughout next Sane new ls ↔ Along next FreesUnused new ls :=
  throughout_iff_along (I := fun r => Holding r ∧ Sane r) (fun _ h => h.2)
    (fun _ _ _ hu hl hstep => ⟨hu.1.next hstep, hu.1.sane_next hu.2 hl hstep⟩)
    (fun _ _ _ hu hl hstep => hu.1.not_sane hl hstep)
    ⟨holding_new, List.forall_mem_nil _⟩ hrun

/-- Two clients, of which one is connected: its object keeps the context when the library is
stopped, and the context goes when the client is stopped. -/
theorem contexts_live_iff_twoClients :
    Throughout next Sane new (oneClient ++ [.getSSLSocket true false,
        .start 0 SSLClient.welcome [], .stopSocketLibrary, .stop 0]) ↔
      Along next FreesUnused new (oneClient ++ [.getSSLSocket true false,
        .start 0 SSLClient.welcome [], .stopSocketLibrary, .stop 0]) := by
  obtain ⟨r, hr⟩ := Option.isSome_iff_exists.mp (show (exec next new
    (oneClient ++ [.getSSLSocket true false, .start 0 SSLClient.welcome [], .stopSocketLibrary,
      .stop 0])).isSome = true by decide)
  exact contexts_live_iff hr

end CLibraryInterface

end ServClient
