/-
When an `XLSSLSocket` closes and frees what it gets.

`Stop` closes the descriptor, frees the object and forgets both, so nothing is given back twice.
But `Start` does not look whether there is a descriptor already: it puts the new one in its place,
and where it gets that far a new object as well.  So what is lost is lost by a `Start` of a socket
that has not been stopped, whether or not the `Start` before it succeeded.
-/
import ServClient.LibraryInterface
import ServClient.Proofs.LibraryInterface

namespace ServClient

open Runs Ledger

namespace SSLSocketObject

open XLSSLSocket (reachesNew)

variable {s t : SSLSocketObject} {a : SSLAnswers}

/-! ### The calls of a `Start`

The log of a `Start` is short and nearly all of it neither opens nor closes anything, so it is one
`socket` and one `SSL_new` between calls that do not matter.
-/

/-- Calls that neither open nor close, neither make nor free. -/
def Quiet (calls : List SSLCall) : Prop :=
  ∀ c ∈ calls, c.descriptorEntry = .other ∧ c.objectEntry = .other

theorem quiet_nil : Quiet [] := List.forall_mem_nil _

theorem quiet_cons {c : SSLCall} {calls : List SSLCall} : Quiet (c :: calls) ↔
    (c.descriptorEntry = .other ∧ c.objectEntry = .other) ∧ Quiet calls := List.forall_mem_cons

/-- Nothing but such calls. -/
def Appends (s t : XLSSLSocket) : Prop := ∃ calls, Quiet calls ∧ t.log = s.log ++ calls

theorem Appends.refl (s : XLSSLSocket) : Appends s s := ⟨[], quiet_nil, by simp⟩

theorem Appends.call {s t : XLSSLSocket} (h : Appends s t) {c : SSLCall}
    (hc : c.descriptorEntry = .other ∧ c.objectEntry = .other) : Appends s (t.call c) := by
  obtain ⟨calls, hquiet, hlog⟩ := h
  refine ⟨calls ++ [c], List.forall_mem_append.mpr ⟨hquiet, quiet_cons.mpr ⟨hc, quiet_nil⟩⟩, ?_⟩
  rw [XLSSLSocket.call, hlog, List.append_assoc]

theorem Appends.onConnect {s t : XLSSLSocket} (h : Appends s t) : Appends s t.onConnect := by
  unfold XLSSLSocket.onConnect
  split
  · exact h.call ⟨rfl, rfl⟩
  · exact h

/-- The calls of a client's `Start`: quiet ones but for `socket` and, where it gets that far,
`SSL_new`. -/
theorem startAsClient_log {s : XLSSLSocket} {canPeerCertify : Bool}
    (hsession : s.session = some canPeerCertify) (a : SSLAnswers) :
    (reachesNew a = false ∧ Appends (s.call (.socket a.socket)) (s.startAsClient a).1) ∨
      (reachesNew a = true ∧ Appends (((s.call (.socket a.socket)).call (.connect true)).call
        (.sslNew s.connectionCtx a.sslNew)) (s.startAsClient a).1) := by
  unfold XLSSLSocket.startAsClient reachesNew XLSSLSocket.createSocket
  rw [hsession]
  by_cases hsocket : a.socket = invalidSocket
  · exact Or.inl ⟨by simp [hsocket], by simpa [hsocket] using ⟨[], quiet_nil, by simp⟩⟩
  cases hconnect : a.connect with
  | false =>
      refine Or.inl ⟨by simp, [.connect false], quiet_cons.mpr ⟨⟨rfl, rfl⟩, quiet_nil⟩, ?_⟩
      simp [hsocket, XLSSLSocket.call]
  | true =>
      refine Or.inr ⟨by simp [hsocket], ?_⟩
      simp only [hsocket, ne_eq, not_false_eq_true, decide_true, Bool.not_true,
        Bool.false_eq_true, if_false]
      cases hnew : a.sslNew with
      | none => exact ⟨[], quiet_nil, by simp [XLSSLSocket.call]⟩
      | some ssl =>
          have hshaken (u : XLSSLSocket) : Appends u (u.call (.sslConnect ssl a.sslConnect)) :=
            (Appends.refl u).call ⟨rfl, rfl⟩
          dsimp only
          split
          · exact hshaken _
          · split
            · split
              · exact hshaken _
              · exact (hshaken _).onConnect.onConnect
            · exact (hshaken _).onConnect

theorem startAsClient_socket {s : XLSSLSocket} {canPeerCertify : Bool}
    (hsession : s.session = some canPeerCertify) (a : SSLAnswers) :
    (s.startAsClient a).1.socket = a.socket := by
  have honConnect (u : XLSSLSocket) : u.onConnect.socket = u.socket := by
    unfold XLSSLSocket.onConnect
    split <;> rfl
  unfold XLSSLSocket.startAsClient XLSSLSocket.createSocket
  rw [hsession]
  dsimp only
  split
  · rfl
  · split
    · rfl
    · split
      · rfl
      · split
        · rfl
        · split
          · split
            · rfl
            · simp [XLSSLSocket.setConnected, honConnect, XLSSLSocket.call]
          · simp [XLSSLSocket.setConnected, honConnect, XLSSLSocket.call]

/-! ### What the calls come to -/

theorem Appends.descriptors {s t : XLSSLSocket} (h : Appends s t) :
    held SSLCall.descriptorEntry t.log = held SSLCall.descriptorEntry s.log ∧
      (Sound SSLCall.descriptorEntry t.log ↔ Sound SSLCall.descriptorEntry s.log) := by
  obtain ⟨calls, hquiet, hlog⟩ := h
  rw [hlog]
  exact ⟨held_append_other fun c hc => (hquiet c hc).1,
    sound_append_other fun c hc => (hquiet c hc).1⟩

theorem Appends.objects {s t : XLSSLSocket} (h : Appends s t) :
    held SSLCall.objectEntry t.log = held SSLCall.objectEntry s.log ∧
      (Sound SSLCall.objectEntry t.log ↔ Sound SSLCall.objectEntry s.log) := by
  obtain ⟨calls, hquiet, hlog⟩ := h
  rw [hlog]
  exact ⟨held_append_other fun c hc => (hquiet c hc).2,
    sound_append_other fun c hc => (hquiet c hc).2⟩

/-- A `Start` takes the descriptor for its own, and the object where it gets one. -/
structure Opened (s : SSLSocketObject) (a : SSLAnswers) : Prop where
  socket : (s.start a).1.base.socket = a.socket
  descriptors : (s.start a).1.descriptors =
    if 0 ≤ a.socket then a.socket :: s.descriptors else s.descriptors
  objects : (s.start a).1.objects =
    (if s.serverMode = false ∧ reachesNew a = true then a.sslNew.toList else []) ++ s.objects
  sound : Sound SSLCall.descriptorEntry s.base.log →
    Sound SSLCall.descriptorEntry (s.start a).1.base.log
  soundObjects : Sound SSLCall.objectEntry s.base.log →
    Sound SSLCall.objectEntry (s.start a).1.base.log

theorem descriptors_socket (log : List SSLCall) (sock : Int) :
    held SSLCall.descriptorEntry (log ++ [.socket sock]) =
      if 0 ≤ sock then sock :: held SSLCall.descriptorEntry log
      else held SSLCall.descriptorEntry log := by
  rw [held_concat]
  split
  · rename_i h
    exact add_take (show (SSLCall.socket sock).descriptorEntry = .take sock from if_pos h)
  · rename_i h
    exact add_other (show (SSLCall.socket sock).descriptorEntry = .other from if_neg h)

theorem sound_socket {log : List SSLCall} (h : Sound SSLCall.descriptorEntry log) (sock : Int) :
    Sound SSLCall.descriptorEntry (log ++ [.socket sock]) := by
  refine sound_concat.mpr ⟨h, fun d hgive => ?_⟩
  rw [SSLCall.descriptorEntry] at hgive
  split at hgive <;> cases hgive

theorem opened {canPeerCertify : Bool} (hsession : s.base.session = some canPeerCertify)
    (a : SSLAnswers) : Opened s a := by
  cases hmode : s.serverMode with
  | true =>
      have hstart : (s.start a).1.base = (s.base.createSocket a).1 := by
        rw [start, if_pos hmode, startAsServer, hsession]
        rfl
      have hlog : (s.start a).1.base.log = s.base.log ++ [.socket a.socket] := by
        rw [hstart]
        rfl
      refine ⟨by rw [hstart]; rfl, ?_, ?_, fun h => ?_, fun h => ?_⟩
      · rw [descriptors, hlog]
        exact descriptors_socket _ _
      · rw [objects, hlog, held_concat, hmode]
        simp [add, SSLCall.objectEntry, objects]
      · rw [hlog]
        exact sound_socket h _
      · rw [hlog]
        exact h.concat_other rfl
  | false =>
      have hstart : (s.start a).1.base = (s.base.startAsClient a).1 := by
        rw [start, if_neg (by rw [hmode]; exact Bool.false_ne_true)]
      have hsocket := startAsClient_socket hsession a
      rw [← hstart] at hsocket
      rcases startAsClient_log hsession a with ⟨hreaches, happends⟩ | ⟨hreaches, happends⟩ <;>
        rw [← hstart] at happends
      · obtain ⟨hdescriptors, hsound⟩ := happends.descriptors
        obtain ⟨hobjects, hsoundObjects⟩ := happends.objects
        refine ⟨hsocket, hdescriptors.trans (descriptors_socket _ _), ?_,
          fun h => hsound.mpr (sound_socket h _), fun h => hsoundObjects.mpr ?_⟩
        · rw [objects, hobjects, hreaches, XLSSLSocket.call, held_concat]
          simp [add, SSLCall.objectEntry, objects]
        · exact h.concat_other rfl
      · obtain ⟨hdescriptors, hsound⟩ := happends.descriptors
        obtain ⟨hobjects, hsoundObjects⟩ := happends.objects
        have hquiet : ∀ c ∈ [SSLCall.connect true, .sslNew s.base.connectionCtx a.sslNew],
            c.descriptorEntry = .other := by simp [SSLCall.descriptorEntry]
        have hlog : (((s.base.call (.socket a.socket)).call (.connect true)).call
            (.sslNew s.base.connectionCtx a.sslNew)).log = s.base.log ++ [.socket a.socket] ++
              [.connect true, .sslNew s.base.connectionCtx a.sslNew] := by
          simp [XLSSLSocket.call]
        refine ⟨hsocket, ?_, ?_, fun h => hsound.mpr ?_, fun h => hsoundObjects.mpr ?_⟩
        · rw [descriptors, hdescriptors, hlog, held_append_other hquiet]
          exact descriptors_socket _ _
        · rw [objects, hobjects, hreaches, XLSSLSocket.call, XLSSLSocket.call, XLSSLSocket.call,
            held_concat, held_concat, held_concat, if_pos ⟨hmode, rfl⟩]
          cases a.sslNew <;> simp [add, SSLCall.objectEntry, objects]
        · rw [hlog]
          exact (sound_append_other hquiet).mpr (sound_socket h _)
        · refine sound_concat.mpr ⟨(h.concat_other rfl).concat_other rfl, fun ssl hgive => ?_⟩
          cases hnew : a.sslNew <;> (rw [hnew] at hgive; cases hgive)

/-- The calls of `Stop`. -/
def stopCalls (s : SSLSocketObject) : List SSLCall :=
  s.base.secureStruct.toList.map .sslFree ++
    if s.base.socket = invalidSocket then [] else [.close s.base.socket]

theorem stop_eq (s : SSLSocketObject) : s.stop.base.log = s.base.log ++ s.stopCalls ∧
    s.stop.base.socket = invalidSocket ∧ s.stop.base.secureStruct = none := by
  unfold stop stopCalls XLSSLSocket.stop
  cases hstruct : s.base.secureStruct <;> by_cases hsocket : s.base.socket = invalidSocket <;>
    simp [hstruct, hsocket, XLSSLSocket.setConnected, XLSSLSocket.call]

/-- `Stop` closes the descriptor of the socket. -/
theorem descriptors_stop (s : SSLSocketObject) : s.stop.descriptors =
    if s.base.socket = invalidSocket then s.descriptors
    else s.descriptors.erase s.base.socket := by
  have hfree : ∀ c ∈ s.base.secureStruct.toList.map SSLCall.sslFree,
      c.descriptorEntry = .other := by simp [SSLCall.descriptorEntry]
  rw [descriptors, (stop_eq s).1, stopCalls, ← List.append_assoc]
  split
  · rw [List.append_nil, held_append_other hfree]
    rfl
  · rw [held_concat, held_append_other hfree]
    rfl

/-! ### Descriptors that are lost

A `Start` puts the descriptor it gets in the place of the one before, without a look at that.  Once
a descriptor is lost this way nothing gives it back.
-/

/-- The socket's descriptor is one it has opened and not closed. -/
def Owns (s : SSLSocketObject) : Prop :=
  s.base.socket = invalidSocket ∨ s.base.socket ∈ s.descriptors

/-- A descriptor is open that the socket no longer has. -/
def Spoilt (s : SSLSocketObject) : Prop := ∃ sock ∈ s.descriptors, sock ≠ s.base.socket

/-- Every `Start` finds the socket without a descriptor. -/
def StartsStopped (s : SSLSocketObject) : SSLStep → Prop
  | .start _ => s.base.socket = invalidSocket
  | .stop => True

instance (s : SSLSocketObject) : ∀ l, Decidable (StartsStopped s l)
  | .start _ => inferInstanceAs (Decidable (_ = _))
  | .stop => isTrue trivial

theorem isFresh_iff : s.isFresh a = true ↔
    (a.socket = invalidSocket ∨ 0 ≤ a.socket ∧ a.socket ∉ s.descriptors) ∧
      ∀ ssl, a.sslNew = some ssl → ssl ∉ s.objects := by
  simp [isFresh, Option.all_eq_true]

theorem next_start (h : s.next (.start a) = some t) : s.isFresh a = true ∧ t = (s.start a).1 := by
  rw [next, Option.ite_none_right_eq_some, Option.some.injEq] at h
  exact ⟨h.1, h.2.symm⟩

/-- The session stays, and with it what a `Start` comes to. -/
theorem next_session {l : SSLStep} {canPeerCertify : Bool}
    (h : s.base.session = some canPeerCertify) (hl : s.next l = some t) :
    t.base.session = some canPeerCertify := by
  cases l with
  | start a =>
      obtain ⟨-, rfl⟩ := next_start hl
      exact (started h a).session.trans h
  | stop =>
      cases hl
      exact s.stop_spec.1.trans h

theorem Owns.next {l : SSLStep} {canPeerCertify : Bool}
    (hsession : s.base.session = some canPeerCertify) (hl : s.next l = some t) : Owns t := by
  cases l with
  | start a =>
      obtain ⟨hfresh, rfl⟩ := next_start hl
      have hopened := opened hsession a
      rw [Owns, hopened.socket, hopened.descriptors]
      refine (isFresh_iff.mp hfresh).1.imp id fun hnew => ?_
      rw [if_pos hnew.1]
      exact List.mem_cons_self
  | stop =>
      cases hl
      exact Or.inl s.stop_eq.2.1

/-- A descriptor that is open is not the answer of `socket`. -/
theorem spoilt_of_start {canPeerCertify : Bool} (hsession : s.base.session = some canPeerCertify)
    (hfresh : s.isFresh a = true) {sock : Int} (hsock : sock ∈ s.descriptors)
    (hne : sock ≠ invalidSocket) : Spoilt (s.start a).1 := by
  have hopened := opened hsession a
  refine ⟨sock, ?_, fun heq => ?_⟩
  · rw [hopened.descriptors]
    split
    · exact List.mem_cons_of_mem _ hsock
    · exact hsock
  · rw [hopened.socket] at heq
    rcases (isFresh_iff.mp hfresh).1 with hnone | ⟨-, hnew⟩
    · exact hne (heq.trans hnone)
    · exact hnew (heq ▸ hsock)

theorem nonneg_of_descriptor {sock : Int} (h : sock ∈ s.descriptors) : 0 ≤ sock := by
  obtain ⟨c, -, htake⟩ := exists_take_of_held h
  cases c with
  | socket result =>
      rw [SSLCall.descriptorEntry] at htake
      split at htake
      · cases htake
        assumption
      · cases htake
  | connect | sslNew | sslConnect | onConnect | sslFree | close => cases htake

theorem Spoilt.next {l : SSLStep} {canPeerCertify : Bool}
    (hsession : s.base.session = some canPeerCertify) (h : Spoilt s) (hl : s.next l = some t) :
    Spoilt t := by
  obtain ⟨sock, hsock, hne⟩ := h
  have hvalid : sock ≠ invalidSocket := fun heq => by
    have hnonneg := nonneg_of_descriptor hsock
    rw [heq] at hnonneg
    exact absurd hnonneg (by decide)
  cases l with
  | start a =>
      obtain ⟨hfresh, rfl⟩ := next_start hl
      exact spoilt_of_start hsession hfresh hsock hvalid
  | stop =>
      cases hl
      refine ⟨sock, ?_, fun heq => hvalid (heq.trans s.stop_eq.2.1)⟩
      rw [descriptors_stop]
      split
      · exact hsock
      · exact (List.mem_erase_of_ne hne).mpr hsock

/-! ### Accounts in order -/

/-- What is open and what is there is the socket's own, and nothing was given back twice. -/
structure Tidy (s : SSLSocketObject) : Prop where
  sound : Sound SSLCall.descriptorEntry s.base.log
  soundObjects : Sound SSLCall.objectEntry s.base.log
  descriptors : s.descriptors =
    if s.base.socket = invalidSocket then [] else [s.base.socket]
  objects : s.objects = s.base.secureStruct.toList
  bound : s.base.secureStruct.isSome = true → s.base.socket ≠ invalidSocket

theorem tidy_new (session : Option Bool) (ctx : Option Nat) (listener isServerMode : Bool) :
    Tidy (new session ctx listener isServerMode) := by
  refine ⟨sound_nil, sound_nil, rfl, rfl, nofun⟩

theorem Tidy.start {canPeerCertify : Bool} (hsession : s.base.session = some canPeerCertify)
    (h : Tidy s) (hfresh : s.isFresh a = true) (hstopped : s.base.socket = invalidSocket) :
    Tidy (s.start a).1 := by
  have hopened := opened hsession a
  have hstarted := started hsession a
  have hnone : s.base.secureStruct = none := by
    rw [← Option.not_isSome_iff_eq_none]
    exact fun hsome => h.bound hsome hstopped
  have hdescriptors := h.descriptors
  rw [if_pos hstopped] at hdescriptors
  refine ⟨hopened.sound h.sound, hopened.soundObjects h.soundObjects, ?_, ?_, ?_⟩
  · rw [hopened.descriptors, hopened.socket, hdescriptors]
    rcases (isFresh_iff.mp hfresh).1 with heq | ⟨hnonneg, -⟩
    · rw [heq]
      rfl
    · have hne : a.socket ≠ invalidSocket := fun heq => by
        rw [heq] at hnonneg
        exact absurd hnonneg (by decide)
      rw [if_pos hnonneg, if_neg hne]
  · rw [hopened.objects, hstarted.secureStruct, h.objects, hnone]
    split <;> simp
  · rw [hstarted.secureStruct, hopened.socket, hnone]
    split
    · rename_i hreaches
      exact fun _ => (Bool.and_eq_true_iff.mp hreaches.2).1 |> of_decide_eq_true
    · nofun

/-- `Stop` of a tidy socket gives everything back. -/
theorem Tidy.stop (h : Tidy s) : Tidy s.stop ∧ s.stop.descriptors = [] ∧ s.stop.objects = [] := by
  obtain ⟨hlog, hsocket, hstruct⟩ := s.stop_eq
  have hclose : ∀ c ∈ (if s.base.socket = invalidSocket then [] else [SSLCall.close s.base.socket]),
      c.objectEntry = .other := by
    split <;> simp [SSLCall.objectEntry]
  have hfree : ∀ c ∈ s.base.secureStruct.toList.map SSLCall.sslFree,
      c.descriptorEntry = .other := by simp [SSLCall.descriptorEntry]
  have hdescriptors : s.stop.descriptors = [] := by
    rw [descriptors_stop, h.descriptors]
    split <;> simp
  have hobjects : s.stop.objects = [] ∧ Sound SSLCall.objectEntry s.stop.base.log := by
    rw [SSLSocketObject.objects, hlog, stopCalls, ← List.append_assoc, held_append_other hclose,
      sound_append_other hclose]
    cases hsome : s.base.secureStruct with
    | none =>
        rw [Option.toList_none, List.map_nil, List.append_nil]
        exact ⟨h.objects.trans (by rw [hsome]; rfl), h.soundObjects⟩
    | some ssl =>
        have hheld : held SSLCall.objectEntry s.base.log = [ssl] :=
          h.objects.trans (by rw [hsome]; rfl)
        rw [Option.toList_some, List.map_singleton, held_concat, sound_concat, hheld]
        refine ⟨by simp [add, SSLCall.objectEntry], h.soundObjects, fun given hgive => ?_⟩
        cases hgive
        exact List.mem_singleton_self ssl
  have hsound : Sound SSLCall.descriptorEntry s.stop.base.log := by
    rw [hlog, stopCalls, ← List.append_assoc]
    split
    · rw [List.append_nil]
      exact (sound_append_other hfree).mpr h.sound
    · rename_i hopen
      refine sound_concat.mpr ⟨(sound_append_other hfree).mpr h.sound, fun sock hgive => ?_⟩
      cases hgive
      rw [held_append_other hfree]
      have hmem : s.base.socket ∈ s.descriptors := by
        rw [h.descriptors, if_neg hopen]
        exact List.mem_singleton_self _
      exact hmem
  refine ⟨⟨hsound, hobjects.2, ?_, ?_, ?_⟩, hdescriptors, hobjects.1⟩
  · rw [hdescriptors, if_pos hsocket]
  · rw [hobjects.1, hstruct]
    rfl
  · rw [hstruct]
    intro hsome
    cases hsome

theorem Tidy.next {l : SSLStep} {canPeerCertify : Bool}
    (hsession : s.base.session = some canPeerCertify) (h : Tidy s) (hl : StartsStopped s l)
    (hstep : s.next l = some t) : Tidy t := by
  cases l with
  | start a =>
      obtain ⟨hfresh, rfl⟩ := next_start hstep
      exact h.start hsession hfresh hl
  | stop =>
      cases hstep
      exact h.stop.1

theorem Spoilt.not_settled (h : Spoilt s) (hsession : s.base.session.isSome = true) :
    ¬ Settled SSLCall.descriptorEntry s.destroy.base.log := by
  intro hsettled
  obtain ⟨canPeerCertify, hsome⟩ := Option.isSome_iff_exists.mp hsession
  obtain ⟨sock, hsock, -⟩ := h.next (l := .stop) hsome rfl
  have hnone : s.stop.descriptors = [] := (settled_iff.mp hsettled).2
  rw [hnone] at hsock
  cases hsock

/--
Whatever the system and the library answer, every descriptor and every object a secure socket is
given has been given back exactly once at the end of its destruction, if and only if every `Start`
finds it stopped or new.
-/
theorem settled_iff_startsStopped (canPeerCertify : Bool) (ctx : Option Nat)
    (listener isServerMode : Bool) {ls : List SSLStep}
    (hrun : exec next (new (some canPeerCertify) ctx listener isServerMode) ls = some s) :
    (Settled SSLCall.descriptorEntry s.destroy.base.log ∧
        Settled SSLCall.objectEntry s.destroy.base.log) ↔
      Along next StartsStopped (new (some canPeerCertify) ctx listener isServerMode) ls := by
  let first := new (some canPeerCertify) ctx listener isServerMode
  constructor
  · intro hsettled
    by_contra hmiss
    obtain ⟨before, l, after, u, v, -, hbefore, hnot, hstep, hafter⟩ := exists_miss hrun hmiss
    have hu : u.base.session = some canPeerCertify ∧ Owns u :=
      exec_invariant (I := fun u => u.base.session = some canPeerCertify ∧ Owns u)
        (fun _ _ _ hu hl => ⟨next_session hu.1 hl, Owns.next hu.1 hl⟩)
        (s := first) ⟨rfl, Or.inl rfl⟩ hbefore
    have hv : v.base.session = some canPeerCertify ∧ Spoilt v := by
      refine ⟨next_session hu.1 hstep, ?_⟩
      cases l with
      | start a =>
          obtain ⟨hfresh, rfl⟩ := next_start hstep
          exact spoilt_of_start hu.1 hfresh (hu.2.resolve_left hnot) hnot
      | stop => exact absurd trivial hnot
    have hs : s.base.session = some canPeerCertify ∧ Spoilt s :=
      exec_invariant (I := fun u => u.base.session = some canPeerCertify ∧ Spoilt u)
        (fun _ _ _ hu hl => ⟨next_session hu.1 hl, hu.2.next hu.1 hl⟩) hv hafter
    exact hs.2.not_settled (by rw [hs.1]; rfl) hsettled.1
  · intro halong
    have hs : s.base.session = some canPeerCertify ∧ Tidy s :=
      exec_invariant_along (I := fun u => u.base.session = some canPeerCertify ∧ Tidy u)
        (fun _ _ _ hu hl hstep => ⟨next_session hu.1 hstep, hu.2.next hu.1 hl hstep⟩)
        (s := first) ⟨rfl, tidy_new _ _ _ _⟩ halong hrun
    obtain ⟨htidy, hdescriptors, hobjects⟩ := hs.2.stop
    exact ⟨settled_iff.mpr ⟨htidy.sound, hdescriptors⟩,
      settled_iff.mpr ⟨htidy.soundObjects, hobjects⟩⟩

/-- A client that connects, is stopped, and cannot connect a second time. -/
theorem settled_iff_startsStopped_twice :
    ∃ s, exec next (new (some false) (some 0) true false)
        [.start SSLClient.welcome, .stop, .start { SSLClient.welcome with sslNew := none }] =
          some s ∧
      Settled SSLCall.descriptorEntry s.destroy.base.log ∧
      Settled SSLCall.objectEntry s.destroy.base.log := by
  obtain ⟨s, hs⟩ := Option.isSome_iff_exists.mp (show (exec next
    (new (some false) (some 0) true false)
    [.start SSLClient.welcome, .stop, .start { SSLClient.welcome with sslNew := none }]).isSome =
      true by decide)
  exact ⟨s, hs, (settled_iff_startsStopped false (some 0) true false hs).mpr (by decide)⟩

end SSLSocketObject

end ServClient
