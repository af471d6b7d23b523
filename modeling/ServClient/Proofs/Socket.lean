/-
When an `XLSocket` closes what it opens.

`Stop` and the destructor close `m_ListenSocket` whatever it is, and nothing resets it, so an
object closes a descriptor that is not its own whenever it has none: when it was never
started, and a second time after a `Stop`.  `Start` overwrites it unless the object is active,
so a `Start` after one that could not connect or bind loses the descriptor of that one.

Between two calls an object therefore is in one of three standings, which the calls alone
decide (`Orderly`); in each of them one kind of call spoils the account, and no later call
mends it.
-/
import ServClient.Socket

namespace ServClient

open Ledger

namespace XLSocket

variable {s t : XLSocket} {a : SocketAnswers}

/-! ### What a `Start` does -/

/-- Calls that open and close nothing. -/
def Quiet (calls : List SocketCall) : Prop := ∀ c ∈ calls, c.entry = .other

/-- Calls that bind and listen. -/
def Opening (calls : List SocketCall) : Prop := ∀ c ∈ calls, c = .listen ∨ ∃ ok, c = .bind ok

theorem Opening.quiet {calls : List SocketCall} (h : Opening calls) : Quiet calls := by
  intro c hc
  rcases h c hc with rfl | ⟨ok, rfl⟩ <;> rfl

theorem Opening.cons {calls : List SocketCall} (ok : Bool) (h : Opening calls) :
    Opening (.bind ok :: calls) := by
  intro c hc
  rcases List.mem_cons.mp hc with rfl | hc
  · exact Or.inr ⟨ok, rfl⟩
  · exact h c hc

/-- Some attempt to bind, or the connection, succeeds. -/
def works (s : XLSocket) (a : SocketAnswers) : Bool :=
  if s.serverMode then (List.range (retries s.config + 1)).any a.binds else a.connect

theorem any_range_succ (binds : Nat → Bool) (k n : Nat) :
    (List.range (n + 1)).any (fun i => binds (k + i)) =
      (binds k || (List.range n).any fun i => binds (k + 1 + i)) := by
  rw [List.range_succ_eq_map, List.any_cons, List.any_map]
  congr 2
  funext i
  show binds (k + (i + 1)) = binds (k + 1 + i)
  congr 1
  omega

/-- The loop around `bind`. -/
theorem bindRetrying_eq (binds : Nat → Bool) (retries k : Nat) (s : XLSocket) :
    ∃ calls, Opening calls ∧ bindRetrying binds retries k s =
      ({ s with log := s.log ++ calls },
        (List.range (retries + 1)).any fun i => binds (k + i)) := by
  have hnone : Opening [] := fun c hc => absurd hc List.not_mem_nil
  induction retries generalizing k s with
  | zero =>
      refine ⟨[.bind (binds k)], hnone.cons _, ?_⟩
      rw [bindRetrying]
      cases hk : binds k with
      | true => simp [hk, call]
      | false => simp [hk, call]
  | succ retries ih =>
      rw [any_range_succ, bindRetrying]
      cases hk : binds k with
      | true =>
          exact ⟨[.bind true], hnone.cons true, by simp [call]⟩
      | false =>
          obtain ⟨calls, hopening, heq⟩ := ih (k + 1) (s.call (.bind false))
          refine ⟨.bind false :: calls, hopening.cons false, ?_⟩
          simp only [Bool.false_eq_true, if_false, heq]
          simp [call]

theorem start_active (h : s.active = true) : (s.start a).1 = s := by
  rw [start]
  split <;> simp_all [listenOnPort, tryConnect]

/-- `socket` fails. -/
theorem start_no_socket (h : s.active = false) (hsocket : a.socket = invalidSocket) :
    (s.start a).1 = s.openSocket a := by
  have hopen : (s.openSocket a).listenSocket = invalidSocket := hsocket
  rw [start]
  split <;> simp_all [listenOnPort, tryConnect]

theorem Quiet.append {calls more : List SocketCall} (h : Quiet calls) (hmore : Quiet more) :
    Quiet (calls ++ more) := fun c hc => (List.mem_append.mp hc).elim (h c) (hmore c)

theorem acceptConnection_eq (h : s.serverMode = true) (a : SocketAnswers) :
    ∃ calls, Quiet calls ∧ s.acceptConnection a = ({ s with log := s.log ++ calls }, true) := by
  rw [acceptConnection]
  cases hl : s.listener with
  | true =>
      refine ⟨[.accept a.accept, .onAccept a.accept], fun c hc => ?_, by simp [h, hl, call]⟩
      simp only [List.mem_cons, List.not_mem_nil, or_false] at hc
      rcases hc with rfl | rfl <;> rfl
  | false =>
      exact ⟨[.accept a.accept], fun c hc => by rw [List.mem_singleton.mp hc]; rfl,
        by simp [h, hl, call]⟩

theorem listenOnPort_socket (hmode : s.serverMode = true) (h : s.active = false)
    (hsocket : a.socket ≠ invalidSocket) :
    ∃ calls, Opening calls ∧ s.listenOnPort a =
      ({ s with
          listenSocket := a.socket
          active := s.works a
          log := s.log ++ [.socket a.socket] ++ calls },
        if s.works a then .ok else .noBind) := by
  obtain ⟨calls, hopening, heq⟩ :=
    bindRetrying_eq a.binds (retries s.config) 0 (s.openSocket a)
  have hworks : ((List.range (retries s.config + 1)).any fun i => a.binds (0 + i)) =
      s.works a := by
    simp [works, hmode]
  have hopen : (s.openSocket a).listenSocket ≠ invalidSocket := hsocket
  have hconfig : (s.openSocket a).config = s.config := rfl
  rw [hworks] at heq
  rw [listenOnPort, hmode, h]
  simp only [Bool.not_true, Bool.or_self, Bool.false_eq_true, if_false, if_neg hopen, hconfig,
    heq]
  cases s.works a with
  | true =>
      refine ⟨calls ++ [.listen], fun c hc => ?_, by simp [call, openSocket, hmode]⟩
      rcases List.mem_append.mp hc with hc | hc
      · exact hopening c hc
      · exact Or.inl (List.mem_singleton.mp hc)
  | false => exact ⟨calls, hopening, by simp [call, openSocket, hmode, h]⟩

theorem tryConnect_socket (hmode : s.serverMode = false) (h : s.active = false)
    (hsocket : a.socket ≠ invalidSocket) :
    s.tryConnect a =
      ({ s with
          listenSocket := a.socket
          active := s.works a
          log := s.log ++ [.socket a.socket] ++ [.connect a.connect] },
        if s.works a then .ok else .noConnect) := by
  have hopen : (s.openSocket a).listenSocket ≠ invalidSocket := hsocket
  have hworks : s.works a = a.connect := by simp [works, hmode]
  rw [tryConnect, hmode, h, hworks]
  simp only [Bool.or_self, Bool.false_eq_true, if_false, if_neg hopen]
  cases a.connect with
  | true => simp [call, openSocket, hmode]
  | false => simp [call, openSocket, hmode, h]

/-- `socket` succeeds: the object is active if the rest does too. -/
theorem start_socket (h : s.active = false) (hsocket : a.socket ≠ invalidSocket) :
    ∃ calls, Quiet calls ∧ (s.start a).1 =
      { s with
        listenSocket := a.socket
        active := s.works a
        log := s.log ++ [.socket a.socket] ++ calls } := by
  rw [start]
  cases hmode : s.serverMode with
  | true =>
      obtain ⟨calls, hopening, heq⟩ := listenOnPort_socket hmode h hsocket
      simp only [if_true, heq]
      cases hworks : s.works a with
      | true =>
          obtain ⟨more, hmore, haccept⟩ := acceptConnection_eq (s := { s with
            listenSocket := a.socket
            active := true
            log := s.log ++ [.socket a.socket] ++ calls }) hmode a
          refine ⟨calls ++ more, hopening.quiet.append hmore, ?_⟩
          simp only [if_true, ne_eq, not_true_eq_false, if_false, haccept]
          simp [hmode]
      | false => exact ⟨calls, hopening.quiet, by simp [hmode]⟩
  | false =>
      refine ⟨[.connect a.connect], fun c hc => by rw [List.mem_singleton.mp hc]; rfl, ?_⟩
      rw [tryConnect_socket hmode h hsocket]
      cases s.works a with
      | true => simp [hmode]
      | false => simp [hmode]

theorem works_eq (hmode : t.serverMode = s.serverMode) (hconfig : t.config = s.config) :
    t.works = s.works := by
  funext a
  rw [works, works, hmode, hconfig]

/-- The answers of a `Start` decide whether it succeeds; the object does not change that. -/
theorem next_works {l : SocketStep} (h : s.next l = some t) : t.works = s.works := by
  cases l with
  | start a =>
      simp only [next, Option.ite_none_right_eq_some, Option.some.injEq] at h
      obtain ⟨-, rfl⟩ := h
      cases hactive : s.active with
      | true => rw [start_active hactive]
      | false =>
          by_cases hsocket : a.socket = invalidSocket
          · rw [start_no_socket hactive hsocket]
            exact works_eq rfl rfl
          · obtain ⟨calls, -, heq⟩ := start_socket hactive hsocket
            rw [heq]
            exact works_eq rfl rfl
  | stop =>
      cases h
      exact works_eq rfl rfl

/-! ### The account

What an object has opened and not closed, from its log.  The system gives out descriptors that are
not open, so a descriptor in the log is the object's own until it closes it.
-/

theorem entry_socket (h : 0 ≤ a.socket) :
    (SocketCall.socket a.socket).entry = .take a.socket := if_pos h

theorem entry_socket_invalid (h : a.socket = invalidSocket) :
    (SocketCall.socket a.socket).entry = .other := by
  rw [h]
  rfl

theorem nonneg_of_take {c : SocketCall} {sock : Int} (h : c.entry = .take sock) : 0 ≤ sock := by
  cases c with
  | adopt d =>
      rw [SocketCall.entry] at h
      split at h <;> cases h
      assumption
  | socket d =>
      rw [SocketCall.entry] at h
      split at h <;> cases h
      assumption
  | connect | bind | listen | accept | onAccept | close => cases h

/-- An object owns descriptors only. -/
theorem nonneg_of_owned {sock : Int} (h : sock ∈ s.owned) : 0 ≤ sock := by
  obtain ⟨c, -, htake⟩ := exists_take_of_held h
  exact nonneg_of_take htake

theorem isFresh_iff : s.isFresh a = true ↔
    a.socket = invalidSocket ∨ 0 ≤ a.socket ∧ a.socket ∉ s.owned := by
  simp [isFresh]

/-- A cleanup closes whatever the socket is. -/
theorem owned_onCleanUp (s : XLSocket) : s.onCleanUp.owned = s.owned.erase s.listenSocket := by
  rw [owned, onCleanUp, call, held_concat]
  rfl

theorem sound_onCleanUp (s : XLSocket) : Sound SocketCall.entry s.onCleanUp.log ↔
    Sound SocketCall.entry s.log ∧ s.listenSocket ∈ s.owned := by
  rw [onCleanUp, call, sound_concat]
  refine and_congr_right fun _ => ⟨fun h => h _ rfl, fun h sock hgive => ?_⟩
  cases hgive
  exact h

theorem owned_openSocket_invalid (h : a.socket = invalidSocket) :
    (s.openSocket a).owned = s.owned := by
  rw [owned, openSocket, call, held_concat, add_other (entry_socket_invalid h)]
  rfl

theorem sound_openSocket (s : XLSocket) (a : SocketAnswers) :
    Sound SocketCall.entry (s.openSocket a).log ↔ Sound SocketCall.entry s.log := by
  rw [openSocket, call, sound_concat]
  refine and_iff_left fun sock hgive => ?_
  rw [SocketCall.entry] at hgive
  split at hgive <;> cases hgive

/-- The descriptor of a `Start` is added to what the object owns, and nothing else happens to
the account. -/
theorem owned_start_socket {calls : List SocketCall} (hnonneg : 0 ≤ a.socket)
    (hquiet : Quiet calls) (hlog : t.log = s.log ++ [.socket a.socket] ++ calls) :
    t.owned = a.socket :: s.owned ∧
      (Sound SocketCall.entry t.log ↔ Sound SocketCall.entry s.log) := by
  constructor
  · rw [owned, hlog, held_append_other hquiet, held_concat, add_take (entry_socket hnonneg)]
    rfl
  · rw [hlog, sound_append_other hquiet]
    exact sound_openSocket s a

theorem ne_of_owned {sock : Int} (h : sock ∈ s.owned) (hfresh : s.isFresh a = true) :
    sock ≠ a.socket := by
  intro heq
  rcases isFresh_iff.mp hfresh with hsocket | ⟨-, hnew⟩
  · have hnonneg := nonneg_of_owned h
    rw [heq, hsocket] at hnonneg
    exact absurd hnonneg (by decide)
  · exact hnew (heq ▸ h)

/-- A `Start` of an object that is not active takes the answer of `socket` for its descriptor,
and neither closes nor gives up anything. -/
theorem start_keeps (h : s.active = false) (hfresh : s.isFresh a = true) :
    (s.start a).1.listenSocket = a.socket ∧ (∀ sock ∈ s.owned, sock ∈ (s.start a).1.owned) ∧
      (Sound SocketCall.entry (s.start a).1.log ↔ Sound SocketCall.entry s.log) := by
  by_cases hsocket : a.socket = invalidSocket
  · rw [start_no_socket h hsocket, owned_openSocket_invalid hsocket]
    exact ⟨rfl, fun _ hsock => hsock, sound_openSocket s a⟩
  · obtain ⟨calls, hquiet, heq⟩ := start_socket h hsocket
    obtain ⟨hnonneg, -⟩ := (isFresh_iff.mp hfresh).resolve_left hsocket
    obtain ⟨howned, hsound⟩ := owned_start_socket (s := s) hnonneg hquiet
      (congrArg XLSocket.log heq)
    refine ⟨by rw [heq], ?_, hsound⟩
    intro sock hsock
    rw [howned]
    exact List.mem_cons_of_mem _ hsock

/-! ### An account that is spoilt -/

/-- Something was closed that was not the object's own, or the object has lost a descriptor. -/
def Spoilt (s : XLSocket) : Prop :=
  ¬ Sound SocketCall.entry s.log ∨ ∃ sock ∈ s.owned, sock ≠ s.listenSocket

theorem Spoilt.not_settled (h : s.Spoilt) : ¬ Settled SocketCall.entry s.log := by
  intro hs
  obtain ⟨hsound, hnone⟩ := settled_iff.mp hs
  rcases h with h | ⟨sock, hsock, -⟩
  · exact h hsound
  · rw [owned, hnone] at hsock
    cases hsock

/-- A descriptor that is owned is lost when a `Start` puts another in its place. -/
theorem spoilt_of_start {sock : Int} (h : s.active = false) (hfresh : s.isFresh a = true)
    (hsock : sock ∈ s.owned) : (s.start a).1.Spoilt := by
  obtain ⟨hlisten, howned, -⟩ := start_keeps h hfresh
  refine Or.inr ⟨sock, howned sock hsock, ?_⟩
  rw [hlisten]
  exact ne_of_owned hsock hfresh

/-- No later call mends it. -/
theorem Spoilt.next {l : SocketStep} (h : s.Spoilt) (hl : s.next l = some t) : t.Spoilt := by
  cases l with
  | stop =>
      cases hl
      rcases h with h | ⟨sock, hsock, hne⟩
      · exact Or.inl fun hs => h ((sound_onCleanUp s).mp hs).1
      · refine Or.inr ⟨sock, ?_, hne⟩
        show sock ∈ s.onCleanUp.owned
        rw [owned_onCleanUp]
        exact (List.mem_erase_of_ne hne).mpr hsock
  | start a =>
      simp only [XLSocket.next, Option.ite_none_right_eq_some, Option.some.injEq] at hl
      obtain ⟨hfresh, rfl⟩ := hl
      cases hactive : s.active with
      | true => rwa [start_active hactive]
      | false =>
          rcases h with h | ⟨sock, hsock, -⟩
          · exact Or.inl fun hs => h ((start_keeps hactive hfresh).2.2.mp hs)
          · exact spoilt_of_start hactive hfresh hsock

theorem Spoilt.destroy (h : s.Spoilt) : ¬ Settled SocketCall.entry s.destroy.log :=
  (h.next (l := .stop) rfl).not_settled

/-! ### Standings

Between two calls an object is in one of three standings.  Each call takes it from one to another,
provided it is made in a standing it can be made in.
-/

/-- What an object has between two calls: nothing open, a descriptor it could not connect or
bind, or one it is active with. -/
inductive Standing
  | idle
  | failed
  | active
deriving DecidableEq

/--
Every call comes at a time when the object can take it.  `Stop` and the destruction want a
descriptor, and `Start` wants none that is not active; a `Start` without a descriptor
changes nothing.
-/
def Orderly (works : SocketAnswers → Bool) : Standing → List SocketStep → Prop
  | .idle, [] => False
  | .failed, [] => True
  | .active, [] => True
  | .idle, .stop :: _ => False
  | .failed, .stop :: rest => Orderly works .idle rest
  | .active, .stop :: rest => Orderly works .idle rest
  | .idle, .start a :: rest =>
      if a.socket = invalidSocket then Orderly works .idle rest
      else if works a then Orderly works .active rest
      else Orderly works .failed rest
  | .failed, .start _ :: _ => False
  | .active, .start _ :: rest => Orderly works .active rest

/-- The object has this standing, and its account is in order. -/
structure Stands (st : Standing) (s : XLSocket) : Prop where
  sound : Sound SocketCall.entry s.log
  active : s.active = decide (st = .active)
  owned : s.owned = if st = .idle then [] else [s.listenSocket]

theorem Stands.stop {st : Standing} (h : Stands st s) (hst : st ≠ .idle) :
    Stands .idle s.stop where
  sound := (sound_onCleanUp s).mpr ⟨h.sound, by rw [h.owned, if_neg hst]; simp⟩
  active := rfl
  owned := by
    show s.onCleanUp.owned = []
    rw [owned_onCleanUp, h.owned, if_neg hst]
    simp

theorem Stands.stop_idle (h : Stands .idle s) : s.stop.Spoilt :=
  Or.inl fun hs => by
    have hmem := ((sound_onCleanUp s).mp hs).2
    rw [h.owned] at hmem
    cases hmem

theorem Stands.start_no_socket (h : Stands .idle s) (hsocket : a.socket = invalidSocket) :
    Stands .idle (s.start a).1 := by
  rw [XLSocket.start_no_socket h.active hsocket]
  exact ⟨(sound_openSocket s a).mpr h.sound, h.active,
    by rw [owned_openSocket_invalid hsocket]; exact h.owned⟩

theorem Stands.start_socket (h : Stands .idle s) (hfresh : s.isFresh a = true)
    (hsocket : a.socket ≠ invalidSocket) :
    Stands (if s.works a then .active else .failed) (s.start a).1 := by
  obtain ⟨calls, hquiet, heq⟩ := XLSocket.start_socket h.active hsocket
  obtain ⟨hnonneg, -⟩ := (isFresh_iff.mp hfresh).resolve_left hsocket
  obtain ⟨howned, hsound⟩ := owned_start_socket (s := s) hnonneg hquiet
    (congrArg XLSocket.log heq)
  refine ⟨hsound.mpr h.sound, ?_, ?_⟩
  · rw [heq]
    cases hworks : s.works a <;> simp
  · rw [howned, h.owned, heq]
    cases hworks : s.works a <;> simp

/-- The descriptor that could not be connected is forgotten. -/
theorem Stands.start_failed (h : Stands .failed s) (hfresh : s.isFresh a = true) :
    (s.start a).1.Spoilt := by
  have hmem : s.listenSocket ∈ s.owned := by
    rw [h.owned]
    simp
  exact spoilt_of_start h.active hfresh hmem

/-! ### Lives -/

/-- The destruction settles the account of an object that has a descriptor. -/
theorem Stands.destroy_iff {st : Standing} (h : Stands st s) (works : SocketAnswers → Bool) :
    Settled SocketCall.entry s.destroy.log ↔ Orderly works st [] := by
  cases st with
  | idle => exact iff_of_false h.stop_idle.not_settled id
  | failed =>
      have hs := h.stop (by decide)
      exact iff_of_true (settled_iff.mpr ⟨hs.sound, hs.owned⟩) trivial
  | active =>
      have hs := h.stop (by decide)
      exact iff_of_true (settled_iff.mpr ⟨hs.sound, hs.owned⟩) trivial

theorem Spoilt.exec {calls : List SocketStep} (h : s.Spoilt)
    (hrun : Runs.exec XLSocket.next s calls = some t) : ¬ Settled SocketCall.entry t.destroy.log :=
  (Runs.exec_invariant (I := Spoilt) (fun _ _ _ hs hl => hs.next hl) h hrun).destroy

theorem Stands.settled_iff {st : Standing} {calls : List SocketStep} (h : Stands st s)
    (hrun : Runs.exec XLSocket.next s calls = some t) :
    Settled SocketCall.entry t.destroy.log ↔ Orderly s.works st calls := by
  induction calls generalizing st s with
  | nil =>
      cases hrun
      exact h.destroy_iff _
  | cons l rest ih =>
      obtain ⟨s', hl, hrest⟩ := Runs.exec_cons_eq_some.mp hrun
      have hworks := next_works hl
      cases l with
      | stop =>
          cases hl
          cases st with
          | idle => exact iff_of_false (h.stop_idle.exec hrest) id
          | failed => exact hworks ▸ ih (h.stop (by decide)) hrest
          | active => exact hworks ▸ ih (h.stop (by decide)) hrest
      | start a =>
          simp only [XLSocket.next, Option.ite_none_right_eq_some, Option.some.injEq] at hl
          obtain ⟨hfresh, rfl⟩ := hl
          cases st with
          | failed => exact iff_of_false ((h.start_failed hfresh).exec hrest) id
          | active =>
              rw [start_active h.active] at hrest
              exact ih h hrest
          | idle =>
              rw [Orderly]
              by_cases hsocket : a.socket = invalidSocket
              · rw [if_pos hsocket, ← hworks]
                exact ih (h.start_no_socket hsocket) hrest
              · rw [if_neg hsocket]
                have hs := ih (h.start_socket hfresh hsocket) hrest
                rw [hworks] at hs
                cases hw : s.works a with
                | true => simpa [hw] using hs
                | false => simpa [hw] using hs

/-! ### Objects made from a failed `accept` -/

/-- Active, but with no descriptor. -/
def Hollow (s : XLSocket) : Prop := s.active = true ∧ s.listenSocket ∉ s.owned

theorem Hollow.stop (h : s.Hollow) : s.stop.Spoilt :=
  Or.inl fun hs => h.2 ((sound_onCleanUp s).mp hs).2

theorem Hollow.next {l : SocketStep} (h : s.Hollow) (hl : s.next l = some t) :
    t.Hollow ∨ t.Spoilt := by
  cases l with
  | start a =>
      simp only [XLSocket.next, Option.ite_none_right_eq_some, Option.some.injEq] at hl
      obtain ⟨-, rfl⟩ := hl
      rw [start_active h.1]
      exact Or.inl h
  | stop =>
      cases hl
      exact Or.inr h.stop

theorem Hollow.exec {calls : List SocketStep} (h : s.Hollow)
    (hrun : Runs.exec XLSocket.next s calls = some t) :
    ¬ Settled SocketCall.entry t.destroy.log := by
  have hend : t.Hollow ∨ t.Spoilt :=
    Runs.exec_invariant (I := fun u => u.Hollow ∨ u.Spoilt) (fun u l v hu hl =>
      hu.elim (fun hu => hu.next hl) fun hu => Or.inr (hu.next hl)) (Or.inl h) hrun
  rcases hend with hend | hend
  · exact Spoilt.not_settled hend.stop
  · exact hend.destroy

/-! ### The account of every life -/

/-- The calls suit the object they are made on. -/
def Suits (m : SocketMade) (calls : List SocketStep) : Prop :=
  match m with
  | .config _ _ _ => Orderly (make m).works .idle calls
  | .descriptor sock _ _ => 0 ≤ sock ∧ Orderly (make m).works .active calls

theorem make_config_stands (config : SocketConfig) (listener isServerMode : Bool) :
    Stands .idle (make (.config config listener isServerMode)) :=
  ⟨sound_nil, rfl, rfl⟩

theorem owned_descriptor (sock : Int) (conf : SocketConfig) (listener : Bool) :
    (make (.descriptor sock conf listener)).owned = if 0 ≤ sock then [sock] else [] := by
  show add SocketCall.entry [] (.adopt sock) = _
  by_cases h : 0 ≤ sock
  · rw [if_pos h]
    exact add_take (show (SocketCall.adopt sock).entry = .take sock from if_pos h)
  · rw [if_neg h]
    exact add_other (show (SocketCall.adopt sock).entry = .other from if_neg h)

theorem make_descriptor_stands {sock : Int} (h : 0 ≤ sock) (conf : SocketConfig)
    (listener : Bool) : Stands .active (make (.descriptor sock conf listener)) := by
  refine ⟨?_, rfl, by rw [owned_descriptor, if_pos h]; rfl⟩
  show Sound SocketCall.entry ([] ++ [.adopt sock])
  refine sound_concat.mpr ⟨sound_nil, fun d hgive => ?_⟩
  rw [SocketCall.entry, if_pos h] at hgive
  cases hgive

/--
Whatever the system answers, the descriptors of an object are accounted for at the end of its
destruction exactly when the calls made on it suit it.
-/
theorem settled_iff_suits (m : SocketMade) {calls : List SocketStep}
    (hrun : Runs.exec next (make m) calls = some t) :
    Settled SocketCall.entry t.destroy.log ↔ Suits m calls := by
  cases m with
  | config config listener isServerMode =>
      exact (make_config_stands config listener isServerMode).settled_iff hrun
  | descriptor sock conf listener =>
      by_cases h : 0 ≤ sock
      · rw [Suits, (make_descriptor_stands h conf listener).settled_iff hrun]
        exact (and_iff_right h).symm
      · have hollow : (make (.descriptor sock conf listener)).Hollow :=
          ⟨rfl, by rw [owned_descriptor, if_neg h]; exact List.not_mem_nil⟩
        exact iff_of_false (hollow.exec hrun) fun hs => h hs.1

/-- The answers of a system that gives out descriptor 3. -/
def threeConnects : SocketAnswers where
  socket := 3
  connect := true
  binds := fun _ => true
  accept := 4

theorem settled_iff_suits_oneStart :
    Settled SocketCall.entry
        ((make (.config SocketConfig.new false false)).start threeConnects).1.destroy.log ↔
      Suits (.config SocketConfig.new false false) [.start threeConnects] :=
  settled_iff_suits (.config SocketConfig.new false false)
    (show Runs.exec next (make (.config SocketConfig.new false false)) [.start threeConnects] =
      some ((make (.config SocketConfig.new false false)).start threeConnects).1 from rfl)

/-- A client that is started, stopped and destroyed closes its descriptor twice. -/
theorem stopped_client_closes_twice :
    ∃ t, Runs.exec next (make (.config SocketConfig.new false false))
        [.start threeConnects, .stop] = some t ∧
      t.destroy.log = [.socket 3, .connect true, .close 3, .close 3] ∧
      ¬ Settled SocketCall.entry t.destroy.log := by
  refine ⟨_, rfl, rfl, fun h => ?_⟩
  have hheld := h.sound [.socket 3, .connect true, .close 3] (.close 3) [] 3 rfl rfl
  exact absurd hheld (by decide)

end XLSocket

end ServClient
