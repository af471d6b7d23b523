/-
Whom an `XLAcceptorThread` announces.

Every `accept` is followed by one `OnAccept` with whatever it has returned, in `Start` as in the
loop.  So what a run announces is the list of these results, and that decides everything: their
number, whether all of them are descriptors, and whether there are none where `Start` could not
open the listening socket.
-/
import ServClient.AcceptorThread
import ServClient.Proofs.Socket

namespace ServClient

namespace XLSocket

variable {s : XLSocket} {a : SocketAnswers}

/-- `Start` of a server opens the listening socket. -/
def opens (s : XLSocket) (a : SocketAnswers) : Bool :=
  !s.active && decide (a.socket ≠ invalidSocket) && s.works a

/-- One call of `accept` and what follows it. -/
def connection (result : Int) : List SocketCall := [.accept result, .onAccept result]

/-- A server with a listener. -/
structure Serves (s : XLSocket) : Prop where
  serverMode : s.serverMode = true
  listener : s.listener = true

theorem Serves.acceptConnection (h : Serves s) (a : SocketAnswers) :
    s.acceptConnection a = ({ s with log := s.log ++ connection a.accept }, true) := by
  simp [XLSocket.acceptConnection, h.serverMode, h.listener, call, connection]

/-- Calls that accept nothing and announce nothing. -/
def Unheard (calls : List SocketCall) : Prop :=
  ∀ c ∈ calls, c.acceptResult = none ∧ c.announced = none

theorem Opening.unheard {calls : List SocketCall} (h : Opening calls) (sock : Int) :
    Unheard (.socket sock :: calls) := by
  intro c hc
  rcases List.mem_cons.mp hc with rfl | hc
  · exact ⟨rfl, rfl⟩
  · rcases h c hc with rfl | ⟨ok, rfl⟩ <;> exact ⟨rfl, rfl⟩

theorem Serves.listenOnPort (h : Serves s) (a : SocketAnswers) :
    ∃ calls t result, Unheard calls ∧ s.listenOnPort a = (t, result) ∧ t.log = s.log ++ calls ∧
      Serves t ∧ (result = .ok ↔ s.opens a = true) := by
  have hnothing : Opening [] := fun c hc => absurd hc List.not_mem_nil
  cases hactive : s.active with
  | true =>
      refine ⟨[], s, .fail, fun c hc => absurd hc List.not_mem_nil, ?_, by simp, h, ?_⟩
      · simp [XLSocket.listenOnPort, hactive]
      · simp [opens, hactive]
  | false =>
      by_cases hsocket : a.socket = invalidSocket
      · have hopen : (s.openSocket a).listenSocket = invalidSocket := hsocket
        refine ⟨[.socket a.socket], s.openSocket a, .noSocket, hnothing.unheard a.socket, ?_, rfl,
          ⟨h.serverMode, h.listener⟩, ?_⟩
        · simp [XLSocket.listenOnPort, h.serverMode, hactive, hopen]
        · simp [opens, hsocket]
      · obtain ⟨calls, hopening, heq⟩ := listenOnPort_socket h.serverMode hactive hsocket
        refine ⟨.socket a.socket :: calls, _, _, hopening.unheard a.socket, heq, by simp,
          ⟨h.serverMode, h.listener⟩, ?_⟩
        simp [opens, hactive, hsocket]

/-- A `Start` accepts one connection, if it can open the listening socket. -/
theorem Serves.start (h : Serves s) (a : SocketAnswers) :
    ∃ calls, Unheard calls ∧
      (s.start a).1.log = s.log ++ (calls ++ if s.opens a then connection a.accept else []) ∧
      Serves (s.start a).1 ∧ ((s.start a).2 = .ok ↔ s.opens a = true) := by
  obtain ⟨calls, t, result, hunheard, hlisten, hlog, hserves, hresult⟩ := h.listenOnPort a
  refine ⟨calls, hunheard, ?_⟩
  rw [XLSocket.start, if_pos h.serverMode, hlisten]
  by_cases hopens : s.opens a = true
  · have hok := hresult.mpr hopens
    simp only [hok, ne_eq, not_true_eq_false, if_false, hserves.acceptConnection, if_true, hopens,
      hlog, List.append_assoc, and_true, true_and]
    exact ⟨hserves.serverMode, hserves.listener⟩
  · have hfail : result ≠ .ok := fun hok => hopens (hresult.mp hok)
    simp only [hfail, ne_eq, not_false_eq_true, if_true, hopens, if_false, hlog,
      List.append_nil, iff_self, and_true, true_and, Bool.false_eq_true]
    exact hserves

end XLSocket

/-! ### The loop -/

/-- How many turns are made of so many that are left. -/
def AcceptorInputs.turns (i : AcceptorInputs) : Nat → Nat → Nat
  | 0, _ => 0
  | left + 1, k => if i.stopped k then 0 else i.turns left (k + 1) + 1

namespace XLAcceptorThread

open XLSocket

variable {t : XLAcceptorThread} {i : AcceptorInputs}

/-- How many turns a run makes. -/
def turns (t : XLAcceptorThread) (i : AcceptorInputs) : Nat :=
  if t.exit then 0 else i.turns (t.nConnection - 1).toNat 0

/-- What the calls of `accept` return. -/
def results (t : XLAcceptorThread) (s : XLSocket) (i : AcceptorInputs) : List Int :=
  (if s.opens i.start then [i.start.accept] else []) ++ (List.range (t.turns i)).map i.accepts

theorem turns_le (i : AcceptorInputs) (left k : Nat) : i.turns left k ≤ left := by
  induction left generalizing k with
  | zero => exact Nat.le_refl 0
  | succ left ih =>
      rw [AcceptorInputs.turns]
      split
      · exact Nat.zero_le _
      · exact Nat.succ_le_succ (ih (k + 1))

theorem turns_of_not_stopped (h : ∀ k, i.stopped k = false) (left k : Nat) :
    i.turns left k = left := by
  induction left generalizing k with
  | zero => rfl
  | succ left ih => simp [AcceptorInputs.turns, h k, ih (k + 1)]

/-- Each turn is one connection. -/
theorem acceptLoop_log (left k : Nat) {s : XLSocket} (h : Serves s) :
    (acceptLoop i left k s false).1.log =
      s.log ++ (List.range (i.turns left k)).flatMap fun j => connection (i.accepts (k + j)) := by
  induction left generalizing k s with
  | zero => simp [acceptLoop, AcceptorInputs.turns]
  | succ left ih =>
      rw [acceptLoop, AcceptorInputs.turns, Bool.false_or]
      cases hstopped : i.stopped k with
      | true => simp
      | false =>
          have hserves : Serves { s with log := s.log ++ connection (i.accepts k) } :=
            ⟨h.serverMode, h.listener⟩
          simp only [Bool.false_eq_true, if_false, h.acceptConnection, Bool.not_true,
            ih (k + 1) hserves]
          rw [List.range_succ_eq_map, List.flatMap_cons, List.flatMap_map, List.append_assoc]
          congr 2
          refine List.flatMap_congr fun j _ => ?_
          rw [Nat.succ_eq_add_one, Nat.add_assoc, Nat.add_comm 1 j]

/-- Nothing happens in a loop that finds `m_bExit` set. -/
theorem acceptLoop_exit (left k : Nat) (s : XLSocket) :
    (acceptLoop i left k s true).1 = s := by
  cases left with
  | zero => rfl
  | succ left => rfl

/-- The calls of a run, up to those of `Start` that nobody hears of. -/
theorem calls_eq {s : XLSocket} (h : Serves s) (hs : t.socket = some s) :
    ∃ calls, Unheard calls ∧ t.calls i = calls ++ (t.results s i).flatMap connection := by
  obtain ⟨calls, hunheard, hlog, hserves, -⟩ := h.start i.start
  refine ⟨calls, hunheard, ?_⟩
  have hloop : (acceptLoop i (t.nConnection - 1).toNat 0 (s.start i.start).1 t.exit).1.log =
      s.log ++ (calls ++ (t.results s i).flatMap connection) := by
    cases hexit : t.exit with
    | true =>
        rw [acceptLoop_exit, hlog]
        cases hopens : s.opens i.start <;> simp [results, turns, hexit, hopens]
    | false =>
        rw [acceptLoop_log _ _ hserves, hlog]
        cases hopens : s.opens i.start <;>
          simp [results, turns, hexit, hopens, List.flatMap_map]
  simp only [XLAcceptorThread.calls, runProgram, hs, hloop]
  rw [List.drop_left]

theorem Unheard.filterMap {calls : List SocketCall} (h : Unheard calls) :
    calls.filterMap SocketCall.acceptResult = [] ∧ calls.filterMap SocketCall.announced = [] :=
  ⟨List.filterMap_eq_nil_iff.mpr fun c hc => (h c hc).1,
    List.filterMap_eq_nil_iff.mpr fun c hc => (h c hc).2⟩

theorem filterMap_connections (results : List Int) :
    (results.flatMap connection).filterMap SocketCall.acceptResult = results ∧
      (results.flatMap connection).filterMap SocketCall.announced = results := by
  induction results with
  | nil => exact ⟨rfl, rfl⟩
  | cons result rest ih =>
      rw [List.flatMap_cons, List.filterMap_append, List.filterMap_append, ih.1, ih.2]
      exact ⟨rfl, rfl⟩

/-- What `accept` returns is announced. -/
theorem announced_eq {s : XLSocket} (h : Serves s) (hs : t.socket = some s) :
    (t.calls i).filterMap SocketCall.acceptResult = t.results s i ∧
      (t.calls i).filterMap SocketCall.announced = t.results s i := by
  obtain ⟨calls, hunheard, hcalls⟩ := calls_eq (i := i) h hs
  obtain ⟨haccepted, hannounced⟩ := Unheard.filterMap hunheard
  rw [hcalls, List.filterMap_append, List.filterMap_append, haccepted, hannounced,
    List.nil_append]
  exact filterMap_connections _

/-- Only real connections are announced, and no more than configured. -/
structure Announces (t : XLAcceptorThread) (s : XLSocket) (i : AcceptorInputs) : Prop where
  atMost : ((t.calls i).filterMap SocketCall.announced).length ≤ t.nConnection
  real : ∀ sock ∈ (t.calls i).filterMap SocketCall.announced,
    sock ≠ invalidSocket ∧ sock ∈ (t.calls i).filterMap SocketCall.acceptResult
  /-- Nothing fails, and nobody calls `Stop`. -/
  all : (s.start i.start).2 = .ok → t.exit = false → (∀ k, i.stopped k = false) →
    (∀ result ∈ (t.calls i).filterMap SocketCall.acceptResult, result ≠ invalidSocket) →
      ((t.calls i).filterMap SocketCall.announced).length = t.nConnection
  none : (s.start i.start).2 ≠ .ok → (t.calls i).filterMap SocketCall.announced = []

/-- Every `accept` succeeds, and none is tried on a socket that could not be opened. -/
def AcceptsAll (t : XLAcceptorThread) (s : XLSocket) (i : AcceptorInputs) : Prop :=
  if s.opens i.start then
    i.start.accept ≠ invalidSocket ∧ ∀ k < t.turns i, i.accepts k ≠ invalidSocket
  else t.turns i = 0

/--
An acceptor announces real connections only, and as many as it should, if and only if no `accept`
of its run fails and it makes none where `Start` could not open the listening socket.
-/
theorem announces_iff {s : XLSocket} (hs : t.socket = some s) (hmode : s.serverMode = true)
    (hlistener : s.listener = true) (hn : 1 ≤ t.nConnection) (i : AcceptorInputs) :
    Announces t s i ↔ AcceptsAll t s i := by
  have hserves : Serves s := ⟨hmode, hlistener⟩
  obtain ⟨-, -, -, -, hok⟩ := hserves.start i.start
  obtain ⟨haccepted, hannounced⟩ := announced_eq (i := i) hserves hs
  have hturns : t.turns i ≤ (t.nConnection - 1).toNat := by
    unfold turns
    split
    · exact Nat.zero_le _
    · exact turns_le i _ 0
  cases hopens : s.opens i.start with
  | true =>
      have hstarted : (s.start i.start).2 = .ok := hok.mpr hopens
      have hlength : (t.results s i).length = t.turns i + 1 := by
        simp [results, hopens, Nat.add_comm]
      have hreal : (∀ sock ∈ t.results s i, sock ≠ invalidSocket) ↔ AcceptsAll t s i := by
        simp [results, AcceptsAll, hopens]
      constructor
      · intro h
        refine hreal.mp fun sock hsock => (h.real sock ?_).1
        rwa [hannounced]
      · intro h
        refine ⟨?_, ?_, ?_, fun hfailed => absurd hstarted hfailed⟩
        · rw [hannounced, hlength]
          omega
        · rw [haccepted, hannounced]
          exact fun sock hsock => ⟨hreal.mpr h sock hsock, hsock⟩
        · intro _ hexit hstopped _
          rw [hannounced, hlength, turns, hexit, if_neg Bool.false_ne_true,
            turns_of_not_stopped hstopped]
          omega
  | false =>
      have hfailed : (s.start i.start).2 ≠ .ok := fun h => by
        rw [hok.mp h] at hopens
        cases hopens
      have hlength : (t.results s i).length = t.turns i := by
        simp [results, hopens]
      rw [AcceptsAll, hopens, if_neg Bool.false_ne_true, ← hlength, List.length_eq_zero_iff]
      constructor
      · intro h
        rw [← hannounced]
        exact h.none hfailed
      · intro h
        rw [h] at hannounced
        refine ⟨?_, ?_, fun hstarted => absurd hstarted hfailed, fun _ => hannounced⟩
        · rw [hannounced, List.length_nil]
          omega
        · rw [hannounced]
          exact fun sock hsock => absurd hsock List.not_mem_nil

/-- A new server for two clients. -/
def twoClients : XLAcceptorThread := new (some (XLSocket.new SocketConfig.new true true)) 2

/-- The listening socket is opened at once, and each `accept` returns the same. -/
def accepting (result : Int) : AcceptorInputs where
  start := { socket := 3, connect := false, binds := fun _ => true, accept := result }
  accepts := fun _ => result
  stopped := fun _ => false

theorem announces_iff_twoClients :
    Announces twoClients (XLSocket.new SocketConfig.new true true) (accepting 4) ↔
      AcceptsAll twoClients (XLSocket.new SocketConfig.new true true) (accepting 4) :=
  announces_iff rfl rfl rfl (by decide) (accepting 4)

/-- The listener gets client sockets for two calls of `accept` that have failed. -/
theorem failed_accept_announced :
    ¬ Announces twoClients (XLSocket.new SocketConfig.new true true) (accepting invalidSocket) :=
  fun h => (h.real invalidSocket (by decide)).1 rfl

end XLAcceptorThread

end ServClient
