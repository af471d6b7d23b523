/-
An acceptor that is started and stopped any number of times.

The steps of the two threads may come in any order, and yet each time the thread gets as far as
`RunProgram` what it does to the socket is one `runProgram`: the loop looks at `m_bExit` in one
place only, so a `Stop` is either seen there or it is not (`exists_lives`).  What that says of one
run then adds up over all of them.
-/
import ServClient.AcceptorLife
import ServClient.Proofs.AcceptorThread
import ServClient.Proofs.SemaPhore

namespace ServClient

open Runs

/-! ### Calls of `accept` -/

namespace XLSocket

variable {s : XLSocket} {a : SocketAnswers}

/-- How many there have been. -/
def accepts (s : XLSocket) : Nat := (s.log.filterMap SocketCall.acceptResult).length

theorem accepts_call (s : XLSocket) (c : SocketCall) :
    (s.call c).accepts = s.accepts + c.acceptResult.toList.length := by
  unfold accepts
  cases hc : c.acceptResult <;> simp [call, hc]

theorem accepts_acceptConnection (s : XLSocket) (a : SocketAnswers) :
    (s.acceptConnection a).1.accepts ≤ s.accepts + 1 := by
  unfold acceptConnection
  split
  · exact Nat.le_succ _
  · dsimp only
    split <;> simp [accepts_call, SocketCall.acceptResult]

theorem accepts_openSocket (s : XLSocket) (a : SocketAnswers) :
    (s.openSocket a).accepts = s.accepts := accepts_call s (.socket a.socket)

theorem accepts_listenOnPort (s : XLSocket) (a : SocketAnswers) :
    (s.listenOnPort a).1.accepts = s.accepts := by
  unfold listenOnPort
  split
  · rfl
  dsimp only
  split
  · exact accepts_openSocket s a
  obtain ⟨calls, hopening, hbind⟩ :=
    bindRetrying_eq a.binds (retries (s.openSocket a).config) 0 (s.openSocket a)
  have hnone : calls.filterMap SocketCall.acceptResult = [] :=
    List.filterMap_eq_nil_iff.mpr fun c hc => by
      rcases hopening c hc with rfl | ⟨ok, rfl⟩ <;> rfl
  have hsame : accepts { s.openSocket a with log := (s.openSocket a).log ++ calls } =
      s.accepts := by
    rw [← accepts_openSocket s a, accepts, List.filterMap_append, hnone, List.append_nil]
    rfl
  rw [hbind]
  dsimp only
  split
  · exact (accepts_call _ .listen).trans hsame
  · exact hsame

theorem accepts_tryConnect (s : XLSocket) (a : SocketAnswers) :
    (s.tryConnect a).1.accepts = s.accepts := by
  have hconnect : ((s.openSocket a).call (.connect a.connect)).accepts = s.accepts :=
    (accepts_call _ _).trans (accepts_openSocket s a)
  unfold tryConnect
  split
  · rfl
  dsimp only
  split
  · exact accepts_openSocket s a
  · split <;> exact hconnect

theorem accepts_start (s : XLSocket) (a : SocketAnswers) :
    (s.start a).1.accepts ≤ s.accepts + 1 := by
  unfold start
  split
  · have hlisten := accepts_listenOnPort s a
    have haccept := accepts_acceptConnection (s.listenOnPort a).1 a
    dsimp only
    split
    · exact Nat.le_succ_of_le (Nat.le_of_eq hlisten)
    · rw [hlisten] at haccept
      split <;> exact haccept
  · have hconnect := Nat.le_succ_of_le (Nat.le_of_eq (accepts_tryConnect s a))
    dsimp only
    split <;> exact hconnect

end XLSocket

namespace XLAcceptorThread

open XLSocket

variable {a : SocketAnswers} {s u : XLSocket} {results : List Int}

/-! ### Turns of the loop

The loop of `RunProgram` as a list of calls of `AcceptConnection`, so that a run that is in the
middle of it can be said to have made the first so many of them.
-/

/-- Calls of `AcceptConnection` with these results, none of which says no. -/
def turnAll (a : SocketAnswers) : XLSocket → List Int → Option XLSocket
  | s, [] => some s
  | s, result :: results =>
      let (t, accepted) := s.acceptConnection { a with accept := result }
      if accepted then turnAll a t results else none

theorem turnAll_concat {t : XLSocket} {result : Int} (h : turnAll a s results = some u)
    (hlast : u.acceptConnection { a with accept := result } = (t, true)) :
    turnAll a s (results ++ [result]) = some t := by
  induction results generalizing s with
  | nil =>
      cases h
      simp only [List.nil_append, turnAll, hlast, if_true]
  | cons first rest ih =>
      rw [turnAll] at h
      rw [List.cons_append, turnAll]
      dsimp only at h ⊢
      split at h
      · rename_i haccepted
        rw [if_pos haccepted]
        exact ih h
      · cases h

/-- The loop makes them, as long as nobody stops it. -/
theorem acceptLoop_turnAll {i : AcceptorInputs} {left k : Nat}
    (h : turnAll i.start s results = some u) (hleft : results.length ≤ left)
    (hresults : ∀ j (hj : j < results.length),
      i.accepts (k + j) = results[j] ∧ i.stopped (k + j) = false) :
    acceptLoop i left k s false =
      acceptLoop i (left - results.length) (k + results.length) u false := by
  induction results generalizing s left k with
  | nil =>
      cases h
      rfl
  | cons result rest ih =>
      obtain ⟨hresult, hstopped⟩ := hresults 0 (Nat.zero_lt_succ _)
      rw [turnAll] at h
      dsimp only at h
      split at h
      · rename_i haccepted
        cases left with
        | zero => cases hleft
        | succ left =>
            have hhead : i.accepts k = result := hresult
            rw [acceptLoop, show i.stopped k = false from hstopped, hhead]
            simp only [Bool.or_self, Bool.false_eq_true, if_false, haccepted, Bool.not_true]
            rw [ih h (Nat.le_of_succ_le_succ hleft) fun j hj => ?_]
            · rw [List.length_cons, Nat.succ_sub_succ, Nat.add_assoc, Nat.add_comm 1]
            · have hnext := hresults (j + 1) (Nat.succ_lt_succ hj)
              rw [Nat.add_assoc, Nat.add_comm 1]
              exact hnext
      · cases h

/-- These turns have been made, and nobody has said no except by the last one, if `failed`. -/
def Turned (a : SocketAnswers) (s : XLSocket) (results : List Int) (failed : Bool) (u : XLSocket) :
    Prop :=
  if failed then
    ∃ before result v, results = before ++ [result] ∧ turnAll a s before = some v ∧
      v.acceptConnection { a with accept := result } = (u, false)
  else turnAll a s results = some u

/-- What comes from outside in a run that makes these turns and no more. -/
def inputsOf (a : SocketAnswers) (results : List Int) : AcceptorInputs where
  start := a
  accepts := fun j => results.getD j 0
  stopped := fun j => decide (results.length ≤ j)

/-- They are the turns of a run. -/
theorem Turned.acceptLoop {failed : Bool} {left : Nat} (h : Turned a s results failed u)
    (hleft : results.length ≤ left) :
    (acceptLoop (inputsOf a results) left 0 s false).1 = u := by
  cases failed with
  | false =>
      rw [acceptLoop_turnAll (i := inputsOf a results) h hleft fun j hj => ?_]
      · cases hmore : left - results.length with
        | zero => rfl
        | succ more => simp [XLAcceptorThread.acceptLoop, inputsOf]
      · simp [inputsOf, hj]
  | true =>
      obtain ⟨before, result, v, rfl, hbefore, hlast⟩ := h
      rw [List.length_append, List.length_singleton] at hleft
      rw [acceptLoop_turnAll (i := inputsOf a (before ++ [result])) hbefore (by omega)
        fun j hj => ?_]
      · obtain ⟨more, hmore⟩ : ∃ more, left - before.length = more + 1 :=
          ⟨left - before.length - 1, by omega⟩
        rw [hmore, XLAcceptorThread.acceptLoop]
        simp [inputsOf, hlast, acceptLoop_exit]
      · simp [inputsOf, hj, List.getElem?_append_left hj]
        omega

/-! ### One run after the other

The thread can be started again, and each life goes on with the socket of the last one, which only
one `Start` can open.  What `accept` has returned and what was announced add up over the lives.
-/

/-- What `RunProgram` makes of the socket, one after the other. -/
def lives (num : Int) (socket : Option XLSocket) (is : List AcceptorInputs) : Option XLSocket :=
  is.foldl (fun socket i => (runProgram ⟨socket, false, num⟩ i).socket) socket

theorem lives_concat (num : Int) (socket : Option XLSocket) (is : List AcceptorInputs)
    (i : AcceptorInputs) :
    lives num socket (is ++ [i]) = (runProgram ⟨lives num socket is, false, num⟩ i).socket := by
  simp [lives]

/-- A server with a listener only gets a longer log from the loop. -/
theorem acceptLoop_frame (i : AcceptorInputs) (left k : Nat) (exit : Bool) (h : Serves s) :
    ∃ calls, (XLAcceptorThread.acceptLoop i left k s exit).1 =
      { s with log := s.log ++ calls } := by
  induction left generalizing k s exit with
  | zero => exact ⟨[], by rw [List.append_nil]; rfl⟩
  | succ left ih =>
      rw [XLAcceptorThread.acceptLoop]
      split
      · exact ⟨[], by rw [List.append_nil]⟩
      · rw [h.acceptConnection]
        obtain ⟨calls, hcalls⟩ := ih (s := { s with log := s.log ++ connection (i.accepts k) })
          (k + 1) (!true) ⟨h.serverMode, h.listener⟩
        exact ⟨connection (i.accepts k) ++ calls, by rw [← List.append_assoc]; exact hcalls⟩

/-- Whether the socket can still be opened. -/
def spare (s : XLSocket) : Nat := if s.active then 0 else 1

/-- A `Start` that opens the listening socket uses that up. -/
theorem spare_start (s : XLSocket) (a : SocketAnswers) :
    spare (s.start a).1 + (if s.opens a then 1 else 0) = spare s := by
  cases hactive : s.active with
  | true => simp [start_active hactive, spare, opens, hactive]
  | false =>
      by_cases hsocket : a.socket = invalidSocket
      · simp [start_no_socket hactive hsocket, spare, opens, hactive, hsocket, openSocket, call]
      · obtain ⟨calls, -, hstart⟩ := start_socket hactive hsocket
        rw [hstart]
        cases hworks : s.works a <;> simp [spare, opens, hactive, hsocket, hworks]

/-- What `accept` has returned to a server with a listener, and what that has announced, on the way
from `s` to `u`, where there were so many turns to make. -/
structure Announced (s : XLSocket) (turns : Nat) (u : XLSocket) (calls : List SocketCall) :
    Prop where
  serves : Serves u
  log : u.log = s.log ++ calls
  all : calls.filterMap SocketCall.announced = calls.filterMap SocketCall.acceptResult
  atMost : (calls.filterMap SocketCall.announced).length + spare u ≤ spare s + turns

theorem runProgram_announced (h : Serves s) (num : Int) (i : AcceptorInputs) :
    ∃ u calls, (runProgram ⟨some s, false, num⟩ i).socket = some u ∧
      Announced s (num - 1).toNat u calls := by
  obtain ⟨first, -, hfirst, hserves, -⟩ := h.start i.start
  obtain ⟨more, hmore⟩ := acceptLoop_frame i (num - 1).toNat 0 false hserves
  have hlog : (XLAcceptorThread.acceptLoop i (num - 1).toNat 0 (s.start i.start).1 false).1.log =
      s.log ++ (first ++ (if s.opens i.start then connection i.start.accept else []) ++ more) := by
    rw [hmore]
    show (s.start i.start).1.log ++ more = _
    rw [hfirst, List.append_assoc]
  have hcalls : calls ⟨some s, false, num⟩ i =
      first ++ (if s.opens i.start then connection i.start.accept else []) ++ more := by
    show List.drop s.log.length (XLAcceptorThread.acceptLoop i (num - 1).toNat 0
      (s.start i.start).1 false).1.log = _
    rw [hlog, List.drop_left]
  obtain ⟨haccepted, hannounced⟩ := announced_eq (t := ⟨some s, false, num⟩) (i := i) h rfl
  rw [hcalls] at haccepted hannounced
  refine ⟨_, _, rfl, ?_, hlog, hannounced.trans haccepted.symm, ?_⟩
  · rw [hmore]
    exact ⟨hserves.serverMode, hserves.listener⟩
  · have hspare := spare_start s i.start
    have hturns : turns ⟨some s, false, num⟩ i ≤ (num - 1).toNat := turns_le i _ 0
    have hlength : (results ⟨some s, false, num⟩ s i).length =
        (if s.opens i.start then 1 else 0) + turns ⟨some s, false, num⟩ i := by
      rw [results, List.length_append, List.length_map, List.length_range]
      split <;> rfl
    rw [hannounced, hlength, hmore]
    show _ + spare (s.start i.start).1 ≤ _
    omega

/-- Nothing is announced twice over, and it adds up. -/
theorem lives_announced (h : Serves s) (num : Int) (is : List AcceptorInputs) :
    ∃ u calls, lives num (some s) is = some u ∧
      Announced s (is.length * (num - 1).toNat) u calls := by
  induction is generalizing s with
  | nil => exact ⟨s, [], rfl, h, by rw [List.append_nil], rfl, by simp⟩
  | cons i is ih =>
      obtain ⟨t, first, hrun, hfirst⟩ := runProgram_announced h num i
      obtain ⟨u, rest, hlives, hrest⟩ := ih hfirst.serves
      refine ⟨u, first ++ rest, ?_, hrest.serves, ?_, ?_, ?_⟩
      · rw [lives, List.foldl_cons, hrun]
        exact hlives
      · rw [hrest.log, hfirst.log, List.append_assoc]
      · rw [List.filterMap_append, List.filterMap_append, hfirst.all, hrest.all]
      · have hone := hfirst.atMost
        have hothers := hrest.atMost
        rw [List.filterMap_append, List.length_append, List.length_cons, Nat.succ_mul]
        omega

end XLAcceptorThread

/-- Where the loop is not. -/
def AcceptorPc.outside : AcceptorPc → Bool
  | testing _ | accepting _ => false
  | off | started | taking | synced | starting | leaving | ended => true

namespace AcceptorLife

open XLAcceptorThread

variable {s s' : AcceptorLife} {l : AcceptorLifeStep}

/-! ### What a step does -/

/-- What one step can do, with what it finds. -/
inductive Moves (s : AcceptorLife) : AcceptorLifeStep → AcceptorLife → Prop
  | start (ho : s.owner = .idle) (hh : s.handle = false) :
      Moves s .start { s with
        object := { s.object with exit := false }
        sync1 := s.sync1.create 0 1
        sync2 := s.sync2.create 0 1
        pc := .started
        owner := .spawned }
  | startNone (ho : s.owner = .idle) (hh : s.handle = true) : Moves s .start s
  | stop (ho : s.owner = .idle) (hh : s.handle = true) :
      Moves s .stop { s with object := { s.object with exit := true }, owner := .taking }
  | stopNone (ho : s.owner = .idle) (hh : s.handle = false) : Moves s .stop s
  | spawned (ho : s.owner = .spawned) : Moves s .owner { s with handle := true, owner := .handled }
  | handled (ho : s.owner = .handled) :
      Moves s .owner { s with sync1 := s.sync1.give, owner := .idle }
  | taking {sync2} (ho : s.owner = .taking) (hs : s.sync2.take = some sync2) :
      Moves s .owner { s with
        sync1 := s.sync1.destroy, sync2 := sync2.destroy, owner := .joining }
  | joining (ho : s.owner = .joining) (hp : s.pc = .ended) :
      Moves s .owner { s with handle := false, owner := .idle }
  | tested {a} (hp : s.pc = .started) (hs : s.sync1.created = true) :
      Moves s (.thread a) { s with pc := .taking }
  | ungated {a} (hp : s.pc = .started) (hs : s.sync1.created = false) :
      Moves s (.thread a) { s with pc := .synced }
  | taken {a} (hp : s.pc = .taking) (hs : s.sync1.Passes) :
      Moves s (.thread a) { s with sync1 := s.sync1.raise, pc := .synced }
  | synced {a} (hp : s.pc = .synced) :
      Moves s (.thread a) { s with pc := if s.handle then .starting else .leaving }
  | noSocket {a} (hp : s.pc = .starting) (hs : s.object.socket = none) :
      Moves s (.thread a) { s with pc := .leaving }
  | socket {a socket} (hp : s.pc = .starting) (hs : s.object.socket = some socket) :
      Moves s (.thread a) { s with
        object := { s.object with socket := some (socket.start a).1 }
        pc := .testing 0
        programs := s.programs + 1 }
  | enter {a turns} (hp : s.pc = .testing turns) (he : s.object.exit = false)
      (hlt : (turns : Int) + 1 < s.object.nConnection) :
      Moves s (.thread a) { s with pc := .accepting turns }
  | leave {a turns} (hp : s.pc = .testing turns) : Moves s (.thread a) { s with pc := .leaving }
  | accept {a turns socket} (hp : s.pc = .accepting turns) (hs : s.object.socket = some socket) :
      Moves s (.thread a) { s with
        object := { s.object with
          socket := some (socket.acceptConnection a).1
          exit := s.object.exit || !(socket.acceptConnection a).2 }
        pc := .testing (turns + 1) }
  | leaving {a} (hp : s.pc = .leaving) :
      Moves s (.thread a) { s with sync2 := s.sync2.give, pc := .ended }

theorem owner_moves (h : s.ownerStep = some s') : Moves s .owner s' := by
  unfold ownerStep at h
  split at h
  · cases h
  · rename_i ho; cases h; exact .spawned ho
  · rename_i ho; cases h; exact .handled ho
  · rename_i ho
    obtain ⟨sync2, hs, rfl⟩ := Option.map_eq_some_iff.mp h
    exact .taking ho hs
  · rename_i ho
    obtain ⟨hp, h⟩ := Option.ite_none_right_eq_some.mp h
    cases h
    exact .joining ho hp

theorem thread_moves {a : SocketAnswers} (h : s.threadStep a = some s') :
    Moves s (.thread a) s' := by
  unfold threadStep at h
  split at h
  · cases h
  · cases h
  · rename_i hp
    cases hs : s.sync1.created with
    | true =>
        rw [hs, if_pos rfl] at h
        cases h
        exact .tested hp hs
    | false =>
        rw [hs, if_neg Bool.false_ne_true] at h
        cases h
        exact .ungated hp hs
  · rename_i hp
    obtain ⟨hs, h⟩ := Option.ite_none_right_eq_some.mp h
    cases h
    exact .taken hp hs
  · rename_i hp; cases h; exact .synced hp
  · rename_i hp
    cases h
    unfold startSocket
    split
    · rename_i hs; exact .noSocket hp hs
    · rename_i hs; exact .socket hp hs
  · rename_i hp
    split at h
    · rename_i hgo; cases h; exact .enter hp hgo.1 hgo.2
    · cases h; exact .leave hp
  · rename_i hp
    obtain ⟨socket, hs, rfl⟩ := Option.map_eq_some_iff.mp h
    exact .accept hp hs
  · rename_i hp; cases h; exact .leaving hp

theorem moves_of_next (h : s.next l = some s') : Moves s l s' := by
  cases l with
  | start =>
      obtain ⟨ho, h⟩ := Option.ite_none_right_eq_some.mp h
      cases h
      unfold start
      split
      · rename_i hh; exact .startNone ho hh
      · rename_i hh; exact .start ho (Bool.eq_false_iff.mpr hh)
  | stop =>
      obtain ⟨ho, h⟩ := Option.ite_none_right_eq_some.mp h
      cases h
      unfold stop
      split
      · rename_i hh; exact .stop ho hh
      · rename_i hh; exact .stopNone ho (Bool.eq_false_iff.mpr hh)
  | owner => exact owner_moves h
  | thread a => exact thread_moves h

/-! ### The two threads

The thread and its owner meet at `m_Sync1`, at `m_Sync2` and in `join`.  Where the one is says where
the other can be, and that is all the runs of `RunProgram` need to know.
-/

/-- Where the thread is, seen from the owner. -/
structure Threads (s : AcceptorLife) : Prop where
  /-- There is none that could go on. -/
  gone : s.owner = .idle → s.handle = false → s.pc = .off ∨ s.pc = .ended
  off : s.pc = .off → s.owner = .idle ∧ s.handle = false
  handle : s.owner = .handled ∨ s.owner = .taking ∨ s.owner = .joining → s.handle = true
  first : s.pc = .started ∨ s.pc = .taking → XLSemaPhore.Open s.sync1
  shut : XLSemaPhore.Shut s.sync1
  closed : s.owner = .joining ∨ s.owner = .idle ∧ s.handle = false → s.sync1.created = false
  second : XLSemaPhore.Open s.sync2
  socket : ∀ turns, s.pc = .testing turns ∨ s.pc = .accepting turns →
    s.object.socket.isSome = true

theorem threads_new (socket : Option XLSocket) (num : Int) : Threads (new socket num) where
  gone := fun _ _ => Or.inl rfl
  off := fun _ => ⟨rfl, rfl⟩
  handle := by rintro (h | h | h) <;> cases h
  first := by rintro (h | h) <;> cases h
  shut := XLSemaPhore.shut_new
  closed := fun _ => rfl
  second := fun h => by cases h
  socket := by rintro turns (h | h) <;> cases h

/-- A thread that is under way has been started. -/
theorem Threads.busy (h : Threads s) (hoff : s.pc ≠ .off) (hended : s.pc ≠ .ended) :
    ¬ (s.owner = .idle ∧ s.handle = false) :=
  fun ⟨ho, hh⟩ => (h.gone ho hh).elim hoff hended

/-- The thread goes on within `RunProgram`, or out of it. -/
theorem Threads.moved (h : Threads s) (hoff : s.pc ≠ .off) (hended : s.pc ≠ .ended)
    {object : XLAcceptorThread} {pc : AcceptorPc} {programs : Nat} (hpc : pc ≠ .off)
    (hpast : pc ≠ .started ∧ pc ≠ .taking)
    (hsocket : ∀ turns, pc = .testing turns ∨ pc = .accepting turns → object.socket.isSome = true) :
    Threads { s with object := object, pc := pc, programs := programs } where
  gone := fun ho hh => absurd ⟨ho, hh⟩ (h.busy hoff hended)
  off := fun hp => absurd hp hpc
  handle := h.handle
  first := fun hp => absurd hp (not_or.mpr hpast)
  shut := h.shut
  closed := h.closed
  second := h.second
  socket := hsocket

theorem Threads.start (h : Threads s) (ho : s.owner = .idle) (hh : s.handle = false) :
    Threads { s with
      object := { s.object with exit := false }
      sync1 := s.sync1.create 0 1
      sync2 := s.sync2.create 0 1
      pc := .started
      owner := .spawned } where
  gone := nofun
  off := nofun
  handle := nofun
  first := fun _ => (XLSemaPhore.Open.of_not_created (h.closed (Or.inr ⟨ho, hh⟩))).create
  shut := .create 0 1
  closed := nofun
  second := h.second.create
  socket := nofun

theorem Threads.stop (h : Threads s) (hh : s.handle = true) :
    Threads { s with object := { s.object with exit := true }, owner := .taking } where
  gone := nofun
  off := fun hp => absurd ((h.off hp).2.symm.trans hh) (by decide)
  handle := fun _ => hh
  first := h.first
  shut := h.shut
  closed := nofun
  second := h.second
  socket := h.socket

theorem Threads.ownerStep (h : Threads s) (hstep : s.ownerStep = some s') : Threads s' := by
  cases owner_moves hstep with
  | spawned ho =>
      have hon : s.pc ≠ .off := fun hp => absurd (ho.symm.trans (h.off hp).1) (by decide)
      exact ⟨nofun, fun hp => absurd hp hon, fun _ => rfl, h.first, h.shut, nofun, h.second,
        h.socket⟩
  | handled ho =>
      have hh := h.handle (Or.inl ho)
      have hhandle : s.handle ≠ false := fun hh' => absurd (hh'.symm.trans hh) (by decide)
      exact ⟨fun _ hh' => absurd hh' hhandle, fun hp => absurd (h.off hp).2 hhandle, fun _ => hh,
        fun hp => (h.first hp).give, h.shut.give,
        fun hc => hc.elim nofun fun hc => absurd hc.2 hhandle, h.second, h.socket⟩
  | taking ho hs =>
      have hh := h.handle (Or.inr (Or.inl ho))
      exact ⟨nofun, fun hp => absurd ((h.off hp).2.symm.trans hh) (by decide), fun _ => hh,
        fun _ => .of_not_created (XLSemaPhore.destroy_created _), h.shut.destroy,
        fun _ => XLSemaPhore.destroy_created _,
        .of_not_created (XLSemaPhore.destroy_created _), h.socket⟩
  | joining ho hp =>
      have hon : s.pc ≠ .off := fun hp' => by
        rw [hp] at hp'
        cases hp'
      exact ⟨fun _ _ => Or.inr hp, fun hp' => absurd hp' hon, nofun, h.first, h.shut,
        fun _ => h.closed (Or.inl ho), h.second, h.socket⟩

theorem Threads.threadStep {a : SocketAnswers} (h : Threads s)
    (hstep : s.threadStep a = some s') : Threads s' := by
  cases thread_moves hstep with
  | tested hp hs =>
      have hbusy := h.busy (by rw [hp]; decide) (by rw [hp]; decide)
      exact ⟨fun ho hh => absurd ⟨ho, hh⟩ hbusy, (fun hp' => by cases hp'), h.handle,
        fun _ => h.first (Or.inl hp), h.shut, h.closed, h.second, by simp⟩
  | ungated hp =>
      exact h.moved (by rw [hp]; simp) (by rw [hp]; simp) (by decide) (by decide) (by simp)
  | taken hp hs =>
      have hbusy := h.busy (by rw [hp]; decide) (by rw [hp]; decide)
      exact ⟨fun ho hh => absurd ⟨ho, hh⟩ hbusy, (fun hp' => by cases hp'), h.handle, by simp,
        h.shut.raise hs, h.closed, h.second, by simp⟩
  | synced hp =>
      refine h.moved (by rw [hp]; decide) (by rw [hp]; decide) ?_ ?_ ?_ <;> split <;> simp
  | noSocket hp | leave hp =>
      exact h.moved (by rw [hp]; simp) (by rw [hp]; simp) (by decide) (by decide) (by simp)
  | socket hp hs | accept hp hs =>
      exact h.moved (by rw [hp]; simp) (by rw [hp]; simp) (by simp) (by simp) fun _ _ => rfl
  | @enter a turns hp he hlt =>
      exact h.moved (by rw [hp]; simp) (by rw [hp]; simp) (by simp) (by simp)
        fun _ _ => h.socket turns (Or.inl hp)
  | leaving hp =>
      exact ⟨fun _ _ => Or.inr rfl, (fun hp' => by cases hp'), h.handle,
        by simp, h.shut, h.closed, h.second.give, by simp⟩

theorem Threads.next (h : Threads s) (hstep : s.next l = some s') : Threads s' := by
  cases l with
  | start =>
      cases moves_of_next hstep with
      | start ho hh => exact h.start ho hh
      | startNone => exact h
  | stop =>
      cases moves_of_next hstep with
      | stop ho hh => exact h.stop hh
      | stopNone => exact h
  | owner => exact h.ownerStep hstep
  | thread a => exact h.threadStep hstep

/-! ### The runs of `RunProgram` -/

variable {num : Int} {made : Option XLSocket}

/-- What the thread has done so far is so many runs. -/
def Lived (num : Int) (made : Option XLSocket) (s : AcceptorLife) : Prop :=
  ∃ is : List AcceptorInputs, is.length = s.programs ∧ s.object.socket = lives num made is

/-- It has made so many turns of another one. -/
def Looping (num : Int) (made : Option XLSocket) (turns : Nat) (failed : Bool)
    (s : AcceptorLife) : Prop :=
  ∃ (is : List AcceptorInputs) (before : XLSocket) (a : SocketAnswers) (results : List Int)
    (socket : XLSocket), is.length + 1 = s.programs ∧ lives num made is = some before ∧
      results.length = turns ∧ s.object.socket = some socket ∧
      Turned a (before.start a).1 results failed socket

/-- They are all of a run. -/
theorem Looping.lived {turns : Nat} {failed : Bool} (h : Looping num made turns failed s)
    (hturns : turns ≤ (num - 1).toNat) : Lived num made s := by
  obtain ⟨is, before, a, results, socket, hprograms, hbefore, rfl, hsocket, hturned⟩ := h
  refine ⟨is ++ [inputsOf a results], by rw [List.length_append, List.length_singleton, hprograms],
    ?_⟩
  rw [lives_concat, hbefore, hsocket]
  exact congrArg some (hturned.acceptLoop hturns).symm

/-- The thread's place, and the runs of `RunProgram` that the socket's log is made of. -/
structure Inv (num : Int) (made : Option XLSocket) (s : AcceptorLife) : Prop where
  threads : Threads s
  connections : s.object.nConnection = num
  /-- Between two runs. -/
  out : (∀ turns, s.pc ≠ .testing turns ∧ s.pc ≠ .accepting turns) → Lived num made s
  testing : ∀ turns, s.pc = .testing turns → turns ≤ (num - 1).toNat ∧
    ∃ failed, (failed = true → s.object.exit = true) ∧ Looping num made turns failed s
  accepting : ∀ turns, s.pc = .accepting turns → turns < (num - 1).toNat ∧
    Looping num made turns false s

theorem inv_new (made : Option XLSocket) (num : Int) : Inv num made (new made num) where
  threads := threads_new made num
  connections := rfl
  out := fun _ => ⟨[], rfl, rfl⟩
  testing := nofun
  accepting := nofun

/-- In a run or not, the turns so far are all there are if it ends here. -/
theorem Inv.lived (h : Inv num made s) : Lived num made s := by
  by_cases hin : ∀ turns, s.pc ≠ .testing turns ∧ s.pc ≠ .accepting turns
  · exact h.out hin
  · simp only [not_forall, not_and_or, ne_eq, not_not] at hin
    obtain ⟨turns, hp | hp⟩ := hin
    · obtain ⟨hturns, failed, -, hlooping⟩ := h.testing turns hp
      exact hlooping.lived hturns
    · obtain ⟨hturns, hlooping⟩ := h.accepting turns hp
      exact hlooping.lived (Nat.le_of_lt hturns)

/-- The socket is left alone, and the loop is left or not entered. -/
theorem Inv.leave (h : Inv num made s) (hthreads : Threads s')
    (hsocket : s'.object.socket = s.object.socket)
    (hconnections : s'.object.nConnection = s.object.nConnection)
    (hprograms : s'.programs = s.programs)
    (hpc : s'.pc.outside = true) : Inv num made s' where
  threads := hthreads
  connections := hconnections.trans h.connections
  out := fun _ => by
    obtain ⟨is, hlength, hlives⟩ := h.lived
    exact ⟨is, hlength.trans hprograms.symm, hsocket.trans hlives⟩
  testing := fun turns hp => by rw [hp] at hpc; cases hpc
  accepting := fun turns hp => by rw [hp] at hpc; cases hpc

/-- A step of the owner that starts no thread. -/
theorem Inv.owner (h : Inv num made s) (hthreads : Threads s')
    (hsocket : s'.object.socket = s.object.socket)
    (hconnections : s'.object.nConnection = s.object.nConnection)
    (hexit : s.object.exit = true → s'.object.exit = true) (hprograms : s'.programs = s.programs)
    (hpc : s'.pc = s.pc) : Inv num made s' where
  threads := hthreads
  connections := hconnections.trans h.connections
  out := fun hin => by
    obtain ⟨is, hlength, hlives⟩ := h.out (hpc ▸ hin)
    exact ⟨is, hlength.trans hprograms.symm, hsocket.trans hlives⟩
  testing := fun turns hp => by
    obtain ⟨hturns, failed, hfailed, hlooping⟩ := h.testing turns (hpc ▸ hp)
    refine ⟨hturns, failed, fun hf => hexit (hfailed hf), ?_⟩
    unfold Looping
    rw [hsocket, hprograms]
    exact hlooping
  accepting := fun turns hp => by
    obtain ⟨hturns, hlooping⟩ := h.accepting turns (hpc ▸ hp)
    refine ⟨hturns, ?_⟩
    unfold Looping
    rw [hsocket, hprograms]
    exact hlooping

theorem Inv.next (h : Inv num made s) (hstep : s.next l = some s') : Inv num made s' := by
  have hthreads := h.threads.next hstep
  cases moves_of_next hstep with
  | startNone | stopNone => exact h
  | start => exact h.leave hthreads rfl rfl rfl rfl
  | stop => exact h.owner hthreads rfl rfl (fun _ => rfl) rfl rfl
  | spawned | handled | taking | joining => exact h.owner hthreads rfl rfl id rfl rfl
  | tested | ungated | taken | noSocket | leave | leaving => exact h.leave hthreads rfl rfl rfl rfl
  | synced hp =>
      refine h.leave hthreads rfl rfl rfl ?_
      dsimp only
      split <;> rfl
  | @socket a socket hp hs =>
      obtain ⟨is, hlength, hlives⟩ := h.lived
      refine ⟨hthreads, h.connections, fun hin => absurd rfl (hin 0).1, fun turns hp' => ?_, nofun⟩
      cases hp'
      exact ⟨Nat.zero_le _, false, nofun, is, socket, a, [], _, congrArg (· + 1) hlength,
        hlives.symm.trans hs, rfl, rfl, rfl⟩
  | @enter a turns hp he hlt =>
      refine ⟨hthreads, h.connections, fun hin => absurd rfl (hin turns).2, nofun,
        fun turns' hp' => ?_⟩
      cases hp'
      obtain ⟨-, failed, hfailed, hlooping⟩ := h.testing turns hp
      have hnot : failed = false := Bool.eq_false_iff.mpr fun hf => by
        rw [hfailed hf] at he
        cases he
      rw [h.connections] at hlt
      exact ⟨by omega, hnot ▸ hlooping⟩
  | @accept a turns socket hp hs =>
      obtain ⟨hturns, is, before, b, results, socket', hlength, hbefore, hresults, hsocket,
        hturned⟩ := h.accepting turns hp
      cases hsocket.symm.trans hs
      refine ⟨hthreads, h.connections, fun hin => absurd rfl (hin (turns + 1)).1,
        fun turns' hp' => ?_, nofun⟩
      cases hp'
      have hcall : socket.acceptConnection { b with accept := a.accept } =
          socket.acceptConnection a := rfl
      refine ⟨hturns, !(socket.acceptConnection a).2, fun hf => ?_, is, before, b,
        results ++ [a.accept], _, hlength, hbefore, by simp [hresults], rfl, ?_⟩
      · show (s.object.exit || !(socket.acceptConnection a).2) = true
        rw [hf, Bool.or_true]
      · cases haccepted : (socket.acceptConnection a).2 with
        | true => exact turnAll_concat hturned (hcall.trans (Prod.ext rfl haccepted))
        | false =>
            exact ⟨results, a.accept, socket, rfl, hturned, hcall.trans (Prod.ext rfl haccepted)⟩

variable {ls ms : List AcceptorLifeStep} {t u : AcceptorLife}

/--
In every run, with `Start` and `Stop` called any number of times at any time: what the acceptor's
threads have done to the socket is what so many runs of `RunProgram` do, one after the other, as
`XLAcceptorThread.runProgram` has it, for some answers of the system and some turns that `Stop` was
seen in.
-/
theorem exists_lives (made : Option XLSocket) (num : Int)
    (hrun : exec next (new made num) ls = some s) :
    ∃ is : List AcceptorInputs, is.length = s.programs ∧ s.object.socket = lives num made is := by
  have hinv : Inv num made s :=
    exec_invariant (I := Inv num made) (fun _ _ _ hu hstep => hu.next hstep) (inv_new made num) hrun
  exact hinv.lived

/--
So an acceptor that is started again and again passes on every result of `accept`, a failure too,
and calls it once when the socket is opened and up to `m_iNConnection - 1` times in each life.
-/
theorem announced_at_most {socket : XLSocket} (hmode : socket.serverMode = true)
    (hlistener : socket.listener = true)
    (hrun : exec next (new (some socket) num) ls = some s) :
    ∃ last calls, s.object.socket = some last ∧ last.log = socket.log ++ calls ∧
      calls.filterMap SocketCall.announced = calls.filterMap SocketCall.acceptResult ∧
      (calls.filterMap SocketCall.announced).length ≤ 1 + s.programs * (num - 1).toNat := by
  have hinv : Inv num (some socket) s :=
    exec_invariant (I := Inv num (some socket)) (fun _ _ _ hu hstep => hu.next hstep)
      (inv_new (some socket) num) hrun
  obtain ⟨is, hlength, hlives⟩ := hinv.lived
  obtain ⟨last, calls, hlast, hannounced⟩ := lives_announced ⟨hmode, hlistener⟩ num is
  refine ⟨last, calls, hlives.trans hlast, hannounced.log, hannounced.all, ?_⟩
  have hspare : spare socket ≤ 1 := by
    unfold spare
    split <;> decide
  have hmost := hannounced.atMost
  rw [hlength] at hmost
  omega

/-- Each call of the system succeeds. -/
def goodAnswers : SocketAnswers :=
  { socket := 3, connect := false, binds := fun _ => true, accept := 4 }

/-- The acceptor is started, accepts what it may, and is stopped. -/
def lifeSteps : List AcceptorLifeStep :=
  [.start, .owner, .owner] ++ List.replicate 8 (.thread goodAnswers) ++ [.stop, .owner, .owner]

/-- A server for two clients. -/
def twoClients : XLSocket := XLSocket.new SocketConfig.new true true

theorem exists_lives_twice : ∃ s, exec next (new (some twoClients) 2) (lifeSteps ++ lifeSteps) =
    some s ∧ s.programs = 2 ∧ ∃ is : List AcceptorInputs, is.length = 2 ∧
      s.object.socket = lives 2 (some twoClients) is := by
  obtain ⟨s, hs, hprograms⟩ := (Option.any_eq_true _ _).mp
    (show (exec next (new (some twoClients) 2) (lifeSteps ++ lifeSteps)).any
      (fun s => decide (s.programs = 2)) = true by decide +kernel)
  have htwo := of_decide_eq_true hprograms
  exact ⟨s, hs, htwo, htwo ▸ exists_lives (some twoClients) 2 hs⟩

/-- The second time one client more than there may be comes in. -/
theorem announced_at_most_twice :
    ∃ (s : AcceptorLife) (last : XLSocket) (calls : List SocketCall),
      exec next (new (some twoClients) 2) (lifeSteps ++ lifeSteps) = some s ∧
      s.object.socket = some last ∧ calls.filterMap SocketCall.announced = [4, 4, 4] ∧
      (calls.filterMap SocketCall.announced).length ≤ 1 + s.programs * (2 - 1 : Int).toNat := by
  obtain ⟨s, hs, hrest⟩ := (Option.any_eq_true _ _).mp
    (show (exec next (new (some twoClients) 2) (lifeSteps ++ lifeSteps)).any
      (fun s => s.object.socket.any fun socket =>
        decide (socket.log.filterMap SocketCall.announced = [4, 4, 4])) = true by decide +kernel)
  obtain ⟨last, calls, hlast, hlog, -, hmost⟩ := announced_at_most
    (show twoClients.serverMode = true from rfl) rfl hs
  obtain ⟨socket, hsocket, hfound⟩ := (Option.any_eq_true _ _).mp hrest
  cases hsocket.symm.trans hlast
  have hcalls : last.log = calls := hlog
  exact ⟨s, last, calls, hs, hlast, hcalls ▸ of_decide_eq_true hfound, hmost⟩

end AcceptorLife

end ServClient
