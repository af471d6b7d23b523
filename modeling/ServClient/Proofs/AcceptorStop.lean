/-
What happens from a call of `XLAcceptorThread::Stop` on.

`Stop` waits for the thread, and the thread may be in `accept`.  The argument that it gets out
could fail where it has not come to `m_pSocket->Start()` yet, which does not look at `m_bExit`; that
is the one connection that may still come in.  It does fail where the thread is in `m_Sync1.Take()`
when `Stop` destroys `m_Sync1`.
-/
import ServClient.Proofs.AcceptorLife

namespace ServClient

open Runs

/-- How many connections may still come in where `m_bExit` is set. -/
def AcceptorPc.room : AcceptorPc → Nat
  | started | taking | synced | starting | accepting _ => 1
  | off | testing _ | leaving | ended => 0

/-- How far the thread is from its end where `m_bExit` is set. -/
def AcceptorPc.load : AcceptorPc → Nat
  | off | ended => 0
  | leaving => 1
  | testing _ => 2
  | starting | accepting _ => 3
  | synced => 4
  | taking => 5
  | started => 6

/-- How far the owner is from the end of `Stop`. -/
def AcceptorOwnerPc.load : AcceptorOwnerPc → Nat
  | taking => 2
  | joining => 1
  | idle | spawned | handled => 0

namespace AcceptorLife

variable {s s' t u : AcceptorLife} {l : AcceptorLifeStep} {ls ms : List AcceptorLifeStep}
  {num : Int} {made : Option XLSocket}

/-- The calls of `accept` so far. -/
def accepts (s : AcceptorLife) : Nat := (s.object.socket.map XLSocket.accepts).getD 0

/-- The thread is in the `Take` of `m_Sync1`, which has been destroyed. -/
def ShutOut (s : AcceptorLife) : Prop := s.pc = .taking ∧ s.sync1.created = false

/-- `m_bExit` is set, and the owner waits, or has stopped waiting. -/
structure Stopping (s : AcceptorLife) : Prop where
  threads : Threads s
  exit : s.object.exit = true ∨ s.handle = false
  owner : s.owner = .taking ∨ s.owner = .joining ∨ s.owner = .idle ∧ s.handle = false

theorem stopping_of_stop (h : Threads s) (hstep : s.next .stop = some s') : Stopping s' := by
  cases moves_of_next hstep with
  | stop ho hh => exact ⟨h.stop hh, Or.inl rfl, Or.inl rfl⟩
  | stopNone ho hh => exact ⟨h, Or.inr hh, Or.inr (Or.inr ⟨ho, hh⟩)⟩

/-- The steps that the threads take while `Stop` waits. -/
theorem goOn_eq_some (h : s.goOn l = some s') :
    s.next l = some s' ∧ (l = .owner ∨ ∃ a, l = .thread a) := by
  unfold goOn at h
  split at h
  · rename_i hown
    refine ⟨h, ?_⟩
    cases l with
    | owner => exact Or.inl rfl
    | thread a => exact Or.inr ⟨a, rfl⟩
    | start | stop => cases hown
  · cases h

/-- After `Stop` there is nothing that goes on. -/
theorem Stopping.returned (h : Stopping s) (ho : s.owner = .idle) (l : AcceptorLifeStep) :
    s.goOn l = none := by
  have hh : s.handle = false := by
    rcases h.owner with ho' | ho' | ⟨-, hh⟩
    · cases ho.symm.trans ho'
    · cases ho.symm.trans ho'
    · exact hh
  have hgone := h.threads.gone ho hh
  cases hstep : s.goOn l with
  | none => rfl
  | some s' =>
      obtain ⟨hnext, rfl | ⟨a, rfl⟩⟩ := goOn_eq_some hstep
      · simp [next, ownerStep, ho] at hnext
      · rcases hgone with hp | hp <;> simp [next, threadStep, hp] at hnext

/-- While `Stop` waits, `m_bExit` is set. -/
theorem Stopping.exit_true (h : Stopping s) (ho : s.owner = .taking ∨ s.owner = .joining) :
    s.object.exit = true :=
  h.exit.resolve_right fun hh => by
    rw [h.threads.handle (Or.inr ho)] at hh
    cases hh

/-- The threads go on only while it does. -/
theorem Stopping.waits (h : Stopping s) (hstep : s.goOn l = some s') :
    s.owner = .taking ∨ s.owner = .joining := by
  rcases h.owner with ho | ho | ⟨ho, -⟩
  · exact Or.inl ho
  · exact Or.inr ho
  · rw [h.returned ho l] at hstep
    cases hstep

theorem Stopping.goOn (h : Stopping s) (hstep : s.goOn l = some s') : Stopping s' := by
  have howner := h.waits hstep
  have hexit := h.exit_true howner
  obtain ⟨hnext, hl⟩ := goOn_eq_some hstep
  have hthreads := h.threads.next hnext
  rcases hl with rfl | ⟨a, rfl⟩
  · cases moves_of_next hnext with
    | spawned ho | handled ho => rw [ho] at howner; simp at howner
    | taking => exact ⟨hthreads, Or.inl hexit, Or.inr (Or.inl rfl)⟩
    | joining => exact ⟨hthreads, Or.inr rfl, Or.inr (Or.inr ⟨rfl, rfl⟩)⟩
  · have hkeep : s'.object.exit = true ∧ s'.owner = s.owner := by
      cases moves_of_next hnext with
      | accept =>
          refine ⟨?_, rfl⟩
          show (s.object.exit || _) = true
          rw [hexit, Bool.true_or]
      | tested | ungated | taken | synced | noSocket | socket | enter | leave | leaving =>
          exact ⟨hexit, rfl⟩
    exact ⟨hthreads, Or.inl hkeep.1, hkeep.2 ▸ howner.imp_right Or.inl⟩

/-- A connection that comes in takes its room. -/
theorem Stopping.accepts_goOn (h : Stopping s) (hstep : s.goOn l = some s') :
    s'.accepts + s'.pc.room ≤ s.accepts + s.pc.room := by
  have hexit := h.exit_true (h.waits hstep)
  obtain ⟨hnext, hl⟩ := goOn_eq_some hstep
  cases moves_of_next hnext with
  | start | startNone | stop | stopNone => simp at hl
  | spawned | handled | taking | joining => exact Nat.le_refl _
  | tested hp | ungated hp | taken hp | leave hp | leaving hp =>
      rw [hp]
      exact Nat.le_refl _
  | synced hp =>
      rw [hp]
      dsimp only
      split
      · exact Nat.le_refl _
      · exact Nat.le_succ _
  | noSocket hp =>
      rw [hp]
      exact Nat.le_succ _
  | @socket a socket hp hs =>
      rw [hp]
      have hmore := socket.accepts_start a
      simpa [accepts, hs, AcceptorPc.room] using hmore
  | enter hp he =>
      rw [hexit] at he
      cases he
  | @accept a turns socket hp hs =>
      rw [hp]
      have hmore := socket.accepts_acceptConnection a
      simpa [accepts, hs, AcceptorPc.room] using hmore

/-- A thread that is under way and not shut out is kept waiting by nobody but the system. -/
theorem Threads.thread_enabled (h : Threads s) (hoff : s.pc ≠ .off) (hended : s.pc ≠ .ended)
    (hout : ¬ ShutOut s) (a : SocketAnswers) : ∃ s', s.threadStep a = some s' := by
  unfold AcceptorLife.threadStep
  split
  · rename_i hp; exact absurd hp hoff
  · rename_i hp; exact absurd hp hended
  · exact ⟨_, rfl⟩
  · rename_i hp
    have hc : s.sync1.created = true := by
      by_contra hc
      exact hout ⟨hp, by simpa using hc⟩
    exact ⟨_, if_pos (h.first (Or.inr hp) hc)⟩
  · exact ⟨_, rfl⟩
  · exact ⟨_, rfl⟩
  · split
    · exact ⟨_, rfl⟩
    · exact ⟨_, rfl⟩
  · rename_i turns hp
    obtain ⟨socket, hs⟩ := Option.isSome_iff_exists.mp (h.socket turns (Or.inr hp))
    exact ⟨_, congrArg (Option.map _) hs⟩
  · exact ⟨_, rfl⟩

/-- Where `m_bExit` is set it comes nearer to its end. -/
theorem load_thread {a : SocketAnswers} (hexit : s.object.exit = true)
    (hstep : s.threadStep a = some s') : s'.pc.load < s.pc.load ∧ s'.owner = s.owner := by
  cases thread_moves hstep with
  | tested hp | ungated hp | taken hp | noSocket hp | socket hp | leave hp | accept hp
  | leaving hp =>
      rw [hp]
      exact ⟨by simp [AcceptorPc.load], rfl⟩
  | synced hp =>
      rw [hp]
      refine ⟨?_, rfl⟩
      dsimp only
      split <;> decide
  | enter hp he =>
      rw [hexit] at he
      cases he

/-- Some answers of the system. -/
def anyAnswers : SocketAnswers :=
  { socket := invalidSocket, connect := false, binds := fun _ => false, accept := invalidSocket }

/-- The thread goes on while `Stop` waits for it. -/
theorem Stopping.thread_goesOn (h : Stopping s) (ho : s.owner = .taking ∨ s.owner = .joining)
    (hended : s.pc ≠ .ended) (hout : ¬ ShutOut s) :
    ∃ s', s.goOn (.thread anyAnswers) = some s' ∧ Stopping s' ∧
      s'.pc.load + s'.owner.load < s.pc.load + s.owner.load := by
  have hhandle := h.threads.handle (Or.inr ho)
  have hoff : s.pc ≠ .off := fun hp => by
    rw [(h.threads.off hp).2] at hhandle
    cases hhandle
  obtain ⟨s', hthread⟩ := h.threads.thread_enabled hoff hended hout anyAnswers
  have hstep : s.goOn (.thread anyAnswers) = some s' := hthread
  obtain ⟨hless, howner⟩ := load_thread (h.exit_true ho) hthread
  exact ⟨s', hstep, h.goOn hstep, by rw [howner]; omega⟩

/-- Nobody comes to be in the `Take` of a semaphore that has been destroyed. -/
theorem not_taking_thread {a : SocketAnswers} (hclosed : s.sync1.created = false)
    (hp : s.pc ≠ .taking) (hstep : s.threadStep a = some s') : ¬ ShutOut s' := by
  cases thread_moves hstep with
  | tested _ hs =>
      rw [hclosed] at hs
      cases hs
  | taken hp' => exact absurd hp' hp
  | synced =>
      dsimp only [ShutOut]
      split <;> simp
  | ungated | noSocket | socket | enter | leave | accept | leaving => simp [ShutOut]

/-- `Stop` comes nearer to its end, unless the thread is shut out. -/
theorem Stopping.goesOn (h : Stopping s) (hout : ¬ ShutOut s) :
    s.owner = .idle ∨ ∃ l s', s.goOn l = some s' ∧ (Stopping s' ∧ ¬ ShutOut s') ∧
      s'.pc.load + s'.owner.load < s.pc.load + s.owner.load := by
  rcases h.owner with ho | ho | ⟨ho, -⟩
  · by_cases hp : s.pc = .taking
    · -- The thread goes first, while `m_Sync1` is there.
      obtain ⟨s', hstep, hs', hless⟩ := h.thread_goesOn (Or.inl ho) (by simp [hp]) hout
      refine Or.inr ⟨_, s', hstep, ⟨hs', ?_⟩, hless⟩
      cases moves_of_next (goOn_eq_some hstep).1 with
      | taken => simp [ShutOut]
      | tested hp' | ungated hp' | synced hp' | noSocket hp' | socket hp' | enter hp' | leave hp'
      | accept hp' | leaving hp' =>
          rw [hp] at hp'
          cases hp'
    · obtain ⟨sync2, hsync⟩ := h.threads.second.take
      have hstep : s.goOn .owner = some { s with
          sync1 := s.sync1.destroy, sync2 := sync2.destroy, owner := .joining } := by
        show s.ownerStep = _
        simp only [ownerStep, ho, hsync, Option.map_some]
      refine Or.inr ⟨.owner, _, hstep, ⟨h.goOn hstep, fun hout' => hp hout'.1⟩, ?_⟩
      rw [ho]
      exact Nat.add_lt_add_left (by simp [AcceptorOwnerPc.load]) _
  · by_cases hended : s.pc = .ended
    · have hstep : s.goOn .owner = some { s with handle := false, owner := .idle } := by
        show s.ownerStep = _
        simp only [ownerStep, ho, hended, if_true]
      refine Or.inr ⟨.owner, _, hstep, ⟨h.goOn hstep, hout⟩, ?_⟩
      rw [ho]
      exact Nat.add_lt_add_left (by simp [AcceptorOwnerPc.load]) _
    · have hclosed := h.threads.closed (Or.inl ho)
      obtain ⟨s', hstep, hs', hless⟩ := h.thread_goesOn (Or.inr ho) hended hout
      exact Or.inr ⟨_, s', hstep, ⟨hs', not_taking_thread hclosed
        (fun hp => hout ⟨hp, hclosed⟩) (goOn_eq_some hstep).1⟩, hless⟩
  · exact Or.inl ho

/-- A thread that is shut out stays there, and `Stop` waits for it. -/
theorem Stopping.shutOut_goOn (h : Stopping s) (hout : ShutOut s) (hstep : s.goOn l = some s') :
    ShutOut s' := by
  obtain ⟨hp, hclosed⟩ := hout
  have hs' := h.goOn hstep
  cases moves_of_next (goOn_eq_some hstep).1 with
  | start | startNone | stop | stopNone => simpa using goOn_eq_some hstep
  | spawned | handled => exact ⟨hp, hs'.threads.closed (by simpa using hs'.owner)⟩
  | taking => exact ⟨hp, XLSemaPhore.destroy_created _⟩
  | joining ho hp' | tested hp' | ungated hp' | synced hp' | noSocket hp' | socket hp' | enter hp'
  | leave hp' | accept hp' | leaving hp' =>
      rw [hp] at hp'
      cases hp'
  | taken _ hpass => exact absurd hpass (h.threads.shut hclosed)

theorem Stopping.not_idle (h : Stopping s) (hout : ShutOut s) : s.owner ≠ .idle := fun ho => by
  obtain ho' | ho' | ⟨-, hh⟩ := h.owner
  · cases ho.symm.trans ho'
  · cases ho.symm.trans ho'
  · rcases h.threads.gone ho hh with hp | hp <;> cases hout.1.symm.trans hp

/--
Whatever has happened before, and in whatever order the threads go on after it: from a call of
`Stop` on `accept` returns at most once more; when `Stop` has returned there is nothing left
that could go on; and it can still come to that precisely if the thread is not in the `Take` of
the destroyed `m_Sync1`.
-/
theorem stop_ends (hrun : exec next (new made num) ls = some s) (hstop : s.next .stop = some t)
    (hown : exec goOn t ms = some u) :
    u.accepts ≤ s.accepts + 1 ∧ (u.owner = .idle → ∀ l, u.goOn l = none) ∧
      ((∃ ns v, exec goOn u ns = some v ∧ v.owner = .idle) ↔ ¬ ShutOut u) := by
  have hthreads : Threads s := exec_invariant (I := Threads)
    (fun _ _ _ hs hstep => hs.next hstep) (threads_new made num) hrun
  have hfirst := stopping_of_stop hthreads hstop
  obtain ⟨hstopping, hroom⟩ : Stopping u ∧ u.accepts + u.pc.room ≤ t.accepts + t.pc.room :=
    exec_invariant (I := fun v => Stopping v ∧ v.accepts + v.pc.room ≤ t.accepts + t.pc.room)
      (fun v l v' hv hstep => ⟨hv.1.goOn hstep, (hv.1.accepts_goOn hstep).trans hv.2⟩)
      ⟨hfirst, Nat.le_refl _⟩ hown
  have hsame : t.accepts = s.accepts := by
    cases moves_of_next hstop with
    | stop | stopNone => rfl
  have hone : t.pc.room ≤ 1 := by cases t.pc <;> simp [AcceptorPc.room]
  refine ⟨by omega, hstopping.returned, ?_, fun hout => ?_⟩
  · rintro ⟨ns, v, hns, hidle⟩ hout
    obtain ⟨hv, houtv⟩ := exec_invariant (I := fun v => Stopping v ∧ ShutOut v)
      (fun _ _ _ hv hstep => ⟨hv.1.goOn hstep, hv.1.shutOut_goOn hv.2 hstep⟩)
      ⟨hstopping, hout⟩ hns
    exact hv.not_idle houtv hidle
  · obtain ⟨ns, v, hgo, -, hidle⟩ := exec_reaches (I := fun v => Stopping v ∧ ¬ ShutOut v)
      (G := fun v => v.owner = .idle) (fun v => v.pc.load + v.owner.load)
      (fun _ hv => hv.1.goesOn hv.2) ⟨hstopping, hout⟩
    exact ⟨ns, v, hgo, hidle⟩

/-- `Stop` is called before the thread has come to anything, and one connection comes in after;
or the thread has found `m_Sync1` created, and `Stop` waits for good. -/
theorem stop_ends_early :
    ∃ s t u w, exec next (new (some twoClients) 2) [.start, .owner, .owner] = some s ∧
      s.next .stop = some t ∧
      exec goOn t (List.replicate 4 (.thread goodAnswers)) = some u ∧ u.accepts = 1 ∧
      u.accepts ≤ s.accepts + 1 ∧ (∃ ns v, exec goOn u ns = some v ∧ v.owner = .idle) ∧
      exec goOn t [.thread goodAnswers, .owner] = some w ∧
      ¬ ∃ ns v, exec goOn w ns = some v ∧ v.owner = .idle := by
  obtain ⟨s, hs⟩ : ∃ s, exec next (new (some twoClients) 2) [.start, .owner, .owner] = some s :=
    ⟨_, rfl⟩
  obtain ⟨t, ht, hrest⟩ := (Option.any_eq_true _ _).mp
    (show (s.next .stop).any (fun t =>
        (exec goOn t (List.replicate 4 (.thread goodAnswers))).any
          (fun u => decide (u.accepts = 1 ∧ u.pc = .testing 0)) &&
        (exec goOn t [.thread goodAnswers, .owner]).any
          (fun w => decide (w.pc = .taking ∧ w.sync1.created = false))) = true by
      cases hs; decide)
  obtain ⟨hleft, hright⟩ := Bool.and_eq_true_iff.mp hrest
  obtain ⟨u, hu, hone⟩ := (Option.any_eq_true _ _).mp hleft
  obtain ⟨w, hw, hout⟩ := (Option.any_eq_true _ _).mp hright
  obtain ⟨hone, htesting⟩ := of_decide_eq_true hone
  have hshut : w.pc = .taking ∧ w.sync1.created = false := of_decide_eq_true hout
  obtain ⟨hmost, -, hends⟩ := stop_ends hs ht hu
  obtain ⟨-, -, hnever⟩ := stop_ends hs ht hw
  have hreturns := hends.mpr fun hout' => by cases htesting.symm.trans hout'.1
  exact ⟨s, t, u, w, hs, ht, hu, hone, hmost, hreturns, hw,
    fun hstuck => hnever.mp hstuck hshut⟩

end AcceptorLife

end ServClient
