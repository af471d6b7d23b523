/-
Every step of a thread pool keeps the three parts of `PoolParts`.

The caller's moves come first, then the workers', then the steps of the queue, which belong
to calls of either.
-/
import ServClient.Proofs.PoolMoves
import ServClient.Proofs.PoolParts

namespace ServClient

open Runs

namespace XLThreadPool

/-! ### What every step keeps -/

/-- What every step of a pool keeps. -/
structure Inv (p : XLThreadPool) : Prop where
  caller : CallerInv p.bCreated p.caller p.jobQueue p.added
  workers : WorkerInv p.threads p.jobQueue.gets p.handled p.worked
  join : JoinInv p.caller p.threads
  fresh : p.caller = .fresh → p = new p.numMaxThread p.bDynamic

theorem inv_new (maxThread : Int) (dynamic : Bool) : Inv (new maxThread dynamic) where
  caller := {
    phase := rfl
    queue := fun hc => by cases hc
    size := fun hc => by cases hc
    ordered := ⟨rfl, Calls.Logged.nil _ _ (by simp [new, QueueRun.ofQueue]),
      Calls.Logged.nil _ _ (by simp [new, QueueRun.ofQueue])⟩
    waits := fun i c hi => by simp [new, QueueRun.ofQueue] at hi
    addedLe := Nat.le_refl 0
    adding := fun _ => rfl
    events := fun i c hi => by simp [new, QueueRun.ofQueue] at hi
    sorted := List.Pairwise.nil }
  workers := WorkerInv.nil
  join := ⟨fun i w hi => by simp [new] at hi, fun i w hi => by simp [new] at hi⟩
  fresh := fun _ => rfl

theorem inv_create (maxThread : Int) (dynamic : Bool) : Inv (new maxThread dynamic).create where
  caller := by
    have hinv : QueueRun.Inv (QueueRun.start eventQueueConfigMaxSize
        (XLEventQueue.multiReader ||| XLEventQueue.multiWriter) : QueueRun PoolEvent) :=
      QueueRun.inv_start _ (by decide)
    exact {
      phase := by cases dynamic <;> rfl
      queue := fun _ => hinv
      size := fun _ => rfl
      ordered := hinv.ordered
      waits := fun i c hi => by simp [create, new, QueueRun.start, QueueRun.ofQueue] at hi
      addedLe := Nat.le_refl 0
      adding := fun _ => rfl
      events := fun i c hi => by simp [create, new, QueueRun.start, QueueRun.ofQueue] at hi
      sorted := List.Pairwise.nil }
  workers := WorkerInv.nil
  join := ⟨fun i w hi => by simp [create, new] at hi, fun i w hi => by simp [create, new] at hi⟩
  fresh := fun hc => by cases dynamic <;> cases hc

/-! ### The caller

What the caller keeps, place by place.  Its calls of `Put` are its own: no worker puts anything.
-/

section Caller

variable {p : XLThreadPool} {pc : CallerPc} {k : Nat} {w : XLThWorkThread}

theorem Inv.callerAt (h : Inv p) (hc : p.caller = pc) :
    CallerInv p.bCreated pc p.jobQueue p.added := hc ▸ h.caller

theorem Inv.joinAt (h : Inv p) (hc : p.caller = pc) : JoinInv pc p.threads := hc ▸ h.join

/-- The caller goes from one place to another, and neither is in a `Put` or joins anybody. -/
theorem Inv.goOn (h : Inv p) (hc : p.caller = pc) {caller' : CallerPc}
    (hactive : caller'.active = pc.active) (hleave : caller'.leaving = false → pc.leaving = false)
    (hjoin : ∀ i, caller'.hasJoined i = pc.hasJoined i)
    (hlaunch : ∀ i resume, pc ≠ .launching i .spawned resume)
    (hall : CallerInv.Returned p.jobQueue) (hfresh : caller' ≠ .fresh) :
    Inv { p with caller := caller' } where
  caller := (h.callerAt hc).move hactive hleave hall
  workers := h.workers
  join := (h.joinAt hc).move hjoin hlaunch
  fresh := fun hf => absurd hf hfresh

/-- A caller between calls, or between two workers of `Create`, adds a worker. -/
theorem Inv.launch (h : Inv p) (hc : p.caller = pc) (hactive : pc.active = true)
    (hleave : pc.leaving = false) (hput : pc.inPut = false)
    (hlaunch : ∀ i resume, pc ≠ .launching i .spawned resume) (resume : Resume) :
    Inv (p.launch resume) where
  caller := (h.callerAt hc).move hactive.symm (fun _ => hleave) ((h.callerAt hc).returned hput)
  workers := h.workers.spawn
  join := by
    have hjoin := h.joinAt hc
    refine ⟨fun i w _ hj => (by cases hj), Calls.forall_concat (Or.inr (Or.inr ⟨resume, rfl⟩))
      fun i w hi => ?_⟩
    rcases hjoin.handle i w hi with hw | hj | ⟨r, hr⟩
    · exact Or.inl hw
    · rw [CallerPc.hasJoined_eq_false hleave] at hj
      cases hj
    · exact absurd hr (hlaunch i r)
  fresh := fun hf => by cases hf

theorem Inv.putJob (h : Inv p) (hc : p.caller = pc) (hactive : pc.active = true)
    (hleave : pc.leaving = false) (hput : pc.inPut = false)
    (hlaunch : ∀ i resume, pc ≠ .launching i .spawned resume) (job : UInt64) :
    Inv (p.putJob job) where
  caller := (h.callerAt hc).putJob hactive hleave hput job
  workers := h.workers
  join := (h.joinAt hc).move (fun i => (CallerPc.hasJoined_eq_false hleave i).symm) hlaunch
  fresh := fun hf => by cases hf

theorem Inv.addJob (h : Inv p) (hc : p.caller = .idle) (job : UInt64) : Inv (p.addJob job) := by
  have hput := h.putJob hc rfl rfl rfl nofun job
  unfold XLThreadPool.addJob
  split
  · split
    · split
      · exact h.launch hc rfl rfl rfl nofun _
      · exact hput
    · exact hput
  · exact h

theorem Inv.returned_of_putReturned (h : Inv p) (hret : p.putReturned = true) :
    CallerInv.Returned p.jobQueue := by
  unfold putReturned at hret
  split at hret
  · rename_i e b hlast
    exact h.caller.returned_of_last ⟨e, b, hlast⟩
  · cases hret

theorem Inv.handled (h : Inv p) {resume : Resume}
    (hc : p.caller = .launching k .spawned resume) (hk : p.threads[k]? = some w) :
    Inv { p.setWorker k { w with handle := true } with
      caller := .launching k .handled resume } where
  caller := (h.callerAt hc).move rfl (fun _ => rfl) ((h.callerAt hc).returned rfl)
  workers := h.workers.setSame hk rfl rfl rfl
  join := by
    refine ⟨fun i c _ hj => (by cases hj), Calls.forall_set hk (Or.inl rfl) fun i c hne hi => ?_⟩
    rcases (h.joinAt hc).handle i c hi with hw | hj | ⟨r, hr⟩
    · exact Or.inl hw
    · cases hj
    · cases hr
      exact absurd rfl hne
  fresh := fun hf => by cases hf

theorem Inv.setAllocator (h : Inv p) (hk : p.threads[k]? = some w) (hfresh : p.caller ≠ .fresh) :
    Inv (p.setWorker k { w with allocator := true }) where
  caller := h.caller
  workers := h.workers.setSame hk rfl rfl rfl
  join := h.join.setWorker hk id rfl
  fresh := fun hf => absurd hf hfresh

theorem Inv.putExit (h : Inv p) (hc : p.caller = .exiting k) :
    Inv { p with
      jobQueue := p.jobQueue.callPut (exitEvent p.jobQueue.puts.length)
      caller := .exitPut k } where
  caller := (h.callerAt hc).putExit
  workers := h.workers
  join := (h.joinAt hc).move (fun _ => rfl) nofun
  fresh := fun hf => by cases hf

theorem Inv.putAll (h : Inv p) (hc : p.caller = .exiting k) :
    Inv { p with caller := .joining 0 } :=
  h.goOn hc rfl nofun (fun i => by simp [CallerPc.hasJoined]) nofun
    ((h.callerAt hc).returned rfl) nofun

/-- `join` on worker `k` has returned, so it has ended. -/
theorem Inv.joined (h : Inv p) (hc : p.caller = .waiting k) (hk : p.threads[k]? = some w)
    (hended : w.pc = .ended) :
    Inv { p.setWorker k { w with handle := false } with caller := .joining (k + 1) } where
  caller := (h.callerAt hc).move rfl nofun ((h.callerAt hc).returned rfl)
  workers := h.workers.setSame hk rfl rfl rfl
  join := by
    refine ⟨Calls.forall_set hk (fun _ => hended) fun i c hne hi hj => ?_,
      Calls.forall_set hk (Or.inr (Or.inl (by simp [CallerPc.hasJoined]))) fun i c hne hi => ?_⟩
    · refine (h.joinAt hc).ended i c hi ?_
      rw [CallerPc.hasJoined, decide_eq_true_eq] at hj
      rw [CallerPc.hasJoined, decide_eq_true_eq]
      omega
    · rcases (h.joinAt hc).handle i c hi with hw | hj | ⟨r, hr⟩
      · exact Or.inl hw
      · rw [CallerPc.hasJoined, decide_eq_true_eq] at hj
        exact Or.inr (Or.inl (by rw [CallerPc.hasJoined, decide_eq_true_eq]; omega))
      · cases hr
  fresh := fun hf => by cases hf

theorem Inv.joinedAll (h : Inv p) (hc : p.caller = .joining k) (hk : p.threads[k]? = none) :
    Inv { p with
      jobQueue := { p.jobQueue with queue := p.jobQueue.queue.destroy }
      bCreated := false
      caller := .destroyed } where
  caller := (h.callerAt hc).destroy
  workers := h.workers
  join := by
    have hlen : p.threads.length ≤ k := List.getElem?_eq_none_iff.mp hk
    refine ⟨fun i w hi _ => (h.joinAt hc).ended i w hi ?_, fun i w _ => Or.inr (Or.inl rfl)⟩
    have hlt : i < p.threads.length := Calls.lt_of_getElem?_eq_some hi
    rw [CallerPc.hasJoined, decide_eq_true_eq]
    omega
  fresh := fun hf => by cases hf

theorem Inv.callerMoves {p' : XLThreadPool} (h : Inv p) (hm : CallerMoves p p') : Inv p' := by
  cases hm with
  | launch hc hmore => exact h.launch hc rfl rfl rfl nofun _
  | launchedAll hc hall =>
      exact h.goOn hc rfl (fun _ => rfl) (fun _ => rfl) nofun ((h.callerAt hc).returned rfl) nofun
  | handled hc hk => exact h.handled hc hk
  | @given k resume w hc hk =>
      have hcaller := h.callerAt hc
      have hjoin : JoinInv (.launching k .given resume) p.threads :=
        (h.joinAt hc).move (fun _ => rfl) nofun
      refine ⟨hcaller.move rfl (fun _ => rfl) (hcaller.returned rfl),
        h.workers.setSame hk rfl rfl rfl, ?_, fun hf => by cases hf⟩
      exact hjoin.setWorker hk (fun hended => hended) (by rfl)
  | launched hc hk =>
      have hset := h.setAllocator hk (by rw [hc]; nofun)
      exact hset.goOn hc rfl (fun _ => rfl) (fun _ => rfl) nofun
        ((h.callerAt hc).returned rfl) nofun
  | launchedForJob hc hk =>
      have hset := h.setAllocator hk (by rw [hc]; nofun)
      exact hset.putJob hc rfl rfl rfl nofun _
  | added hc hret =>
      exact h.goOn hc rfl (fun _ => rfl) (fun _ => rfl) nofun (h.returned_of_putReturned hret) nofun
  | putExit hc hmore => exact h.putExit hc
  | putAll hc hall => exact h.putAll hc
  | exitPut hc hret =>
      exact h.goOn hc rfl nofun (fun _ => rfl) nofun (h.returned_of_putReturned hret) nofun
  | @join k w sync2 hc hk hhandle hsync =>
      have hcaller := h.callerAt hc
      have hjoin : JoinInv (.waiting k) p.threads := (h.joinAt hc).move (fun _ => rfl) nofun
      refine ⟨hcaller.move rfl nofun (hcaller.returned rfl), h.workers.setSame hk rfl rfl rfl,
        ?_, fun hf => by cases hf⟩
      exact hjoin.setWorker hk (fun hended => hended) (by rfl)
  | skip hc hk hhandle =>
      -- Every worker got its handle when it was launched.
      rcases (h.joinAt hc).handle _ _ hk with hw | hj | ⟨r, hr⟩
      · exact absurd hw hhandle
      · simp [CallerPc.hasJoined] at hj
      · cases hr
  | joined hc hk hended => exact h.joined hc hk hended
  | joinedAll hc hk => exact h.joinedAll hc hk

end Caller

/-! ### The workers -/

theorem Inv.not_fresh {p : XLThreadPool} (h : Inv p) {k : Nat} {w : XLThWorkThread}
    (hk : p.threads[k]? = some w) : p.caller ≠ .fresh := by
  intro hc
  rw [h.fresh hc] at hk
  simp [new] at hk

/-- As long as a worker has not ended the pool is created. -/
theorem Inv.created {p : XLThreadPool} (h : Inv p) {k : Nat} {w : XLThWorkThread}
    (hk : p.threads[k]? = some w) (hpc : w.pc ≠ .ended) : p.bCreated = true := by
  have hfresh := h.not_fresh hk
  rw [h.caller.phase]
  cases hc : p.caller with
  | fresh => exact absurd hc hfresh
  | destroyed => exact absurd (h.join.ended k w hk (by rw [hc]; rfl)) hpc
  | _ => rfl

/-- A worker that has not ended moves and keeps the call it has. -/
theorem Inv.moveWorker {p : XLThreadPool} (h : Inv p) {k : Nat} {w w' : XLThWorkThread}
    (hk : p.threads[k]? = some w) (hpc : w.pc ≠ .ended) (hhandle : w'.handle = w.handle)
    (hcur : w'.pc.current = w.pc.current)
    (hhand : ∀ j, w'.pc = .handling j → p.jobQueue.gets[j]? = some ⟨.returned true, some w'.e⟩)
    (hnot : (w'.pc = .started ∨ w'.pc = .synced) → w'.entered = false)
    (hexit : w'.entered = true → (w'.pc = .leaving ∨ w'.pc = .ended) →
      ∃ r ∈ p.handled, r.2.event.iType = threadPoolEventExit) : Inv (p.setWorker k w') where
  caller := h.caller
  workers := h.workers.move hk hcur hhand hnot hexit
  join := h.join.setWorker hk (fun hc => absurd hc hpc) hhandle
  fresh := fun hf => absurd hf (h.not_fresh hk)

theorem handleEvent_eq (p : XLThreadPool) (k : Nat) (w : XLThWorkThread) (j : Nat) :
    ∃ w', p.handleEvent k w j =
        { p with
          threads := p.threads.set k w'
          handled := p.handled ++ [(j, w.e)]
          worked := p.worked ++ (workOf (j, w.e)).toList } ∧
      (w'.handle = w.handle ∧ w'.entered = w.entered) ∧ w'.pc.current = none ∧
      (w'.pc ≠ .started ∧ w'.pc ≠ .synced) ∧
      (w'.pc = .leaving ∨ w'.pc = .ended ↔ w.e.event.iType = threadPoolEventExit) := by
  unfold handleEvent workOf
  by_cases hexit : w.e.event.iType = threadPoolEventExit
  · exact ⟨{ w with pc := .leaving }, by simp [hexit, setWorker], ⟨rfl, rfl⟩, rfl, by simp,
      by simp [hexit]⟩
  · cases hjob : jobOf w.e.event with
    | none =>
        exact ⟨{ w with e := { w.e with event := w.e.event.reset }, pc := .looping },
          by simp [hexit, setWorker], ⟨rfl, rfl⟩, rfl, by simp, by simp [hexit]⟩
    | some job =>
        by_cases hnull : job ≠ 0
        · exact ⟨{ w with pc := .working }, by simp [hexit, hnull, setWorker], ⟨rfl, rfl⟩, rfl,
            by simp, by simp [hexit]⟩
        · exact ⟨{ w with e := { w.e with event := w.e.event.reset }, pc := .looping },
            by simp [hexit, hnull, setWorker], ⟨rfl, rfl⟩, rfl, by simp, by simp [hexit]⟩

theorem Inv.handleEvent {p : XLThreadPool} (h : Inv p) {k j : Nat} {w : XLThWorkThread}
    (hk : p.threads[k]? = some w) (hpc : w.pc = .handling j) : Inv (p.handleEvent k w j) := by
  obtain ⟨w', heq, ⟨hhandle, -⟩, hcur, hnot, hexit⟩ := handleEvent_eq p k w j
  rw [heq]
  exact ⟨h.caller, h.workers.handle hk hpc hcur hnot hexit.mp,
    h.join.setWorker hk (fun hc => by rw [hpc] at hc; cases hc) hhandle,
    fun hf => absurd hf (h.not_fresh hk)⟩

theorem Inv.workerMoves {p p' : XLThreadPool} {k : Nat} (h : Inv p) (hm : WorkerMoves p k p') :
    Inv p' := by
  cases hm with
  | @sync w sync1 hk hpc hsync =>
      exact h.moveWorker hk (by simp [hpc]) rfl (by rw [hpc]; rfl) nofun
        (fun _ => h.workers.notYet k w hk (Or.inl hpc)) (by simp)
  | @look w hk hpc =>
      have hent := h.workers.notYet k w hk (Or.inr hpc)
      refine h.moveWorker hk (by simp [hpc]) rfl ?_ (fun j hj => ?_) (fun _ => hent)
        (fun hc => by rw [show w.entered = true from hc] at hent; cases hent)
      · rw [hpc]
        dsimp only
        split <;> rfl
      · dsimp only at hj
        split at hj <;> cases hj
  | callGet hk hpc halloc hcreated =>
      have hqueue := (h.caller.queue hcreated).live.created
      refine ⟨h.caller.callGet hcreated, ?_,
        h.join.setWorker hk (fun hc => by rw [hpc] at hc; cases hc) rfl,
        fun hf => absurd hf (h.not_fresh hk)⟩
      refine h.workers.callGet hk (by rw [hpc]; rfl) (fun b => ?_) rfl
      rw [hqueue]
      simp
  | noQueue hk hpc halloc hcreated => exact absurd (h.created hk (by simp [hpc])) hcreated
  | fault hk hpc halloc =>
      exact ⟨h.caller, h.workers, h.join, fun hf => absurd hf (h.not_fresh hk)⟩
  | got hk hpc hj =>
      obtain ⟨e, rfl⟩ := h.caller.ordered.out_some hj rfl
      refine h.moveWorker hk (by simp [hpc]) rfl (by rw [hpc]; rfl) (fun i hi => ?_) (by simp)
        (by simp)
      cases hi
      exact hj
  | gotNone hk hpc hj => exact absurd rfl (h.workers.getsTrue _ _ hj)
  | handle hk hpc => exact h.handleEvent hk hpc
  | worked hk hpc =>
      exact h.moveWorker hk (by simp [hpc]) rfl (by rw [hpc]; rfl) nofun (by simp) (by simp)
  | @leave w hk hpc =>
      exact h.moveWorker hk (by simp [hpc]) rfl (by rw [hpc]; rfl) nofun (by simp)
        (fun hent _ => h.workers.exited k w hk hent (Or.inl hpc))

/-! ### All steps -/

/-- Every worker has ended, so every `Get` has returned and its event has been acted on. -/
theorem Inv.get_handled {p : XLThreadPool} (h : Inv p) (hcreated : ¬ p.bCreated = true) {j : Nat}
    (hj : j < p.jobQueue.gets.length) : ∃ e, (j, e) ∈ p.handled := by
  have hcount := h.workers.current j
  rw [if_pos hj] at hcount
  have hnone : p.threads.countP (has j) = 0 := by
    refine Calls.countP_eq_zero fun k w hk => ?_
    by_cases hpc : w.pc = .ended
    · simp [has, hpc, WorkerPc.current]
    · exact absurd (h.created hk hpc) hcreated
  have hmem : j ∈ p.handled.map Prod.fst := List.count_pos_iff.mp (by omega)
  obtain ⟨⟨i, e⟩, hr, rfl⟩ := List.mem_map.mp hmem
  exact ⟨e, hr⟩

/-- Before `Create` there are no calls on the queue, and after `Destroy` all have returned. -/
theorem Inv.queue_quiet {p : XLThreadPool} (h : Inv p) (hcreated : ¬ p.bCreated = true)
    {l : QueueStep PoolEvent} (hl : l.inside = true) : p.jobQueue.next l = none := by
  have hput : p.caller.inPut = false := by
    rw [h.caller.phase] at hcreated
    cases hc : p.caller <;> rw [hc] at hcreated <;> first | rfl | exact absurd rfl hcreated
  refine QueueRun.next_eq_none hl (h.caller.returned hput) fun j g hj => ?_
  obtain ⟨e, hr⟩ := h.get_handled hcreated (Calls.lt_of_getElem?_eq_some hj)
  have := h.workers.kept j e hr
  rw [hj, Option.some.injEq] at this
  exact ⟨true, by rw [this]⟩

theorem Inv.queueStep {p : XLThreadPool} {run : QueueRun PoolEvent} {l : QueueStep PoolEvent}
    (h : Inv p) (hl : l.inside = true) (hstep : p.jobQueue.next l = some run) :
    Inv { p with jobQueue := run } := by
  by_cases hcreated : p.bCreated = true
  · have hqueue := h.caller.queue hcreated
    have hcont := QueueRun.continues_next hqueue hstep hl
    refine ⟨h.caller.continues (QueueRun.inv_step hqueue hstep) hcont,
      h.workers.continues hcont.getsLength hcont.gets hcont.getsReturned, h.join, fun hf => ?_⟩
    rw [h.caller.phase, show p.caller = .fresh from hf] at hcreated
    cases hcreated
  · rw [h.queue_quiet hcreated hl] at hstep
    cases hstep

/-- A created pool whose caller is in no call. -/
theorem Inv.idle {p : XLThreadPool} (h : Inv p) (hcreated : p.bCreated = true)
    (hc : p.caller = .fresh ∨ p.caller = .idle ∨ p.caller = .destroyed) : p.caller = .idle := by
  rw [h.caller.phase] at hcreated
  rcases hc with hc | hc | hc
  · rw [hc] at hcreated
    cases hcreated
  · exact hc
  · rw [hc] at hcreated
    cases hcreated

theorem inv_next {p p' : XLThreadPool} {l : PoolStep} (h : Inv p) (hstep : p.next l = some p') :
    Inv p' := by
  cases moves_of_next hstep with
  | create hc =>
      rcases hc with hc | hc
      · rw [h.fresh hc]
        exact inv_create _ _
      · rw [create, if_pos (by rw [h.caller.phase, hc]; rfl)]
        exact h
  | addJob job hc =>
      by_cases hcreated : p.bCreated = true
      · exact h.addJob (h.idle hcreated hc) job
      · rw [XLThreadPool.addJob, if_neg hcreated]
        exact h
  | destroy hc hcreated =>
      have hidle := h.idle hcreated hc
      exact h.goOn hidle rfl nofun (fun _ => rfl) nofun ((h.callerAt hidle).returned rfl) nofun
  | destroyNone hc hcreated => exact h
  | caller hm => exact h.callerMoves hm
  | worker hm => exact h.workerMoves hm
  | queue hl hrun => exact h.queueStep hl hrun

theorem inv_exec {p p' : XLThreadPool} {ls : List PoolStep} (h : Inv p)
    (hrun : exec next p ls = some p') : Inv p' :=
  exec_invariant (I := Inv) (fun _ _ _ hu hstep => inv_next hu hstep) h hrun

end XLThreadPool

end ServClient
