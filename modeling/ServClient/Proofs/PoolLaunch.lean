/-
What a worker finds in `m_Allocator`.

`XLThWorkThread::Create` assigns it last, when the new thread has been let go.  So it is null
as long as the caller is in that call, and the worker may be through its gate by then.
-/
import ServClient.Proofs.PoolLives

namespace ServClient

open Runs

namespace XLThreadPool

variable {p p' : XLThreadPool} {k : Nat}

/-- The caller is in the `Create` of worker `k`. -/
def Launching (p : XLThreadPool) (k : Nat) : Prop :=
  ∃ stage resume, p.caller = .launching k stage resume

/-- The workers whose `Create` has returned have their allocator, and no other. -/
def Assigned (p : XLThreadPool) : Prop :=
  ∀ (k : Nat) (w : XLThWorkThread), p.threads[k]? = some w →
    (w.allocator = true ↔ ¬p.Launching k)

theorem not_launching (h : ∀ k stage resume, p.caller ≠ .launching k stage resume) (k : Nat) :
    ¬p.Launching k := by
  rintro ⟨stage, resume, hc⟩
  exact h k stage resume hc

/-- No worker is being created before or after. -/
theorem Assigned.of_threads (h : Assigned p)
    (hbefore : ∀ k stage resume, p.caller ≠ .launching k stage resume)
    (hafter : ∀ k stage resume, p'.caller ≠ .launching k stage resume)
    (hthreads : p'.threads = p.threads) : Assigned p' := by
  intro k w hk
  rw [hthreads] at hk
  exact iff_of_true ((h k w hk).mpr (not_launching hbefore k)) (not_launching hafter k)

theorem Assigned.launch (h : Assigned p)
    (hbefore : ∀ k stage resume, p.caller ≠ .launching k stage resume) (resume : Resume) :
    Assigned (p.launch resume) := by
  refine Calls.forall_concat ?_ fun k w hk => ?_
  · exact iff_of_false (by decide) (not_not_intro ⟨_, _, rfl⟩)
  · refine iff_of_true ((h k w hk).mpr (not_launching hbefore k)) ?_
    rintro ⟨stage, resume', hc⟩
    have hlt := Calls.lt_of_getElem?_eq_some hk
    simp only [XLThreadPool.launch, CallerPc.launching.injEq] at hc
    omega

/-- One worker changes, and not its allocator. -/
theorem Assigned.set (h : Assigned p) {w w' : XLThWorkThread} (hk : p.threads[k]? = some w)
    (hthreads : p'.threads = p.threads.set k w') (hw : w'.allocator = w.allocator)
    (hc : ∀ j, p'.Launching j ↔ p.Launching j) : Assigned p' := by
  unfold Assigned
  rw [hthreads]
  refine Calls.forall_set hk ?_ fun j c _ hj => ?_
  · rw [hw, hc]
    exact h k w hk
  · rw [hc]
    exact h j c hj

/-- The worker that is being created changes. -/
theorem Assigned.goOn (h : Assigned p) {stage stage' : LaunchStage} {resume : Resume}
    {w w' : XLThWorkThread} (hc : p.caller = .launching k stage resume)
    (hk : p.threads[k]? = some w) (hthreads : p'.threads = p.threads.set k w')
    (hw : w'.allocator = w.allocator) (hc' : p'.caller = .launching k stage' resume) :
    Assigned p' := by
  refine h.set hk hthreads hw fun j => ?_
  simp only [Launching, hc, hc', CallerPc.launching.injEq]
  constructor <;> rintro ⟨_, _, rfl, -⟩ <;> exact ⟨_, _, rfl, rfl, rfl⟩

/-- The last assignment of `Create`. -/
theorem Assigned.launched (h : Assigned p) {stage : LaunchStage} {resume : Resume}
    {w : XLThWorkThread} (hc : p.caller = .launching k stage resume)
    (hk : p.threads[k]? = some w)
    (hthreads : p'.threads = p.threads.set k { w with allocator := true })
    (hc' : ∀ k stage resume, p'.caller ≠ .launching k stage resume) : Assigned p' := by
  unfold Assigned
  rw [hthreads]
  refine Calls.forall_set hk (iff_of_true rfl (not_launching hc' k)) fun j c hne hj => ?_
  refine iff_of_true ((h j c hj).mpr ?_) (not_launching hc' j)
  rintro ⟨stage', resume', hother⟩
  rw [hc, CallerPc.launching.injEq] at hother
  exact hne hother.1.symm

theorem CallerMoves.assigned (hm : CallerMoves p p') (h : Assigned p) : Assigned p' := by
  cases hm with
  | launch hc => exact h.launch (by simp [hc]) .create
  | launchedAll hc | added hc | putExit hc | putAll hc | exitPut hc | joinedAll hc =>
      exact h.of_threads (by simp [hc]) (by simp) rfl
  | skip hc => exact h.of_threads (by simp [hc]) (by simp) rfl
  | handled hc hk => exact h.goOn hc hk rfl rfl rfl
  | given hc hk => exact h.goOn hc hk rfl rfl rfl
  | launched hc hk => exact h.launched hc hk rfl (by simp)
  | launchedForJob hc hk => exact h.launched hc hk rfl (by simp [putJob])
  | join hc hk | joined hc hk =>
      refine h.set hk rfl rfl fun j => iff_of_false ?_ ?_
      · exact not_launching (by simp) j
      · exact not_launching (by simp [hc]) j

/-- A worker does not touch an allocator. -/
theorem WorkerMoves.allocator (hm : WorkerMoves p k p') :
    ∃ w w', p.threads[k]? = some w ∧ p'.threads = p.threads.set k w' ∧
      w'.allocator = w.allocator := by
  cases hm with
  | sync hk | look hk | callGet hk | noQueue hk | got hk | gotNone hk | worked hk | leave hk =>
      exact ⟨_, _, hk, rfl, rfl⟩
  | fault hk =>
      obtain ⟨hlt, rfl⟩ := List.getElem?_eq_some_iff.mp hk
      exact ⟨_, _, hk, (List.set_getElem_self hlt).symm, rfl⟩
  | @handle w j hk hpc =>
      unfold handleEvent
      split
      · exact ⟨_, _, hk, rfl, rfl⟩
      · split
        · split
          · exact ⟨_, _, hk, rfl, rfl⟩
          · exact ⟨_, _, hk, rfl, rfl⟩
        · exact ⟨_, _, hk, rfl, rfl⟩

theorem WorkerMoves.assigned (hm : WorkerMoves p k p') (h : Assigned p) : Assigned p' := by
  obtain ⟨w, w', hk, hthreads, hw⟩ := hm.allocator
  refine h.set hk hthreads hw fun j => ?_
  rw [Launching, hm.rest.1]
  rfl

theorem WorkerMoves.fault_iff (hm : WorkerMoves p k p') (hfault : p.fault = false) :
    p'.fault = true ↔
      ∃ w, p.threads[k]? = some w ∧ w.pc = .looping ∧ w.allocator = false := by
  cases hm with
  | fault hk hpc halloc => exact iff_of_true rfl ⟨_, hk, hpc, Bool.not_eq_true _ ▸ halloc⟩
  | callGet hk hpc halloc | noQueue hk hpc halloc =>
      refine iff_of_false (by simp [setWorker, hfault]) ?_
      rintro ⟨w', hk', -, hnull⟩
      cases hk.symm.trans hk'
      rw [halloc] at hnull
      cases hnull
  | sync hk hpc | look hk hpc | got hk hpc | gotNone hk hpc | worked hk hpc | leave hk hpc =>
      refine iff_of_false (by simp [setWorker, hfault]) ?_
      rintro ⟨w', hk', hpc', -⟩
      cases hk.symm.trans hk'
      rw [hpc] at hpc'
      cases hpc'
  | @handle w j hk hpc =>
      obtain ⟨w', heq, -⟩ := handleEvent_eq p k w j
      refine iff_of_false (by simp [heq, hfault]) ?_
      rintro ⟨w', hk', hpc', -⟩
      cases hk.symm.trans hk'
      rw [hpc] at hpc'
      cases hpc'

theorem CallerMoves.fault (hm : CallerMoves p p') : p'.fault = p.fault := by
  cases hm <;> rfl

end XLThreadPool

namespace PoolLives

variable {s s' : PoolLives} {l : PoolStep}

/-! ### Every interleaving

A worker runs as soon as its thread is started, and `m_Allocator` is assigned later.  Nothing makes
the one wait for the other.
-/

/-- No worker has called `GetEvent` through a null `m_Allocator`. -/
def NoFault (s : PoolLives) : Prop := s.pool.fault = false

/-- If a worker calls `GetEvent` in this step, its `Create` has returned. -/
def LaunchedFirst (s : PoolLives) : PoolStep → Prop
  | .worker k => ∀ w ∈ s.pool.threads[k]?, w.pc = .looping → ¬s.pool.Launching k
  | _ => True

theorem Moves.assigned (hm : Moves s l s') (h : s.pool.Assigned) : s'.pool.Assigned := by
  cases hm with
  | born hc hcreated =>
      intro k w hk
      simp [XLThreadPool.create, XLThreadPool.new] at hk
  | bornAlready | addJobNone | destroyNone | pass => exact h
  | startForJob job hc =>
      exact h.launch (by rcases hc with hc | hc | hc <;> simp [hc]) (.addJob job)
  | addJob job hc | destroy hc =>
      exact h.of_threads (by rcases hc with hc | hc | hc <;> simp [hc])
        (by simp [XLThreadPool.putJob]) rfl
  | putExit hc | putAll hc => exact h.of_threads (by simp [hc]) (by simp [setCaller]) rfl
  | caller hexit hjoin hm => exact hm.assigned h
  | worker hm => exact hm.assigned h
  | queue => exact h

theorem Moves.fault_iff (hm : Moves s l s') (h : s.pool.Assigned) (hfault : NoFault s) :
    NoFault s' ↔ LaunchedFirst s l := by
  cases hm with
  | @worker k p hm =>
      have hiff := hm.fault_iff hfault
      constructor
      · intro hno w hk hpc hlaunching
        have halloc : w.allocator = false := by
          by_contra htrue
          exact (h k w hk).mp (by simpa using htrue) hlaunching
        have hyes : p.fault = true := hiff.mpr ⟨w, hk, hpc, halloc⟩
        rw [NoFault, hyes] at hno
        cases hno
      · intro hfirst
        show p.fault = false
        by_contra hyes
        obtain ⟨w, hk, hpc, halloc⟩ := hiff.mp (by simpa using hyes)
        have htrue := (h k w hk).mpr (hfirst w hk hpc)
        rw [halloc] at htrue
        cases htrue
  | caller hexit hjoin hm => exact iff_of_true (hm.fault.trans hfault) trivial
  | born => exact iff_of_true rfl trivial
  | bornAlready | startForJob | addJob | addJobNone | putExit | putAll | pass | destroy
  | destroyNone | queue => exact iff_of_true hfault trivial

theorem noFault_iff {maxThread : Int} {dynamic : Bool} {ls : List PoolStep}
    (hrun : exec next (new maxThread dynamic) ls = some s) :
    Throughout next NoFault (new maxThread dynamic) ls ↔
      Along next LaunchedFirst (new maxThread dynamic) ls := by
  refine throughout_iff_along (I := fun u => u.pool.Assigned ∧ NoFault u) (fun u hu => hu.2)
    (fun u l v hu hl hstep => ?_) (fun u l v hu hl hstep => ?_) ⟨fun k w hk => ?_, rfl⟩ hrun
  · have hm := moves_of_next hstep
    exact ⟨hm.assigned hu.1, (hm.fault_iff hu.1 hu.2).mpr hl⟩
  · exact mt ((moves_of_next hstep).fault_iff hu.1 hu.2).mp hl
  · simp [new, XLThreadPool.new] at hk

/-! ### Which pools are safe -/

/-- No worker has ever been started, and none will be. -/
structure Empty (s : PoolLives) : Prop where
  threadList : s.threadList = []
  numMaxThread : s.pool.numMaxThread ≤ 0
  noFault : NoFault s

theorem Empty.threads (h : Empty s) : s.pool.threads = [] :=
  (List.append_eq_nil_iff.mp h.threadList).2

theorem Empty.callerMoves (h : Empty s) {p : XLThreadPool}
    (hm : XLThreadPool.CallerMoves s.pool p) : Empty { s with pool := p } := by
  have hthreads := h.threads
  have hlist := h.threadList
  have hmax := h.numMaxThread
  cases hm with
  | launch hc hmore =>
      rw [hthreads] at hmore
      exact absurd hmax (Int.not_le.mpr hmore)
  | handled hc hk | given hc hk | launched hc hk | launchedForJob hc hk | join hc hk | skip hc hk
  | joined hc hk =>
      rw [hthreads] at hk
      cases hk
  | launchedAll | added | putExit | putAll | exitPut | joinedAll =>
      exact ⟨hlist, hmax, h.noFault⟩

theorem Moves.empty (hm : Moves s l s') (h : Empty s) : Empty s' := by
  have hlist := h.threadList
  have hmax := h.numMaxThread
  cases hm with
  | born hc hcreated =>
      have hpool : (XLThreadPool.new s.pool.numMaxThread s.pool.bDynamic).create.threads = [] := rfl
      exact ⟨by rw [threadList, hlist, hpool]; rfl, hmax, rfl⟩
  | startForJob job hc hcreated hstart =>
      have hlt := hstart.2.2
      rw [hlist] at hlt
      exact absurd hmax (Int.not_le.mpr hlt)
  | bornAlready | addJobNone | destroyNone | destroy | pass | putAll | addJob | putExit | queue =>
      exact ⟨hlist, hmax, h.noFault⟩
  | caller hexit hjoin hm => exact h.callerMoves hm
  | worker hm =>
      obtain ⟨w, w', hk, -⟩ := hm.allocator
      rw [h.threads] at hk
      cases hk

/-- The worker is through its gate and in its loop before the caller has assigned its
allocator. -/
theorem exec_fault {maxThread : Int} (hint : IsInt maxThread) (hpos : 0 < maxThread)
    (dynamic : Bool) :
    ∃ ls s, exec next (new maxThread dynamic) ls = some s ∧ s.pool.fault = true := by
  have hmax := hint.2
  have hsize : 0 < maxThread % 18446744073709551616 := by omega
  cases dynamic with
  | false =>
      refine ⟨[.create, .caller, .caller, .worker 0, .worker 0, .worker 0], ?_⟩
      simp [exec_cons, next, new, create, XLThreadPool.new, XLThreadPool.create, callerStep,
        XLThreadPool.callerStep, hpos, XLThreadPool.launch, XLThreadPool.setWorker,
        XLThreadPool.next, XLThreadPool.workerStep, XLThWorkThread.spawned, XLSemaPhore.create,
        XLSemaPhore.new, XLSemaPhore.take, XLSemaPhore.Passes]
  | true =>
      refine ⟨[.create, .addJob 1, .caller, .worker 0, .worker 0, .worker 0], ?_⟩
      simp [exec_cons, next, new, create, XLThreadPool.new, XLThreadPool.create, addJob,
        threadList, callerStep, XLThreadPool.callerStep, hpos, hsize, XLThreadPool.launch,
        XLThreadPool.setWorker, XLThreadPool.next, XLThreadPool.workerStep,
        XLThWorkThread.spawned, XLSemaPhore.create, XLSemaPhore.new, XLSemaPhore.take,
        XLSemaPhore.Passes]

/--
A run has no call through a null `m_Allocator` if and only if every worker calls `GetEvent` after
its `Create` has returned.  Nothing sees to that: the pools all of whose runs are safe are those
that never start a worker.
-/
theorem workers_allocated_iff {maxThread : Int} (hint : IsInt maxThread) (dynamic : Bool) :
    (∀ ls s, exec next (new maxThread dynamic) ls = some s →
        (Throughout next NoFault (new maxThread dynamic) ls ↔
          Along next LaunchedFirst (new maxThread dynamic) ls)) ∧
      ((∀ ls s, exec next (new maxThread dynamic) ls = some s → NoFault s) ↔ maxThread ≤ 0) := by
  refine ⟨fun ls s hrun => noFault_iff hrun, fun hsafe => ?_, fun hle ls s hrun => ?_⟩
  · by_contra hpos
    obtain ⟨ls, s, hrun, hfault⟩ := exec_fault hint (Int.not_le.mp hpos) dynamic
    have hno := hsafe ls s hrun
    rw [NoFault, hfault] at hno
    cases hno
  · have hempty : Empty (new maxThread dynamic) := ⟨rfl, hle, rfl⟩
    exact (exec_invariant (I := Empty) (fun _ _ _ hu hstep => (moves_of_next hstep).empty hu)
      hempty hrun).noFault

theorem workers_allocated_iff_one :
    (∀ ls s, exec next (new 1 false) ls = some s →
        (Throughout next NoFault (new 1 false) ls ↔ Along next LaunchedFirst (new 1 false) ls)) ∧
      ((∀ ls s, exec next (new 1 false) ls = some s → NoFault s) ↔ (1 : Int) ≤ 0) :=
  workers_allocated_iff (by decide) false

/-- The thread of the worker is in its loop while `m_handle` is all that is assigned. -/
def earlyWorker : List PoolStep := [.create, .caller, .caller, .worker 0, .worker 0, .worker 0]

theorem worker_without_allocator :
    ∃ s, exec next (new 1 false) earlyWorker = some s ∧ ¬NoFault s := by
  have hends : (exec next (new 1 false) earlyWorker).map (fun s => s.pool.fault) = some true := by
    decide
  obtain ⟨s, hs, hfault⟩ := Option.map_eq_some_iff.mp hends
  refine ⟨s, hs, fun hno => ?_⟩
  rw [NoFault, hfault] at hno
  cases hno

end PoolLives

end ServClient
