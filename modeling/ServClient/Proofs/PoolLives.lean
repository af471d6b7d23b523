/-
What a thread pool carries from one life to the next.

`m_ThreadList` is never emptied.  The workers left in it have been joined, so nothing in a
later life runs them again, but they count wherever the size of the list is asked for.  A pool
is as good as new in every life exactly if the list has room for each worker that the life
has to start.
-/
import ServClient.PoolLives
import ServClient.Proofs.JobLoss

namespace ServClient

open Runs

/-! ### Workers that enter their loop -/

namespace XLThWorkThread

/-- It finds `m_handle` and `m_Allocator` assigned where it looks at them. -/
def Enters (w : XLThWorkThread) : Prop :=
  (w.pc = .synced → w.handle = true) ∧ (w.pc = .looping → w.allocator = true)

instance (w : XLThWorkThread) : Decidable w.Enters := inferInstanceAs (Decidable (_ ∧ _))

/-- It has entered its loop or is on the way there. -/
def InLoop (w : XLThWorkThread) : Prop :=
  w.entered = true ∨ w.pc = .started ∨ w.pc = .synced ∨ w.pc = .looping

theorem InLoop.has_entered {w : XLThWorkThread} (h : w.InLoop)
    (hpc : w.pc ≠ .started ∧ w.pc ≠ .synced ∧ w.pc ≠ .looping) : w.entered = true := by
  rcases h with h | h | h | h
  · exact h
  · exact absurd h hpc.1
  · exact absurd h hpc.2.1
  · exact absurd h hpc.2.2

/-- Its thread has been started and has not left `RunProgram`. -/
def running (w : XLThWorkThread) : Bool :=
  w.handle && !decide (w.pc = .leaving) && !decide (w.pc = .ended)

end XLThWorkThread

namespace XLThreadPool

variable {p p' : XLThreadPool} {k : Nat}

/-- A step of a worker changes that worker and no other. -/
theorem WorkerMoves.worker (hm : WorkerMoves p k p') :
    ∃ w w', p.threads[k]? = some w ∧ p'.threads = p.threads.set k w' ∧ w'.handle = w.handle ∧
      (w.Enters → w.InLoop → w'.InLoop) := by
  cases hm with
  | sync hk hpc hsync => exact ⟨_, _, hk, rfl, rfl, fun _ _ => Or.inr (Or.inr (Or.inl rfl))⟩
  | look hk hpc =>
      refine ⟨_, _, hk, rfl, rfl, fun henters _ => Or.inr (Or.inr (Or.inr ?_))⟩
      exact if_pos (henters.1 hpc)
  | callGet hk hpc | noQueue hk hpc => exact ⟨_, _, hk, rfl, rfl, fun _ _ => Or.inl rfl⟩
  | fault hk hpc =>
      obtain ⟨hlt, rfl⟩ := List.getElem?_eq_some_iff.mp hk
      exact ⟨_, _, hk, (List.set_getElem_self hlt).symm, rfl, fun _ hloop => hloop⟩
  | @got w _ _ hk hpc | @gotNone w _ _ hk hpc | @worked w hk hpc | @leave w hk hpc =>
      refine ⟨w, _, hk, rfl, rfl, fun _ hloop => Or.inl ?_⟩
      exact XLThWorkThread.InLoop.has_entered (w := w) hloop (by simp [hpc])
  | @handle w j hk hpc =>
      obtain ⟨w', heq, ⟨hhandle, hentered⟩, -⟩ := handleEvent_eq p k w j
      refine ⟨w, w', hk, by rw [heq], hhandle, fun _ hloop => Or.inl ?_⟩
      rw [hentered]
      exact XLThWorkThread.InLoop.has_entered (w := w) hloop (by simp [hpc])

theorem WorkerMoves.rest (hm : WorkerMoves p k p') :
    p'.caller = p.caller ∧ p'.added = p.added ∧ p'.bDynamic = p.bDynamic ∧
      p'.numMaxThread = p.numMaxThread := by
  cases hm with
  | @handle w j hk hpc =>
      obtain ⟨w', heq, -⟩ := handleEvent_eq p k w j
      rw [heq]
      exact ⟨rfl, rfl, rfl, rfl⟩
  | sync | look | callGet | noQueue | fault | got | gotNone | worked | leave =>
      exact ⟨rfl, rfl, rfl, rfl⟩

/-- A step of the caller starts a worker, changes one, or leaves them all as they are. -/
inductive ThreadsMove (p p' : XLThreadPool) : Prop
  | same (hthreads : p'.threads = p.threads)
  | spawn (hthreads : p'.threads = p.threads ++ [XLThWorkThread.spawned])
  | set {k w w'} (hk : p.threads[k]? = some w) (hthreads : p'.threads = p.threads.set k w')
      (hpc : w'.pc = w.pc) (hentered : w'.entered = w.entered)

theorem CallerMoves.threadsMove (hm : CallerMoves p p') : ThreadsMove p p' := by
  cases hm with
  | launch hc hmore => exact .spawn rfl
  | handled hc hk | given hc hk | launched hc hk | launchedForJob hc hk | join hc hk
  | joined hc hk => exact .set hk rfl rfl rfl
  | launchedAll | added | putExit | putAll | exitPut | skip | joinedAll => exact .same rfl

/-- Every worker that was joined has had its handle reset. -/
def Joined (p : XLThreadPool) : Prop :=
  ∀ (i : Nat) (w : XLThWorkThread), p.threads[i]? = some w → p.caller.hasJoined i = true →
    w.handle = false

theorem Joined.of_leaving (h : p.caller.leaving = false) : Joined p := by
  intro i w hi hj
  rw [CallerPc.hasJoined_eq_false h] at hj
  cases hj

theorem Joined.callerMoves (h : Joined p) (hm : CallerMoves p p') : Joined p' := by
  unfold Joined at *
  cases hm with
  | launch | launchedAll | handled | given | launched | launchedForJob | added =>
      exact Joined.of_leaving rfl
  | putExit hc | exitPut hc => exact fun i w _ hj => by cases hj
  | putAll hc => exact fun i w _ hj => by simp [CallerPc.hasJoined] at hj
  | @join k w sync2 hc hk hhandle hsync =>
      rw [hc] at h
      exact Calls.forall_set hk (h k w hk) fun i c _ hi => h i c hi
  | @skip k w hc hk hhandle =>
      intro i c hi hj
      rw [hc] at h
      by_cases hik : i = k
      · subst hik
        cases hk.symm.trans hi
        exact Bool.not_eq_true _ ▸ hhandle
      · refine h i c hi ?_
        simp only [CallerPc.hasJoined, decide_eq_true_eq] at hj ⊢
        omega
  | @joined k w hc hk hended =>
      rw [hc] at h
      refine Calls.forall_set hk (fun _ => rfl) fun i c hne hi hj => h i c hi ?_
      simp only [CallerPc.hasJoined, decide_eq_true_eq] at hj ⊢
      omega
  | @joinedAll k hc hk =>
      intro i w hi _
      rw [hc] at h
      refine h i w hi ?_
      have hlt := Calls.lt_of_getElem?_eq_some hi
      have hlen := List.getElem?_eq_none_iff.mp hk
      exact decide_eq_true (Nat.lt_of_lt_of_le hlt hlen)

theorem Joined.workerMoves (h : Joined p) (hm : WorkerMoves p k p') : Joined p' := by
  obtain ⟨w, w', hk, hthreads, hhandle, -⟩ := hm.worker
  unfold Joined
  rw [hm.rest.1, hthreads]
  exact Calls.forall_set hk (fun hj => hhandle.trans (h k w hk hj)) fun i c _ hi => h i c hi

end XLThreadPool

namespace PoolLives

variable {s s' : PoolLives} {l : PoolStep}

/-! ### What a step does -/

/-- `AddJob` has to start a worker, and does. -/
def StartsForJob (s : PoolLives) : Prop :=
  s.pool.bDynamic = true ∧ (s.threadList.length : Int) < s.pool.numMaxThread % 2 ^ 64 ∧
    s.threadList.length < s.pool.numMaxThread

/-- What one step can do, with what it finds; a life is born where the pool is not created. -/
inductive Moves (s : PoolLives) : PoolStep → PoolLives → Prop
  | born (hc : s.pool.caller = .fresh ∨ s.pool.caller = .idle ∨ s.pool.caller = .destroyed)
      (hcreated : ¬ s.pool.bCreated = true) :
      Moves s .create
        { stale := s.threadList
          pool := (XLThreadPool.new s.pool.numMaxThread s.pool.bDynamic).create
          passed := 0 }
  | bornAlready (hcreated : s.pool.bCreated = true) : Moves s .create s
  | startForJob (job)
      (hc : s.pool.caller = .fresh ∨ s.pool.caller = .idle ∨ s.pool.caller = .destroyed)
      (hcreated : s.pool.bCreated = true) (hstart : s.StartsForJob) :
      Moves s (.addJob job) { s with pool := s.pool.launch (.addJob job) }
  | addJob (job)
      (hc : s.pool.caller = .fresh ∨ s.pool.caller = .idle ∨ s.pool.caller = .destroyed)
      (hcreated : s.pool.bCreated = true) (hstart : ¬ s.StartsForJob) :
      Moves s (.addJob job) { s with pool := s.pool.putJob job }
  | addJobNone (job) (hcreated : ¬ s.pool.bCreated = true) : Moves s (.addJob job) s
  | putExit {k} (hc : s.pool.caller = .exiting k) (hmore : k < s.threadList.length) :
      Moves s .caller { s with pool := { s.pool with
        jobQueue := s.pool.jobQueue.callPut (exitEvent s.pool.jobQueue.puts.length)
        caller := .exitPut k } }
  | putAll {k} (hc : s.pool.caller = .exiting k) (hall : ¬ k < s.threadList.length) :
      Moves s .caller (s.setCaller (.joining 0))
  | pass {k w} (hc : s.pool.caller = .joining k) (hw : s.stale[s.passed]? = some w)
      (hhandle : ¬ w.handle = true) : Moves s .caller { s with passed := s.passed + 1 }
  | caller {p} (hexit : ∀ k, s.pool.caller ≠ .exiting k)
      (hjoin : ∀ k, s.pool.caller = .joining k → s.stale[s.passed]? = none)
      (h : XLThreadPool.CallerMoves s.pool p) : Moves s .caller { s with pool := p }
  | destroy (hc : s.pool.caller = .fresh ∨ s.pool.caller = .idle ∨ s.pool.caller = .destroyed)
      (hcreated : s.pool.bCreated = true) :
      Moves s .destroy { s with pool := { s.pool with caller := .exiting 0 } }
  | destroyNone (hcreated : ¬ s.pool.bCreated = true) : Moves s .destroy s
  | worker {k p} (h : XLThreadPool.WorkerMoves s.pool k p) :
      Moves s (.worker k) { s with pool := p }
  | queue {l run} (hl : l.inside = true) (hrun : s.pool.jobQueue.next l = some run) :
      Moves s (.queue l) { s with pool := { s.pool with jobQueue := run } }

theorem callerMoves (hstep : s.callerStep = some s') : Moves s .caller s' := by
  unfold callerStep at hstep
  split at hstep
  · rename_i k hc
    split at hstep
    · rename_i hmore; cases hstep; exact .putExit hc hmore
    · rename_i hall; cases hstep; exact .putAll hc hall
  · rename_i k hc
    split at hstep
    · rename_i w hw
      split at hstep
      · cases hstep
      · rename_i hhandle; cases hstep; exact .pass hc hw hhandle
    · rename_i hw
      obtain ⟨p, hp, rfl⟩ := Option.map_eq_some_iff.mp hstep
      exact .caller (by rw [hc]; nofun) (fun _ _ => hw) (XLThreadPool.callerMoves hp)
  · rename_i hexit hjoin
    obtain ⟨p, hp, rfl⟩ := Option.map_eq_some_iff.mp hstep
    exact .caller hexit (fun k hc => absurd hc (hjoin k)) (XLThreadPool.callerMoves hp)

theorem moves_create
    (hc : s.pool.caller = .fresh ∨ s.pool.caller = .idle ∨ s.pool.caller = .destroyed) :
    Moves s .create s.create := by
  unfold create
  split
  · rename_i hcreated; exact .bornAlready hcreated
  · rename_i hcreated; exact .born hc hcreated

theorem moves_addJob (job : UInt64)
    (hc : s.pool.caller = .fresh ∨ s.pool.caller = .idle ∨ s.pool.caller = .destroyed) :
    Moves s (.addJob job) (s.addJob job) := by
  unfold addJob
  split
  · rename_i hcreated
    split
    · rename_i houter
      split
      · rename_i hinner; exact .startForJob job hc hcreated ⟨houter.1, houter.2, hinner⟩
      · rename_i hinner; exact .addJob job hc hcreated fun hstart => hinner hstart.2.2
    · rename_i houter
      exact .addJob job hc hcreated fun hstart => houter ⟨hstart.1, hstart.2.1⟩
  · rename_i hcreated; exact .addJobNone job hcreated

theorem moves_of_next (hstep : s.next l = some s') : Moves s l s' := by
  unfold next at hstep
  split at hstep
  · cases hstep
  cases l with
  | create =>
      dsimp only at hstep
      split at hstep
      · rename_i hc; cases hstep; exact moves_create (Or.inl hc)
      · rename_i hc; cases hstep; exact moves_create (Or.inr (Or.inl hc))
      · rename_i hc; cases hstep; exact moves_create (Or.inr (Or.inr hc))
      · cases hstep
  | addJob job =>
      dsimp only at hstep
      split at hstep
      · rename_i hc; cases hstep; exact moves_addJob job (Or.inl hc)
      · rename_i hc; cases hstep; exact moves_addJob job (Or.inr (Or.inl hc))
      · rename_i hc; cases hstep; exact moves_addJob job (Or.inr (Or.inr hc))
      · cases hstep
  | caller => exact callerMoves hstep
  | destroy =>
      obtain ⟨p, hp, rfl⟩ := Option.map_eq_some_iff.mp hstep
      cases XLThreadPool.moves_of_next hp with
      | destroy hc hcreated => exact .destroy hc hcreated
      | destroyNone hc hcreated => exact .destroyNone hcreated
  | worker k =>
      obtain ⟨p, hp, rfl⟩ := Option.map_eq_some_iff.mp hstep
      cases XLThreadPool.moves_of_next hp with
      | worker hm => exact .worker hm
  | queue ql =>
      obtain ⟨p, hp, rfl⟩ := Option.map_eq_some_iff.mp hstep
      cases XLThreadPool.moves_of_next hp with
      | queue hl hrun => exact .queue hl hrun

/-! ### From one life to the next

The workers of earlier lives stay in `m_ThreadList`, joined and without a handle.  A life begins
with them, and adds its own behind.
-/

/-- What every step keeps over all lives. -/
structure Carried (s : PoolLives) : Prop where
  pool : s.pool.Inv
  joined : s.pool.Joined
  /-- The workers of earlier lives are destroyed. -/
  stale : ∀ w ∈ s.stale, w.handle = false ∧ w.pc = .ended

theorem carried_new (maxThread : Int) (dynamic : Bool) : Carried (new maxThread dynamic) where
  pool := XLThreadPool.inv_new maxThread dynamic
  joined := XLThreadPool.Joined.of_leaving rfl
  stale := fun w hw => by simp [new] at hw

/-- All workers of a pool that is not created are destroyed. -/
theorem Carried.over (h : Carried s) (hcreated : ¬ s.pool.bCreated = true) :
    ∀ w ∈ s.threadList, w.handle = false ∧ w.pc = .ended := by
  intro w hw
  rcases List.mem_append.mp hw with hw | hw
  · exact h.stale w hw
  obtain ⟨k, hk⟩ := List.mem_iff_getElem?.mp hw
  have hended : w.pc = .ended := by
    by_contra hpc
    exact hcreated (h.pool.created hk hpc)
  refine ⟨h.joined k w hk ?_, hended⟩
  have hfresh := h.pool.not_fresh hk
  have hphase := h.pool.caller.phase
  cases hc : s.pool.caller with
  | fresh => exact absurd hc hfresh
  | destroyed => rfl
  | _ => rw [hc] at hphase; exact absurd hphase hcreated

theorem Carried.moves (h : Carried s) (hm : Moves s l s') : Carried s' := by
  cases hm with
  | born hc hcreated =>
      refine ⟨XLThreadPool.inv_create _ _, fun i w hi => ?_, h.over hcreated⟩
      simp [XLThreadPool.create, XLThreadPool.new] at hi
  | bornAlready | addJobNone | destroyNone => exact h
  | startForJob job hc hcreated hstart =>
      exact ⟨h.pool.launch (h.pool.idle hcreated hc) rfl rfl rfl (fun _ _ hl => by cases hl) _,
        XLThreadPool.Joined.of_leaving rfl, h.stale⟩
  | addJob job hc hcreated hstart =>
      exact ⟨h.pool.putJob (h.pool.idle hcreated hc) rfl rfl rfl (fun _ _ hl => by cases hl) job,
        XLThreadPool.Joined.of_leaving rfl, h.stale⟩
  | putExit hc hmore => exact ⟨h.pool.putExit hc, fun i w _ hj => (by cases hj), h.stale⟩
  | putAll hc hall =>
      refine ⟨h.pool.putAll hc, fun i w _ hj => ?_, h.stale⟩
      simp [setCaller, CallerPc.hasJoined] at hj
  | pass => exact ⟨h.pool, h.joined, h.stale⟩
  | caller hexit hjoin hm => exact ⟨h.pool.callerMoves hm, h.joined.callerMoves hm, h.stale⟩
  | destroy hc hcreated =>
      have hidle := h.pool.idle hcreated hc
      exact ⟨h.pool.goOn hidle rfl (fun hl => by cases hl) (fun _ => rfl)
        (fun _ _ hl => by cases hl) ((h.pool.callerAt hidle).returned rfl) (fun hl => by cases hl),
        fun i w _ hj => (by cases hj), h.stale⟩
  | worker hm => exact ⟨h.pool.workerMoves hm, h.joined.workerMoves hm, h.stale⟩
  | queue hl hrun => exact ⟨h.pool.queueStep hl hrun, h.joined, h.stale⟩

/-- A pool in its first life. -/
def firstLife (p : XLThreadPool) : PoolLives := { stale := [], pool := p, passed := 0 }

theorem create_firstLife {p : XLThreadPool} (h : XLThreadPool.Inv p)
    (hc : p.caller = .fresh ∨ p.caller = .idle) : (firstLife p).create = firstLife p.create := by
  rcases hc with hc | hc
  · rw [h.fresh hc]
    rfl
  · have hcreated : p.bCreated = true := by rw [h.caller.phase, hc]; rfl
    simp [create, XLThreadPool.create, firstLife, hcreated]

theorem addJob_firstLife (p : XLThreadPool) (job : UInt64) :
    (firstLife p).addJob job = firstLife (p.addJob job) := by
  unfold addJob XLThreadPool.addJob
  simp only [apply_ite firstLife]
  rfl

theorem callerStep_firstLife (p : XLThreadPool) :
    (firstLife p).callerStep = p.callerStep.map firstLife := by
  unfold callerStep
  split
  · rename_i k hc
    rw [XLThreadPool.callerStep, show p.caller = .exiting k from hc]
    simp only [apply_ite (Option.map firstLife)]
    rfl
  · rfl
  · rfl

/-- The machine of one life does the first life of this one. -/
theorem next_firstLife {p p' : XLThreadPool} (h : XLThreadPool.Inv p)
    (hstep : p.next l = some p') : (firstLife p).next l = some (firstLife p') := by
  have hsame : p.next l = some p' := hstep
  unfold XLThreadPool.next at hstep
  split at hstep
  · cases hstep
  rename_i hfault
  unfold next
  rw [if_neg (show ¬ (firstLife p).pool.fault = true from hfault)]
  cases l with
  | create =>
      dsimp only at hstep ⊢
      split at hstep
      · rename_i hc
        cases hstep
        rw [show (firstLife p).pool.caller = .fresh from hc, ← create_firstLife h (Or.inl hc)]
      · rename_i hc
        cases hstep
        rw [show (firstLife p).pool.caller = .idle from hc, ← create_firstLife h (Or.inr hc)]
      · cases hstep
  | addJob job =>
      dsimp only at hstep ⊢
      rw [addJob_firstLife, show (firstLife p).pool.caller = p.caller from rfl]
      cases hc : p.caller <;> rw [hc] at hstep <;> cases hstep <;> rfl
  | caller =>
      dsimp only at hstep ⊢
      rw [callerStep_firstLife, hstep]
      rfl
  | destroy | worker k | queue ql =>
      show (p.next _).map firstLife = _
      rw [hsame]
      rfl

theorem exec_firstLife {p p' : XLThreadPool} {ls : List PoolStep} (h : XLThreadPool.Inv p)
    (hrun : exec XLThreadPool.next p ls = some p') :
    exec next (firstLife p) ls = some (firstLife p') := by
  induction ls generalizing p with
  | nil => cases hrun; rfl
  | cons l rest ih =>
      obtain ⟨u, hl, hrest⟩ := exec_cons_eq_some.mp hrun
      exact exec_cons_eq_some.mpr
        ⟨_, next_firstLife h hl, ih (XLThreadPool.inv_next h hl) hrest⟩

end PoolLives

end ServClient
