/-
A thread pool that is used again.

In every life there should be as many workers as the life asks for, all of them in the list,
and the list should not outgrow `m_numMaxThread`.  This holds for as long as each step that
has a worker to start finds room for it in the list, next to what earlier lives left there.
The first step that finds none either lets the list outgrow its bound, in `Create`, or does
not start the worker, in `AddJob`.
-/
import ServClient.Proofs.PoolLives

namespace ServClient

open Runs

namespace XLThreadPool

/-- How many workers a life asks for in which `AddJob` has put `added` jobs. -/
def expectedAfter (maxThread : Int) (dynamic : Bool) (added : Nat) : Int :=
  if dynamic then min maxThread added else maxThread

/-- How many workers this life asks for. -/
def expected (p : XLThreadPool) : Int := expectedAfter p.numMaxThread p.bDynamic p.added.length

/-- How many workers there are, by where the caller is. -/
def CountedAt (maxThread : Int) (dynamic : Bool) (threads added : Nat) : CallerPc → Prop
  | .fresh => True
  | .creating | .launching _ _ .create => dynamic = false
  | .launching _ _ (.addJob _) => dynamic = true ∧ threads = added + 1
  | _ => threads = expectedAfter maxThread dynamic added

/-- There are as many workers as the jobs so far have called for. -/
def Counted (p : XLThreadPool) : Prop :=
  CountedAt p.numMaxThread p.bDynamic p.threads.length p.added.length p.caller

theorem counted_create {maxThread : Int} (dynamic : Bool) (hmax : 0 ≤ maxThread) :
    Counted (new maxThread dynamic).create := by
  cases dynamic with
  | false => rfl
  | true => exact (min_eq_right hmax).symm

/-- The caller goes on. -/
theorem Counted.callerMoves {p p' : XLThreadPool} (h : Counted p)
    (hle : p.threads.length ≤ p.numMaxThread) (hm : CallerMoves p p') : Counted p' := by
  cases hm with
  | launchedAll hc hall =>
      have hstatic : p.bDynamic = false := by simpa [Counted, CountedAt, hc] using h
      show (p.threads.length : Int) = expectedAfter p.numMaxThread p.bDynamic p.added.length
      rw [hstatic, expectedAfter, if_neg (by decide)]
      omega
  | @launchedForJob k job w hc hk =>
      obtain ⟨hdynamic, hadded⟩ : p.bDynamic = true ∧ p.threads.length = p.added.length + 1 := by
        simpa [Counted, CountedAt, hc] using h
      show ((p.threads.set k _).length : Int) =
        expectedAfter p.numMaxThread p.bDynamic (p.added ++ [job]).length
      rw [hdynamic, expectedAfter, if_pos rfl, List.length_set, List.length_append,
        List.length_singleton, ← hadded, min_eq_right hle]
  | @handled k resume w hc hk | @given k resume w hc hk =>
      cases resume <;> simpa [Counted, CountedAt, setWorker, hc] using h
  | launch hc | launched hc | join hc | joined hc =>
      simpa [Counted, CountedAt, launch, setWorker, hc] using h
  | added hc | putExit hc | putAll hc | exitPut hc | skip hc | joinedAll hc =>
      simpa [Counted, CountedAt, hc] using h

theorem CallerMoves.fixed {p p' : XLThreadPool} (hm : CallerMoves p p') :
    p'.numMaxThread = p.numMaxThread := by
  cases hm <;> rfl

/-- A worker that comes new is on its way to its loop; the caller moves none. -/
theorem CallerMoves.inLoop {p p' : XLThreadPool} (hm : CallerMoves p p')
    (h : ∀ (k : Nat) (w : XLThWorkThread), p.threads[k]? = some w → w.InLoop) :
    ∀ (k : Nat) (w : XLThWorkThread), p'.threads[k]? = some w → w.InLoop := by
  cases hm.threadsMove with
  | same hthreads => rw [hthreads]; exact h
  | spawn hthreads => rw [hthreads]; exact Calls.forall_concat (Or.inr (Or.inl rfl)) h
  | @set k w w' hk hthreads hpc hentered =>
      rw [hthreads]
      refine Calls.forall_set hk ?_ fun i c _ hi => h i c hi
      rw [XLThWorkThread.InLoop, hpc, hentered]
      exact h k w hk

end XLThreadPool

namespace PoolLives

variable {s s' : PoolLives} {l : PoolStep}

/-! ### The property and its condition

The list has room for so many workers over all lives, and nothing takes any out.  A step that wants
a worker and finds no room is where a pool stops being what it was.
-/

/-- In each life the workers are those it should have, and no job is lost when it ends. -/
structure Reusable (s : PoolLives) : Prop where
  running : s.pool.caller = .idle ∨ s.pool.caller = .adding →
    s.threadList.countP (·.running) = s.pool.expected
  room : s.threadList.length ≤ s.pool.numMaxThread
  drained : s.pool.caller = .destroyed → ∀ i job, s.pool.added[i]? = some job → job ≠ 0 →
    s.pool.PutTrue i → (i, job) ∈ s.pool.worked ∧ (s.pool.worked.map Prod.fst).count i = 1

/-- A worker that goes on is one that enters its loop. -/
def Enters (s : PoolLives) : PoolStep → Prop
  | .worker k => ∀ w ∈ s.pool.threads[k]?, w.Enters
  | _ => True

instance (s : PoolLives) : ∀ l, Decidable (Enters s l)
  | .worker _ => inferInstanceAs (Decidable (∀ w ∈ _, XLThWorkThread.Enters w))
  | .create | .addJob _ | .destroy | .caller | .queue _ => isTrue trivial

/-- This life has started fewer workers than it may, and the step is there to start one. -/
def Wants (s : PoolLives) : PoolStep → Prop
  | .caller => s.pool.caller = .creating ∧ s.pool.threads.length < s.pool.numMaxThread
  | .addJob _ => s.pool.bCreated = true ∧ s.pool.bDynamic = true ∧
      s.pool.threads.length < s.pool.numMaxThread
  | _ => False

instance (s : PoolLives) : ∀ l, Decidable (Wants s l)
  | .caller | .addJob _ => inferInstanceAs (Decidable (_ ∧ _))
  | .create | .destroy | .worker _ | .queue _ => isFalse id

/-- A step that wants a worker finds room for it in `m_ThreadList`. -/
def Fits (s : PoolLives) (l : PoolStep) : Prop :=
  s.Wants l → s.threadList.length < s.pool.numMaxThread

instance (s : PoolLives) (l : PoolStep) : Decidable (Fits s l) :=
  inferInstanceAs (Decidable (_ → _))

/-! ### What holds while the workers fit -/

/-- What every step keeps, of a pool that is destroyed with room for its `Exit`s. -/
structure Reused (maxThread : Int) (s : PoolLives) : Prop extends Carried s where
  maxThread : s.pool.numMaxThread = maxThread
  inLoop : ∀ (k : Nat) (w : XLThWorkThread), s.pool.threads[k]? = some w → w.InLoop
  room : s.threadList.length ≤ s.pool.numMaxThread
  counted : s.pool.Counted

theorem reused_new {maxThread : Int} {dynamic : Bool} (hmax : 1 ≤ maxThread) :
    Reused maxThread (new maxThread dynamic) where
  toCarried := carried_new maxThread dynamic
  maxThread := rfl
  inLoop := fun k w hk => by simp [new, XLThreadPool.new] at hk
  room := by
    show (([] : List XLThWorkThread).length : Int) ≤ maxThread
    simp
    omega
  counted := trivial

theorem Reused.threads_le {maxThread : Int} (h : Reused maxThread s) :
    (s.pool.threads.length : Int) ≤ s.pool.numMaxThread := by
  have hroom := h.room
  rw [threadList, List.length_append] at hroom
  omega

/-- A life of a dynamic pool has as many workers as jobs until it has all it may have. -/
theorem Reused.idle_length {maxThread : Int} (h : Reused maxThread s) (hc : s.pool.caller = .idle) :
    s.pool.threads.length = s.pool.expected := by
  have hcounted := h.counted
  rw [XLThreadPool.Counted, hc] at hcounted
  exact hcounted

/-! ### One step -/

section Step

variable {maxThread : Int} {job : UInt64}

theorem Reused.startForJob (h : Reused maxThread s) (hc : s.pool.caller = .idle)
    (hstart : s.StartsForJob) (hs' : Carried { s with pool := s.pool.launch (.addJob job) }) :
    Reused maxThread { s with pool := s.pool.launch (.addJob job) } where
  toCarried := hs'
  maxThread := h.maxThread
  inLoop := Calls.forall_concat (Or.inr (Or.inl rfl)) h.inLoop
  room := by
    have hmore := hstart.2.2
    simp only [threadList, XLThreadPool.launch, List.length_append, List.length_singleton] at *
    omega
  counted := by
    have hlen := h.idle_length hc
    have hmore := hstart.2.2
    rw [XLThreadPool.expected, XLThreadPool.expectedAfter, if_pos hstart.1] at hlen
    refine ⟨hstart.1, ?_⟩
    simp only [threadList, XLThreadPool.launch, List.length_append, List.length_singleton] at *
    omega

theorem Reused.addJob (h : Reused maxThread s) (hc : s.pool.caller = .idle)
    (hfull : s.pool.bDynamic = true → ¬ s.pool.threads.length < s.pool.numMaxThread)
    (hs' : Carried { s with pool := s.pool.putJob job }) :
    Reused maxThread { s with pool := s.pool.putJob job } where
  toCarried := hs'
  maxThread := h.maxThread
  inLoop := h.inLoop
  room := h.room
  counted := by
    have hlen := h.idle_length hc
    have hle := h.threads_le
    show (s.pool.threads.length : Int) = XLThreadPool.expectedAfter s.pool.numMaxThread
      s.pool.bDynamic (s.pool.added ++ [job]).length
    rw [XLThreadPool.expected] at hlen
    unfold XLThreadPool.expectedAfter at *
    split at hlen
    · rename_i hdynamic
      have := hfull hdynamic
      rw [if_pos hdynamic, List.length_append]
      omega
    · rename_i hstatic
      rw [if_neg hstatic]
      exact hlen

/-- A dynamic pool that has not all its workers starts one, where the list has room. -/
theorem starts_of_fits (hint : IsInt s.pool.numMaxThread) (hfits : Fits s (.addJob job))
    (hcreated : s.pool.bCreated = true) (hdynamic : s.pool.bDynamic = true)
    (hmore : s.pool.threads.length < s.pool.numMaxThread) : s.StartsForJob := by
  have hroom := hfits ⟨hcreated, hdynamic, hmore⟩
  refine ⟨hdynamic, ?_, hroom⟩
  rw [Int.emod_eq_of_lt (by omega) (by have := hint.2; omega)]
  exact hroom

theorem Reused.callerMoves {p : XLThreadPool} (h : Reused maxThread s) (hfits : Fits s .caller)
    (hm : XLThreadPool.CallerMoves s.pool p) (hs' : Carried { s with pool := p }) :
    Reused maxThread { s with pool := p } where
  toCarried := hs'
  maxThread := hm.fixed.trans h.maxThread
  inLoop := hm.inLoop h.inLoop
  room := by
    have hroom := h.room
    show ((s.stale ++ p.threads).length : Int) ≤ p.numMaxThread
    rw [hm.fixed]
    cases hm with
    | launch hc hmore =>
        have := hfits ⟨hc, hmore⟩
        simp only [threadList, XLThreadPool.launch, List.length_append, List.length_singleton] at *
        omega
    | handled | given | launched | launchedForJob | join | joined =>
        simpa [threadList, XLThreadPool.setWorker, XLThreadPool.putJob] using hroom
    | launchedAll | added | putExit | putAll | exitPut | skip | joinedAll => exact hroom
  counted := h.counted.callerMoves h.threads_le hm

theorem Reused.workerMoves {p : XLThreadPool} {k : Nat} (h : Reused maxThread s)
    (henters : Enters s (.worker k)) (hm : XLThreadPool.WorkerMoves s.pool k p)
    (hs' : Carried { s with pool := p }) : Reused maxThread { s with pool := p } := by
  obtain ⟨w, w', hk, hthreads, -, hloop⟩ := hm.worker
  obtain ⟨hcaller, hadded, hdynamic, hmax⟩ := hm.rest
  have hlen : p.threads.length = s.pool.threads.length := by rw [hthreads, List.length_set]
  refine ⟨hs', hmax.trans h.maxThread, ?_, ?_, ?_⟩
  · show ∀ (i : Nat) (c : XLThWorkThread), p.threads[i]? = some c → c.InLoop
    rw [hthreads]
    exact Calls.forall_set hk (hloop (henters w hk) (h.inLoop k w hk))
      fun i c _ hi => h.inLoop i c hi
  · have hroom := h.room
    simp only [threadList, List.length_append, hlen, hmax] at *
    exact hroom
  · have hcounted := h.counted
    unfold XLThreadPool.Counted at *
    simp only [hlen, hmax, hdynamic, hadded, hcaller]
    exact hcounted

theorem Reused.next (h : Reused maxThread s) (hint : IsInt maxThread) (henters : Enters s l)
    (hfits : Fits s l) (hstep : s.next l = some s') : Reused maxThread s' := by
  have hm := moves_of_next hstep
  have hs' := h.toCarried.moves hm
  cases hm with
  | born hc hcreated =>
      refine ⟨hs', h.maxThread, fun i w hi => ?_, ?_, ?_⟩
      · simp [XLThreadPool.create, XLThreadPool.new] at hi
      · show ((s.threadList ++ []).length : Int) ≤ s.pool.numMaxThread
        rw [List.append_nil]
        exact h.room
      · exact XLThreadPool.counted_create _ (Int.le_trans (Int.natCast_nonneg _) h.room)
  | bornAlready | addJobNone | destroyNone => exact h
  | startForJob job hc hcreated hstart => exact h.startForJob (h.pool.idle hcreated hc) hstart hs'
  | addJob job hc hcreated hstart =>
      refine h.addJob (h.pool.idle hcreated hc) (fun hdynamic hmore => hstart ?_) hs'
      exact starts_of_fits (by rw [h.maxThread]; exact hint) hfits hcreated hdynamic hmore
  | putExit hc | putAll hc =>
      refine ⟨hs', h.maxThread, h.inLoop, h.room, ?_⟩
      simpa [XLThreadPool.Counted, XLThreadPool.CountedAt, setCaller, hc] using h.counted
  | pass hc => exact ⟨hs', h.maxThread, h.inLoop, h.room, h.counted⟩
  | caller hexit hjoin hm => exact h.callerMoves hfits hm hs'
  | destroy hc hcreated =>
      refine ⟨hs', h.maxThread, h.inLoop, h.room, ?_⟩
      have hidle := h.pool.idle hcreated hc
      simpa [XLThreadPool.Counted, XLThreadPool.CountedAt, hidle] using h.counted
  | worker hm => exact h.workerMoves henters hm hs'
  | queue hl hrun => exact ⟨hs', h.maxThread, h.inLoop, h.room, h.counted⟩

end Step

/-! ### Reusable, when -/

/-- Before `Destroy` is called no exit event has been put, so none has been acted on. -/
theorem Carried.no_exit (h : Carried s) (hc : s.pool.caller.leaving = false) {r : Nat × PoolEvent}
    (hr : r ∈ s.pool.handled) : r.2.event.iType ≠ threadPoolEventExit := by
  intro hexit
  obtain ⟨k, i, -, hpushed, heq⟩ := h.pool.handled_place (j := r.1) (e := r.2) hr
  rw [heq, XLThreadPool.isExit_eventOf] at hexit
  have hlt := h.pool.caller.ordered.puts.inRange i _ (List.mem_of_getElem? hpushed)
  have := h.pool.caller.adding hc
  omega

theorem Reused.running {maxThread : Int} (h : Reused maxThread s)
    (hc : s.pool.caller = .idle ∨ s.pool.caller = .adding) {w : XLThWorkThread}
    (hw : w ∈ s.pool.threads) : w.running = true := by
  have hleaving : s.pool.caller.leaving = false := by rcases hc with hc | hc <;> rw [hc] <;> rfl
  obtain ⟨k, hk⟩ := List.mem_iff_getElem?.mp hw
  have hhandle : w.handle = true := by
    rcases h.pool.join.handle k w hk with hhandle | hj | ⟨r, hr⟩
    · exact hhandle
    · rw [CallerPc.hasJoined_eq_false hleaving] at hj
      cases hj
    · rcases hc with hc | hc <;> cases hc.symm.trans hr
  have hgone : ¬ (w.pc = .leaving ∨ w.pc = .ended) := by
    intro hpc
    have hentered : w.entered = true := by
      refine (h.inLoop k w hk).has_entered ?_
      rcases hpc with hpc | hpc <;> simp [hpc]
    obtain ⟨r, hr, hexit⟩ := h.pool.workers.exited k w hk hentered hpc
    exact h.no_exit hleaving hr hexit
  rw [not_or] at hgone
  simp [XLThWorkThread.running, hhandle, hgone]

theorem Carried.countP_running (h : Carried s) :
    s.threadList.countP (·.running) = s.pool.threads.countP (·.running) := by
  have hstale : s.stale.countP (·.running) = 0 := by
    rw [List.countP_eq_zero]
    intro w hw
    simp [XLThWorkThread.running, (h.stale w hw).1]
  rw [threadList, List.countP_append, hstale, Nat.zero_add]

theorem Reused.drained {maxThread : Int} (hmax : 1 ≤ maxThread) (h : Reused maxThread s)
    (hd : s.pool.caller = .destroyed) {i : Nat} {job : UInt64}
    (hjob : s.pool.added[i]? = some job) (hnull : job ≠ 0) (hput : s.pool.PutTrue i) :
    (i, job) ∈ s.pool.worked ∧ (s.pool.worked.map Prod.fst).count i = 1 := by
  have hpos : 0 < s.pool.threads.length := by
    have hlt := Calls.lt_of_getElem?_eq_some hjob
    have hcounted : (s.pool.threads.length : Int) = s.pool.expected := by
      have hcounted := h.counted
      rw [XLThreadPool.Counted, hd] at hcounted
      exact hcounted
    have := h.maxThread
    unfold XLThreadPool.expected XLThreadPool.expectedAfter at hcounted
    split at hcounted <;> omega
  have hk := List.getElem?_eq_getElem hpos
  have hended := h.pool.join.ended 0 _ hk (by rw [hd]; rfl)
  have hentered := (h.inLoop 0 _ hk).has_entered (by simp [hended])
  have hmem : (i, job) ∈ s.pool.worked :=
    (h.pool.worked_iff hd ⟨_, List.getElem_mem hpos, hentered⟩).mpr ⟨hjob, hnull, hput⟩
  refine ⟨hmem, ?_⟩
  rw [h.pool.worked_nodup.count, if_pos (List.mem_map_of_mem (f := Prod.fst) hmem)]

theorem Reused.reusable {maxThread : Int} (hmax : 1 ≤ maxThread) (h : Reused maxThread s) :
    Reusable s where
  running := by
    intro hc
    have hcounted : (s.pool.threads.length : Int) = s.pool.expected := by
      have hcounted := h.counted
      unfold XLThreadPool.Counted at hcounted
      rcases hc with hc | hc <;> rw [hc] at hcounted <;> exact hcounted
    rw [h.countP_running, List.countP_eq_length.mpr fun w hw => h.running hc hw]
    exact hcounted
  room := h.room
  drained := fun hd i job => h.drained hmax hd

/-- A step that wants a worker and finds no room: `Create` starts it all the same, and `AddJob`
puts the job without it. -/
theorem Reused.not_fits {maxThread : Int} (h : Reused maxThread s) (hfits : ¬ Fits s l)
    (hstep : s.next l = some s') : ¬ Reusable s' := by
  obtain ⟨hwants, hfull⟩ : s.Wants l ∧ ¬ s.threadList.length < s.pool.numMaxThread := by
    simpa [Fits] using hfits
  intro hreusable
  cases moves_of_next hstep with
  | @caller p hexit hjoin hm =>
      cases hm with
      | launch hc hmore =>
          have hroom := hreusable.room
          simp only [threadList, XLThreadPool.launch, List.length_append,
            List.length_singleton] at hroom hfull
          omega
      | launchedAll hc hall => exact hall hwants.2
      | handled hc | given hc | launched hc | launchedForJob hc | added hc
      | putExit hc | putAll hc | exitPut hc | join hc | skip hc | joined hc | joinedAll hc =>
          cases hc.symm.trans hwants.1
  | putExit hc | putAll hc | pass hc => cases hc.symm.trans hwants.1
  | startForJob job hc hcreated hstart => exact hfull hstart.2.2
  | addJobNone job hcreated => exact hcreated hwants.1
  | addJob job hc hcreated hstart =>
      obtain ⟨-, hdynamic, hmore⟩ := hwants
      have hidle := h.idle_length (h.pool.idle hcreated hc)
      have hrunning : (s.threadList.countP (·.running) : Int) =
          XLThreadPool.expectedAfter s.pool.numMaxThread s.pool.bDynamic
            (s.pool.added ++ [job]).length := hreusable.running (Or.inr rfl)
      have hle : s.pool.threads.countP (·.running) ≤ s.pool.threads.length := List.countP_le_length
      rw [h.countP_running, XLThreadPool.expectedAfter, if_pos hdynamic, List.length_append,
        List.length_singleton] at hrunning
      rw [XLThreadPool.expected, XLThreadPool.expectedAfter, if_pos hdynamic] at hidle
      omega
  | born | bornAlready | destroy | destroyNone | worker | queue => exact hwants

/--
A pool with any history: it is reusable in every state it goes through if and only if every
step that wanted a worker found room for it in `m_ThreadList`.
-/
theorem pool_reusable_iff {maxThread : Int} {dynamic : Bool} (hmax : 1 ≤ maxThread)
    (hint : IsInt maxThread) {ls : List PoolStep}
    (hrun : exec next (new maxThread dynamic) ls = some s)
    (henters : Along next Enters (new maxThread dynamic) ls) :
    Throughout next Reusable (new maxThread dynamic) ls ↔
      Along next Fits (new maxThread dynamic) ls :=
  throughout_iff_along_given (I := Reused maxThread) (fun _ hu => hu.reusable hmax)
    (fun _ _ _ hu hl hfits hstep => hu.next hint hl hfits hstep)
    (fun _ _ _ hu _ hfits hstep => hu.not_fits hfits hstep) (reused_new hmax) hrun henters

/-! ### Two lives of a dynamic pool -/

/-- Call `i` of `Put` runs, and the caller goes on. -/
def putSteps (i : Nat) : List PoolStep :=
  [.queue (.putLock i), .queue (.putCopy i), .queue (.putPush i), .queue (.putUnlock i),
    .queue (.putGive i), .caller]

/-- Worker 0 makes call `j` of `Get` and acts on what it got. -/
def getSteps (j : Nat) : List PoolStep :=
  [.worker 0, .queue (.getTake j), .queue (.getLock j), .queue (.getPop j), .queue (.getUnlock j),
    .worker 0, .worker 0]

/-- A life with one job and its worker, after `n` workers of earlier lives. -/
def lifeSteps (n : Nat) (job : UInt64) : List PoolStep :=
  [.create, .addJob job, .caller, .caller, .caller] ++ putSteps 0 ++ [.worker 0, .worker 0] ++
    getSteps 0 ++ [.worker 0, .destroy] ++
    (List.range (n + 1)).flatMap (fun i => .caller :: putSteps (i + 1)) ++ [.caller] ++
    getSteps 1 ++ [.worker 0] ++ List.replicate n .caller ++ [.caller, .caller, .caller]

set_option maxRecDepth 4000 in
/-- Two workers may be in the list, so the second life has its worker. -/
theorem pool_reusable_iff_two :
    ∃ s, exec next (new 2 true) (lifeSteps 0 5 ++ lifeSteps 1 7) = some s ∧
      s.pool.worked = [(0, 7)] ∧
      (Throughout next Reusable (new 2 true) (lifeSteps 0 5 ++ lifeSteps 1 7) ↔
        Along next Fits (new 2 true) (lifeSteps 0 5 ++ lifeSteps 1 7)) := by
  obtain ⟨s, hs, hworked⟩ := (Option.any_eq_true _ _).mp
    (show (exec next (new 2 true) (lifeSteps 0 5 ++ lifeSteps 1 7)).any
      (fun s => decide (s.pool.worked = [(0, 7)])) = true by decide)
  exact ⟨s, hs, of_decide_eq_true hworked,
    pool_reusable_iff (by decide) (by decide) hs (by decide)⟩

/-- A second life with one job, where the worker of the first is all the list has room for. -/
def starvedLife : List PoolStep :=
  [.create, .addJob 7] ++ putSteps 0 ++ [.destroy, .caller] ++ putSteps 1 ++
    [.caller, .caller, .caller]

theorem exec_starvedLife :
    ∃ s, exec next (new 1 true) (lifeSteps 0 5 ++ starvedLife) = some s ∧
      s.pool.caller = .destroyed ∧ s.pool.added = [7] ∧ s.pool.PutTrue 0 ∧
      s.pool.worked = [] := by
  obtain ⟨s, hs, hcheck⟩ := (Option.any_eq_true _ _).mp
    (show (exec next (new 1 true) (lifeSteps 0 5 ++ starvedLife)).any
      (fun s => decide (s.pool.caller = .destroyed) && decide (s.pool.added = [7]) &&
        decide (s.pool.jobQueue.puts[0]?.map PutCall.pc = some (.returned true)) &&
        decide (s.pool.worked = [])) = true by decide)
  simp only [Bool.and_eq_true, decide_eq_true_eq] at hcheck
  obtain ⟨⟨⟨hd, hadded⟩, hput⟩, hworked⟩ := hcheck
  exact ⟨s, hs, hd, hadded, Option.map_eq_some_iff.mp hput, hworked⟩

/-- The job is put, no worker is started for it, and `Destroy` returns without it. -/
theorem not_reusable_starvedLife :
    ∃ s, exec next (new 1 true) (lifeSteps 0 5 ++ starvedLife) = some s ∧
      Along next Enters (new 1 true) (lifeSteps 0 5 ++ starvedLife) ∧
      s.pool.caller = .destroyed ∧ s.pool.added = [7] ∧ s.pool.PutTrue 0 ∧
      s.pool.worked = [] ∧
      ¬ Throughout next Reusable (new 1 true) (lifeSteps 0 5 ++ starvedLife) := by
  obtain ⟨s, hs, hd, hadded, hput, hworked⟩ := exec_starvedLife
  refine ⟨s, hs, by decide, hd, hadded, hput, hworked, fun hall => ?_⟩
  have hlast := hall.last hs
  obtain ⟨hmem, -⟩ := hlast.drained hd 0 7 (by rw [hadded]; rfl) (by decide) hput
  rw [hworked] at hmem
  cases hmem

end PoolLives

end ServClient
