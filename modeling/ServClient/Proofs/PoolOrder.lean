/-
In which order the jobs of a thread pool are worked.

The queue is first in, first out, so when a worker comes to a job every job put before it has
been taken from the queue: it has been worked, or one of the other workers has it in hand.  A
worker has one event at a time.  So a job is overtaken by fewer jobs than there are workers,
and a single worker does them in the order of the `AddJob` calls.

What could fail is that a worker takes a second event while it has one; `WorkerInv.current`
says that each `Get` call is one worker's until it has been acted on.
-/
import ServClient.Proofs.PoolReuse
import Mathlib.Combinatorics.Enumerative.DoubleCounting
import Mathlib.Data.List.TakeWhile

namespace ServClient

open Runs

namespace XLThreadPool

variable {p p' : XLThreadPool} {i k : Nat} {job : UInt64}

/-- The queue has taken the job of `AddJob` call `i`, and it is not null. -/
def accepted (p : XLThreadPool) (i : Nat) : Bool :=
  p.added[i]?.any (· ≠ 0) && (p.jobQueue.pushed.map Prod.fst).contains i

/-- The calls whose jobs were worked before that of call `i`, or so far if it has not been. -/
def workedBefore (p : XLThreadPool) (i : Nat) : List Nat :=
  (p.worked.map Prod.fst).takeWhile (· ≠ i)

/-- The jobs put before call `i` that were not worked before its job was. -/
def overtaken (p : XLThreadPool) (i : Nat) : Finset Nat :=
  (Finset.range i).filter fun m => p.accepted m && !(p.workedBefore i).contains m

theorem accepted_iff : p.accepted i = true ↔
    (∃ job, p.added[i]? = some job ∧ job ≠ 0) ∧ i ∈ p.jobQueue.pushed.map Prod.fst := by
  simp only [accepted, Bool.and_eq_true, List.contains_iff_mem, Option.any_eq_true,
    decide_eq_true_eq]

theorem mem_overtaken {m : Nat} :
    m ∈ p.overtaken i ↔ m < i ∧ p.accepted m = true ∧ m ∉ p.workedBefore i := by
  simp only [overtaken, Finset.mem_filter, Finset.mem_range, Bool.and_eq_true, Bool.not_eq_true',
    ← Bool.not_eq_true, List.contains_iff_mem]

/-- Until its job is worked all others come before it. -/
theorem workedBefore_eq (h : i ∉ p.worked.map Prod.fst) :
    p.workedBefore i = p.worked.map Prod.fst := by
  refine List.takeWhile_eq_self_iff.mpr fun m hm => decide_eq_true ?_
  rintro rfl
  exact h hm

/-- And later it does not matter what is worked. -/
theorem takeWhile_append_of_mem {l l' : List Nat} (h : i ∈ l) :
    (l ++ l').takeWhile (· ≠ i) = l.takeWhile (· ≠ i) := by
  rw [List.takeWhile_append, if_neg]
  intro hlen
  have hself := (List.takeWhile_sublist fun m => decide (m ≠ i)).eq_of_length hlen
  simpa using List.takeWhile_eq_self_iff.mp hself i h

/-- No job has been overtaken by as many as there are workers. -/
structure Orderly (p : XLThreadPool) : Prop where
  few : ∀ i ∈ p.worked.map Prod.fst, (p.overtaken i).card < p.threads.length
  bounded : (p.threads.length : Int) ≤ max 0 p.numMaxThread

/-! ### Steps that call no `Work()` -/

/-- What was put and pushed stays, and nothing more is worked. -/
structure Stays (p p' : XLThreadPool) : Prop where
  worked : p'.worked = p.worked
  added : p.added <+: p'.added
  pushed : p.jobQueue.pushed <+: p'.jobQueue.pushed
  threads : p.threads.length ≤ p'.threads.length
  numMaxThread : p'.numMaxThread = p.numMaxThread

/-- What is pushed later has a greater number, so nothing gets in front. -/
theorem Stays.accepted (h : Stays p p') (hp : p.Inv) (hp' : p'.Inv)
    (hi : i ∈ p.worked.map Prod.fst) {m : Nat} (hlt : m < i) (hm : p'.accepted m = true) :
    p.accepted m = true := by
  obtain ⟨⟨job, hjob, hnull⟩, hpushed⟩ := accepted_iff.mp hm
  obtain ⟨⟨_, job'⟩, hmem, rfl⟩ := List.mem_map.mp hi
  obtain ⟨hadded, -, hold⟩ := hp.worked_sound hmem
  refine accepted_iff.mpr ⟨⟨job, ?_, hnull⟩, ?_⟩
  · obtain ⟨more, hmore⟩ := h.added
    rwa [← hmore, List.getElem?_append_left
      (Nat.lt_trans hlt (Calls.lt_of_getElem?_eq_some hadded))] at hjob
  · obtain ⟨more, hmore⟩ := h.pushed
    rw [← hmore, List.map_append, List.mem_append] at hpushed
    refine hpushed.resolve_right fun hnew => ?_
    have hsorted := hp'.caller.sorted
    rw [← hmore, List.map_append, List.pairwise_append] at hsorted
    have := hsorted.2.2 _ (List.mem_map_of_mem hold) m hnew
    omega

theorem Orderly.stays (h : Orderly p) (hp : p.Inv) (hp' : p'.Inv) (hs : Stays p p')
    (hbounded : (p'.threads.length : Int) ≤ max 0 p.numMaxThread) : Orderly p' where
  few := by
    intro i hi
    rw [hs.worked] at hi
    have hsub : p'.overtaken i ⊆ p.overtaken i := by
      intro m hm
      obtain ⟨hlt, haccepted, hbefore⟩ := mem_overtaken.mp hm
      rw [workedBefore, hs.worked] at hbefore
      exact mem_overtaken.mpr ⟨hlt, hs.accepted hp hp' hi hlt haccepted, hbefore⟩
    exact ((Finset.card_le_card hsub).trans_lt (h.few i hi)).trans_le hs.threads
  bounded := by rwa [hs.numMaxThread]

theorem Stays.putJob {job : UInt64} : Stays p (p.putJob job) :=
  ⟨rfl, List.prefix_append _ _, List.prefix_rfl, Nat.le_refl _, rfl⟩

theorem Stays.launch {resume : Resume} : Stays p (p.launch resume) where
  worked := rfl
  added := List.prefix_rfl
  pushed := List.prefix_rfl
  threads := by rw [XLThreadPool.launch, List.length_append]; exact Nat.le_add_right _ _
  numMaxThread := rfl

theorem CallerMoves.stays (hm : CallerMoves p p') : Stays p p' := by
  cases hm with
  | launch => exact Stays.launch
  | launchedForJob =>
      exact ⟨rfl, List.prefix_append _ _, List.prefix_rfl, by simp [XLThreadPool.putJob, setWorker],
        rfl⟩
  | handled | given | launched | join | joined =>
      exact ⟨rfl, List.prefix_rfl, List.prefix_rfl, by simp [setWorker], rfl⟩
  | launchedAll | added | putExit | putAll | exitPut | skip | joinedAll =>
      exact ⟨rfl, List.prefix_rfl, List.prefix_rfl, Nat.le_refl _, rfl⟩

theorem CallerMoves.orderly (hm : CallerMoves p p') (h : Orderly p) (hp : p.Inv) : Orderly p' := by
  refine h.stays hp (hp.callerMoves hm) hm.stays ?_
  have hbounded := h.bounded
  cases hm with
  | launch hc hmore =>
      rw [XLThreadPool.launch, List.length_append, List.length_singleton]
      omega
  | handled | given | launched | launchedForJob | join | joined =>
      simpa [setWorker, XLThreadPool.putJob] using hbounded
  | launchedAll | added | putExit | putAll | exitPut | skip | joinedAll => exact hbounded

theorem stays_queue {l : QueueStep PoolEvent} {run : QueueRun PoolEvent} (hp : p.Inv)
    (hl : l.inside = true) (hrun : p.jobQueue.next l = some run) :
    Stays p { p with jobQueue := run } := by
  refine ⟨rfl, List.prefix_rfl, ?_, Nat.le_refl _, rfl⟩
  by_cases hcreated : p.bCreated = true
  · rcases (QueueRun.continues_next (hp.caller.queue hcreated) hrun hl).pushed with
      hsame | ⟨i, c, -, -, hmore⟩
    · exact hsame ▸ List.prefix_rfl
    · exact hmore ▸ List.prefix_append _ _
  · rw [hp.queue_quiet hcreated hl] at hrun
    cases hrun

/-! ### A call of `Work()`

Events leave the queue in order, and a worker can be slow with the one it has.  So whoever overtakes
a job has it that some worker holds that job, and there are only so many workers.
-/

/-- Worker `t` has the event of `AddJob` call `i` in hand. -/
def Holds (p : XLThreadPool) (i t : Nat) : Prop :=
  ∃ (w : XLThWorkThread) (j c : Nat) (e : PoolEvent), p.threads[t]? = some w ∧
    w.pc.current = some j ∧ p.jobQueue.popped[c]? = some (j, some e) ∧
    p.jobQueue.pushed[c]? = some (i, e)

/-- One event at a time. -/
theorem Holds.unique (hp : p.Inv) {t m : Nat} (h : Holds p i t) (h' : Holds p m t) : i = m := by
  obtain ⟨w, j, c, e, hw, hj, hpopped, hpushed⟩ := h
  obtain ⟨w', j', c', e', hw', hj', hpopped', hpushed'⟩ := h'
  cases hw.symm.trans hw'
  cases hj.symm.trans hj'
  cases QueueRun.place_unique hp.caller.ordered.gets.once hpopped hpopped'
  cases hpushed.symm.trans hpushed'
  rfl

/-- A job put before one that is off the queue is off the queue too, so if it is not worked yet
some worker has it. -/
theorem Inv.holder (hp : p.Inv) {m j c : Nat} {e : PoolEvent}
    (hpopped : p.jobQueue.popped[c]? = some (j, some e))
    (hpushed : p.jobQueue.pushed[c]? = some (i, e)) (hlt : m < i) (hm : p.accepted m = true)
    (hworked : m ∉ p.worked.map Prod.fst) : ∃ t < p.threads.length, Holds p m t := by
  obtain ⟨⟨job, hjob, hnull⟩, hput⟩ := accepted_iff.mp hm
  obtain ⟨⟨_, a⟩, hmem, rfl⟩ := List.mem_map.mp hput
  obtain ⟨d, hd⟩ := List.mem_iff_getElem?.mp hmem
  have hdc : d < c := by
    by_contra hcd
    rcases Nat.lt_or_eq_of_le (Nat.le_of_not_lt hcd) with hcd | rfl
    · have := hp.pushed_lt hcd hpushed hd
      omega
    · cases hpushed.symm.trans hd
      omega
  obtain ⟨j', hj'⟩ := hp.caller.ordered.place
    (Nat.lt_trans hdc (Calls.lt_of_getElem?_eq_some hpopped)) hd
  have hnot : j' ∉ p.handled.map Prod.fst := by
    intro hhandled
    obtain ⟨⟨_, b⟩, hb, rfl⟩ := List.mem_map.mp hhandled
    obtain ⟨d', i', hd', hi', -⟩ := hp.handled_place hb
    cases QueueRun.place_unique hp.caller.ordered.gets.once hd' hj'
    cases hd'.symm.trans hj'
    refine hworked (List.mem_map.mpr ⟨(_, job), ?_, rfl⟩)
    rw [hp.workers.works]
    refine List.mem_filterMap.mpr ⟨_, hb, ?_⟩
    rw [hp.pushed_event hmem]
    exact workOf_eventOf.mpr ⟨job, hjob, hnull, rfl⟩
  have hcount := hp.workers.current j'
  rw [if_pos (hp.caller.ordered.gets.inRange j' _ (List.mem_of_getElem? hj')),
    List.count_eq_zero.mpr hnot] at hcount
  obtain ⟨w, hw, hhas⟩ := List.countP_pos_iff.mp
    (show 0 < p.threads.countP (has j') by omega)
  obtain ⟨t, ht⟩ := List.mem_iff_getElem?.mp hw
  exact ⟨t, Calls.lt_of_getElem?_eq_some ht, w, j', d, a, ht, of_decide_eq_true hhas, hj', hd⟩

/-- Those that are overtaken are in the hands of the other workers. -/
theorem Inv.overtaken_lt (hp : p.Inv) (hk : Holds p i k) (hlt : k < p.threads.length)
    (hi : i ∉ p.worked.map Prod.fst) : (p.overtaken i).card < p.threads.length := by
  have hcard : (p.overtaken i).card ≤ ((Finset.range p.threads.length).erase k).card := by
    refine Finset.card_le_card_of_forall_subsingleton (Holds p) (fun m hm => ?_)
      fun t _ m hm m' hm' => hm.2.unique hp hm'.2
    obtain ⟨hmi, haccepted, hbefore⟩ := mem_overtaken.mp hm
    rw [workedBefore_eq hi] at hbefore
    obtain ⟨-, j, c, e, -, -, hpopped, hpushed⟩ := id hk
    obtain ⟨t, ht, hholds⟩ := hp.holder hpopped hpushed hmi haccepted hbefore
    refine ⟨t, Finset.mem_erase.mpr ⟨?_, Finset.mem_range.mpr ht⟩, hholds⟩
    rintro rfl
    exact absurd (hholds.unique hp hk) (Nat.ne_of_lt hmi)
  rw [Finset.card_erase_of_mem (Finset.mem_range.mpr hlt), Finset.card_range] at hcard
  omega

theorem Inv.holds (hp : p.Inv) {w : XLThWorkThread} {j : Nat} (hk : p.threads[k]? = some w)
    (hpc : w.pc = .handling j) : ∃ i, Holds p i k ∧ w.e = eventOf p.added i := by
  have hj := hp.workers.inHand k w hk j hpc
  have hpopped := (hp.caller.ordered.gets.mem_iff j _ hj (some w.e)).mpr rfl
  obtain ⟨c, hc⟩ := List.mem_iff_getElem?.mp hpopped
  obtain ⟨i, e, hi, he⟩ := hp.caller.ordered.source hc
  cases he
  exact ⟨i, ⟨w, j, c, w.e, hk, by rw [hpc]; rfl, hc, hi⟩,
    hp.pushed_event (List.mem_of_getElem? hi)⟩

theorem overtaken_congr (hadded : p'.added = p.added) (hqueue : p'.jobQueue = p.jobQueue)
    (hbefore : p'.workedBefore i = p.workedBefore i) : p'.overtaken i = p.overtaken i := by
  ext m
  simp only [mem_overtaken, accepted_iff, hadded, hqueue, hbefore]

/-- A worker calls `Work()`, and what it overtakes is what has not been worked then. -/
theorem Orderly.handle (h : Orderly p) (hp : p.Inv) {w : XLThWorkThread} {j : Nat}
    (hk : p.threads[k]? = some w) (hpc : w.pc = .handling j) : Orderly (p.handleEvent k w j) := by
  have hp' := hp.handleEvent hk hpc
  obtain ⟨w', heq, -⟩ := handleEvent_eq p k w j
  obtain ⟨m, hholds, hevent⟩ := hp.holds hk hpc
  have hworked : (p.handleEvent k w j).worked = p.worked ++ (workOf (j, w.e)).toList := by rw [heq]
  have hadded : (p.handleEvent k w j).added = p.added := by rw [heq]
  have hqueue : (p.handleEvent k w j).jobQueue = p.jobQueue := by rw [heq]
  have hlength : (p.handleEvent k w j).threads.length = p.threads.length := by
    rw [heq, List.length_set]
  refine ⟨fun i hi => ?_, by rw [hlength, heq]; exact h.bounded⟩
  rw [hlength]
  rw [hworked, List.map_append, List.mem_append] at hi
  by_cases hmem : i ∈ p.worked.map Prod.fst
  · rw [overtaken_congr hadded hqueue
      (by rw [workedBefore, hworked, List.map_append, takeWhile_append_of_mem hmem, workedBefore])]
    exact h.few i hmem
  · -- The job of the worker itself.
    obtain ⟨r, hr, rfl⟩ := List.mem_map.mp (hi.resolve_left hmem)
    rw [Option.mem_toList] at hr
    obtain ⟨job, -, -, rfl⟩ := workOf_eventOf.mp (hevent ▸ hr)
    have hbefore : (p.handleEvent k w j).workedBefore m = p.workedBefore m := by
      have hall : ∀ a ∈ p.worked.map Prod.fst, decide (a ≠ m) = true := by
        rintro a ha
        refine decide_eq_true ?_
        rintro rfl
        exact hmem ha
      rw [workedBefore_eq hmem, workedBefore, hworked, hr, List.map_append,
        List.takeWhile_append_of_pos hall]
      simp
    rw [overtaken_congr hadded hqueue hbefore]
    exact hp.overtaken_lt hholds (Calls.lt_of_getElem?_eq_some hk) hmem

theorem WorkerMoves.orderly (hm : WorkerMoves p k p') (h : Orderly p) (hp : p.Inv) :
    Orderly p' := by
  have hp' := hp.workerMoves hm
  cases hm with
  | handle hk hpc => exact h.handle hp hk hpc
  | sync | look | callGet | noQueue | fault | got | gotNone | worked | leave =>
      refine h.stays hp hp' ⟨rfl, List.prefix_rfl, List.prefix_rfl, by simp [setWorker], rfl⟩ ?_
      simpa [setWorker] using h.bounded

/-- What comes before the entry at place `a` stands at an earlier place. -/
theorem lt_of_mem_takeWhile {l : List Nat} {a b : Nat} (hnodup : l.Nodup) (ha : a < l.length)
    (hb : b < l.length) (hmem : l[b] ∈ l.takeWhile (· ≠ l[a])) : b < a := by
  have hfront := List.takeWhile_prefix (l := l) fun m => decide (m ≠ l[a])
  have hle : (l.takeWhile (· ≠ l[a])).length ≤ a := by
    by_contra hlt
    have hhere := List.mem_takeWhile_imp (List.getElem_mem (Nat.lt_of_not_le hlt))
    rw [hfront.getElem] at hhere
    simp at hhere
  obtain ⟨c, hc, heq⟩ := List.mem_iff_getElem.mp hmem
  rw [hfront.getElem hc, hnodup.getElem_inj_iff] at heq
  omega

/-- A worker that is alone overtakes nothing. -/
theorem Orderly.inOrder (h : Orderly p) (hp : p.Inv) (hone : p.threads.length ≤ 1) :
    (p.worked.map Prod.fst).Pairwise (· < ·) := by
  rw [List.pairwise_iff_getElem]
  intro a b ha hb hab
  have hcard := h.few _ (List.getElem_mem ha)
  have hnone : p.overtaken (p.worked.map Prod.fst)[a] = ∅ := Finset.card_eq_zero.mp (by omega)
  by_contra hlt
  have hne : (p.worked.map Prod.fst)[b] ≠ (p.worked.map Prod.fst)[a] := fun heq => by
    have := hp.worked_nodup.getElem_inj_iff.mp heq
    omega
  obtain ⟨⟨i, job⟩, hmem, hfst⟩ := List.mem_map.mp (List.getElem_mem hb)
  obtain ⟨hadded, hnull, hpushed⟩ := hp.worked_sound hmem
  have hin : (p.worked.map Prod.fst)[b] ∈ p.overtaken (p.worked.map Prod.fst)[a] := by
    refine mem_overtaken.mpr ⟨by omega, ?_, fun hbefore => ?_⟩
    · rw [← hfst]
      exact accepted_iff.mpr ⟨⟨job, hadded, hnull⟩, List.mem_map_of_mem hpushed⟩
    · have := lt_of_mem_takeWhile hp.worked_nodup ha hb hbefore
      omega
  rw [hnone] at hin
  cases hin

end XLThreadPool

namespace PoolLives

variable {s s' : PoolLives} {l : PoolStep}

/-- What every step keeps, with the bound on the workers. -/
structure Ordered (maxThread : Int) (s : PoolLives) : Prop extends Carried s where
  maxThread : s.pool.numMaxThread = maxThread
  orderly : s.pool.Orderly

/-- A pool in a new life has no workers yet. -/
theorem orderly_of_new {p : XLThreadPool} (hworked : p.worked = []) (hthreads : p.threads = []) :
    p.Orderly where
  few := by simp [hworked]
  bounded := by simp [hthreads]

theorem ordered_new (maxThread : Int) (dynamic : Bool) :
    Ordered maxThread (new maxThread dynamic) where
  toCarried := carried_new maxThread dynamic
  maxThread := rfl
  orderly := orderly_of_new rfl rfl

theorem Ordered.next {maxThread : Int} (h : Ordered maxThread s) (hstep : s.next l = some s') :
    Ordered maxThread s' := by
  have hm := moves_of_next hstep
  have hs' := h.toCarried.moves hm
  have hbounded := h.orderly.bounded
  cases hm with
  | born hc hcreated => exact ⟨hs', h.maxThread, orderly_of_new rfl rfl⟩
  | bornAlready | addJobNone | destroyNone => exact h
  | startForJob job hc hcreated hstart =>
      refine ⟨hs', h.maxThread, h.orderly.stays h.pool hs'.pool .launch ?_⟩
      have hmore := hstart.2.2
      simp only [threadList, XLThreadPool.launch, List.length_append, List.length_singleton] at *
      omega
  | addJob job hc hcreated hstart =>
      exact ⟨hs', h.maxThread, h.orderly.stays h.pool hs'.pool .putJob hbounded⟩
  | putExit | putAll | destroy =>
      refine ⟨hs', h.maxThread, h.orderly.stays h.pool hs'.pool ?_ hbounded⟩
      exact ⟨rfl, List.prefix_rfl, List.prefix_rfl, Nat.le_refl _, rfl⟩
  | pass hc => exact ⟨hs', h.maxThread, h.orderly⟩
  | caller hexit hjoin hm =>
      exact ⟨hs', hm.fixed.trans h.maxThread, hm.orderly h.orderly h.pool⟩
  | worker hm => exact ⟨hs', hm.rest.2.2.2.trans h.maxThread, hm.orderly h.orderly h.pool⟩
  | queue hl hrun =>
      refine ⟨hs', h.maxThread, ?_⟩
      exact h.orderly.stays h.pool hs'.pool (XLThreadPool.stays_queue h.pool hl hrun) hbounded

/--
In any run of a pool, in any of its lives: when `Work()` was called for a job, the accepted jobs
put before it and not yet worked were fewer than the workers, of which there are never more than
`m_numMaxThread`.  So a pool with one worker does its jobs in the order they were put.
-/
theorem worked_overtake {maxThread : Int} {dynamic : Bool} {ls : List PoolStep}
    (hrun : exec next (new maxThread dynamic) ls = some s) :
    (∀ i ∈ s.pool.worked.map Prod.fst, (s.pool.overtaken i).card < s.pool.threads.length) ∧
      (s.pool.threads.length : Int) ≤ max 0 maxThread ∧
      (s.pool.threads.length ≤ 1 → (s.pool.worked.map Prod.fst).Pairwise (· < ·)) := by
  have h : Ordered maxThread s :=
    exec_invariant (I := Ordered maxThread) (fun _ _ _ hu hstep => hu.next hstep)
      (ordered_new maxThread dynamic) hrun
  exact ⟨h.orderly.few, h.maxThread ▸ h.orderly.bounded, h.orderly.inOrder h.pool⟩

/-- Two workers, and the one with the second job is the first to call `Work()`. -/
def overtakingLife : List PoolStep :=
  let worker (k j : Nat) : List PoolStep := [.worker k, .queue (.getTake j), .queue (.getLock j),
    .queue (.getPop j), .queue (.getUnlock j), .worker k]
  [.create] ++ List.replicate 9 .caller ++ [.worker 0, .worker 0, .worker 1, .worker 1] ++
    [.addJob 5] ++ putSteps 0 ++ [.addJob 7] ++ putSteps 1 ++ worker 0 0 ++ worker 1 1 ++
    [.worker 1, .worker 0]

theorem worked_overtake_two :
    ∃ s, exec next (new 2 false) overtakingLife = some s ∧ s.pool.worked = [(1, 7), (0, 5)] ∧
      (s.pool.overtaken 1).card = 1 ∧
      ∀ i ∈ s.pool.worked.map Prod.fst, (s.pool.overtaken i).card < s.pool.threads.length := by
  obtain ⟨s, hs, hcheck⟩ := (Option.any_eq_true _ _).mp
    (show (exec next (new 2 false) overtakingLife).any (fun s =>
      decide (s.pool.worked = [(1, 7), (0, 5)]) && decide ((s.pool.overtaken 1).card = 1)) = true
      by decide)
  rw [Bool.and_eq_true, decide_eq_true_eq, decide_eq_true_eq] at hcheck
  exact ⟨s, hs, hcheck.1, hcheck.2, (worked_overtake hs).1⟩

end PoolLives

end ServClient
