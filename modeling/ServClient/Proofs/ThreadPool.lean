/-
A run of the thread pool up to the end of `Destroy`.

When `Destroy` returns all workers have ended.  If one of them had entered its loop an
exit event was taken from the queue, and with it every job put before.
-/
import ServClient.Proofs.PoolInv

namespace ServClient

open Runs

namespace XLThreadPool

/-! ### What was worked -/

/-- `AddJob` call `i` called `Put`, which returned true. -/
def PutTrue (p : XLThreadPool) (i : Nat) : Prop :=
  ∃ c, p.jobQueue.puts[i]? = some c ∧ c.pc = .returned true

/-- An exit event. -/
def IsExit (o : Option PoolEvent) : Prop := ∃ e, o = some e ∧ e.event.iType = threadPoolEventExit

/-- What stands in the log of pushes at a place is the event of that call. -/
theorem Inv.pushed_event {p : XLThreadPool} (h : Inv p) {i : Nat} {e : PoolEvent}
    (hmem : (i, e) ∈ p.jobQueue.pushed) : e = eventOf p.added i := by
  have hi : p.jobQueue.puts[i]? = some _ :=
    List.getElem?_eq_getElem (h.caller.ordered.puts.inRange i e hmem)
  have hentry := (h.caller.ordered.puts.mem_iff i _ hi e).mp hmem
  rw [← h.caller.events i _ hi]
  unfold QueueRun.putEntry at hentry
  split at hentry
  · exact (Option.some.inj hentry).symm
  · cases hentry

/-- An event a worker has acted on, back to the `Put` it came from. -/
theorem Inv.handled_place {p : XLThreadPool} (h : Inv p) {j : Nat} {e : PoolEvent}
    (hmem : (j, e) ∈ p.handled) :
    ∃ k i : Nat, p.jobQueue.popped[k]? = some (j, some e) ∧ p.jobQueue.pushed[k]? = some (i, e) ∧
      e = eventOf p.added i := by
  have hj := h.workers.kept j e hmem
  have hpopped := (h.caller.ordered.gets.mem_iff j _ hj (some e)).mpr rfl
  obtain ⟨k, hk⟩ := List.mem_iff_getElem?.mp hpopped
  obtain ⟨i, a, hi, ha⟩ := h.caller.ordered.source hk
  cases ha
  exact ⟨k, i, hk, hi, h.pushed_event (List.mem_of_getElem? hi)⟩

/-- `Work()` is called for jobs of `AddJob` whose event was pushed. -/
theorem Inv.worked_sound {p : XLThreadPool} (h : Inv p) {i : Nat} {job : UInt64}
    (hmem : (i, job) ∈ p.worked) :
    p.added[i]? = some job ∧ job ≠ 0 ∧ (i, eventOf p.added i) ∈ p.jobQueue.pushed := by
  rw [h.workers.works] at hmem
  obtain ⟨⟨j, e⟩, hr, hwork⟩ := List.mem_filterMap.mp hmem
  obtain ⟨k, i', -, hpushed, rfl⟩ := h.handled_place hr
  obtain ⟨job', hjob, hnull, heq⟩ := workOf_eventOf.mp hwork
  cases heq
  exact ⟨hjob, hnull, List.mem_of_getElem? hpushed⟩

/-- And for each of them at most once. -/
theorem Inv.worked_nodup {p : XLThreadPool} (h : Inv p) : (p.worked.map Prod.fst).Nodup := by
  have honce : (p.handled.map Prod.fst).Nodup := by
    rw [List.nodup_iff_count]
    intro j
    have := h.workers.current j
    split at this <;> omega
  rw [h.workers.works, List.Nodup, List.pairwise_map, List.pairwise_filterMap]
  rw [List.Nodup, List.pairwise_map] at honce
  refine honce.imp_of_mem fun {r r'} hr hr' hne b hb b' hb' heq => hne ?_
  -- Two events of one call stand at one place, so they came from one `Get`.
  obtain ⟨j, e⟩ := r
  obtain ⟨j', e'⟩ := r'
  obtain ⟨k, i, hk, hi, rfl⟩ := h.handled_place hr
  obtain ⟨k', i', hk', hi', rfl⟩ := h.handled_place hr'
  obtain ⟨job, -, -, rfl⟩ := workOf_eventOf.mp hb
  obtain ⟨job', -, -, rfl⟩ := workOf_eventOf.mp hb'
  obtain rfl : i = i' := heq
  obtain rfl := QueueRun.place_unique h.caller.ordered.puts.once hi hi'
  rw [hk, Option.some.injEq, Prod.mk.injEq] at hk'
  exact hk'.1

/-- Of two events pushed the earlier has the smaller call number. -/
theorem Inv.pushed_lt {p : XLThreadPool} (h : Inv p) {k k' i i' : Nat} {e e' : PoolEvent}
    (hlt : k < k') (hk : p.jobQueue.pushed[k]? = some (i, e))
    (hk' : p.jobQueue.pushed[k']? = some (i', e')) : i < i' := by
  have hsorted := List.pairwise_iff_getElem.mp h.caller.sorted k k'
    (by rw [List.length_map]; exact Calls.lt_of_getElem?_eq_some hk)
    (by rw [List.length_map]; exact Calls.lt_of_getElem?_eq_some hk') hlt
  obtain ⟨hklt, hkget⟩ := List.getElem?_eq_some_iff.mp hk
  obtain ⟨hklt', hkget'⟩ := List.getElem?_eq_some_iff.mp hk'
  simpa only [List.getElem_map, hkget, hkget'] using hsorted

theorem isExit_eventOf {added : List UInt64} {i : Nat} :
    (eventOf added i).event.iType = threadPoolEventExit ↔ added.length ≤ i := by
  unfold eventOf
  split
  · rename_i job hjob
    rw [jobEvent_iType]
    have := Calls.lt_of_getElem?_eq_some hjob
    constructor
    · intro hc; cases hc
    · intro hc; omega
  · rename_i hnone
    exact ⟨fun _ => List.getElem?_eq_none_iff.mp hnone, fun _ => exitEvent_iType i⟩

/-- What is taken from the queue after an exit event is an exit event. -/
theorem Inv.exits_last {p : XLThreadPool} (h : Inv p) :
    p.jobQueue.popped.Pairwise fun r r' => IsExit r.2 → IsExit r'.2 := by
  rw [List.pairwise_iff_getElem]
  intro k k' hk hk' hlt hexit
  obtain ⟨i, e, hi, he⟩ := h.caller.ordered.source
    (show p.jobQueue.popped[k]? = some p.jobQueue.popped[k] from List.getElem?_eq_getElem hk)
  obtain ⟨i', e', hi', he'⟩ := h.caller.ordered.source
    (show p.jobQueue.popped[k']? = some p.jobQueue.popped[k'] from List.getElem?_eq_getElem hk')
  rw [he] at hexit
  obtain ⟨e₀, he₀, htype⟩ := hexit
  cases he₀
  have hlt' := h.pushed_lt hlt hi hi'
  rw [h.pushed_event (List.mem_of_getElem? hi), isExit_eventOf] at htype
  refine ⟨e', he', ?_⟩
  rw [h.pushed_event (List.mem_of_getElem? hi'), isExit_eventOf]
  omega

/-! ### After `Destroy`

A worker leaves its loop by an `Exit`, and those are put behind all jobs.  When all have been joined
every job has been popped, and what was popped has been worked.
-/

/-- Once a worker has got an exit event every job that was pushed has been popped. -/
theorem Inv.jobs_popped {p : XLThreadPool} (h : Inv p) {k : Nat} {r : Nat × Option PoolEvent}
    (hk : p.jobQueue.popped[k]? = some r) (hexit : IsExit r.2) {i : Nat} {e : PoolEvent}
    (hmem : (i, e) ∈ p.jobQueue.pushed) (hi : i < p.added.length) :
    ∃ j, (j, some e) ∈ p.jobQueue.popped := by
  obtain ⟨k', hk'⟩ := List.mem_iff_getElem?.mp hmem
  obtain ⟨i₀, e₀, hi₀, he₀⟩ := h.caller.ordered.source hk
  rw [he₀] at hexit
  obtain ⟨e₁, he₁, htype⟩ := hexit
  cases he₁
  rw [h.pushed_event (List.mem_of_getElem? hi₀), isExit_eventOf] at htype
  have hlt : k' < k := by
    rcases Nat.lt_trichotomy k' k with hlt | heq | hgt
    · exact hlt
    · subst heq
      rw [hi₀, Option.some.injEq, Prod.mk.injEq] at hk'
      omega
    · have := h.pushed_lt hgt hi₀ hk'
      omega
  obtain ⟨j, hj⟩ := h.caller.ordered.place
    (Nat.lt_trans hlt (Calls.lt_of_getElem?_eq_some hk)) hk'
  exact ⟨j, List.mem_of_getElem? hj⟩

theorem Inv.not_created {p : XLThreadPool} (h : Inv p) (hd : p.caller = .destroyed) :
    ¬ p.bCreated = true := by
  rw [h.caller.phase, hd]
  decide

/-- When `Destroy` has returned, a job was worked exactly if its `Put` returned true. -/
theorem Inv.worked_iff {p : XLThreadPool} (h : Inv p) (hd : p.caller = .destroyed)
    (hentered : ∃ w ∈ p.threads, w.entered = true) {i : Nat} {job : UInt64} :
    (i, job) ∈ p.worked ↔ p.added[i]? = some job ∧ job ≠ 0 ∧ p.PutTrue i := by
  constructor
  · intro hmem
    obtain ⟨hjob, hnull, hpushed⟩ := h.worked_sound hmem
    have hi : p.jobQueue.puts[i]? = some _ :=
      List.getElem?_eq_getElem (h.caller.ordered.puts.inRange i _ hpushed)
    have hentry := (h.caller.ordered.puts.mem_iff i _ hi _).mp hpushed
    obtain ⟨b, hb⟩ := h.caller.returned (by rw [hd]; rfl) i _ hi
    refine ⟨hjob, hnull, _, hi, ?_⟩
    cases b with
    | true => exact hb
    | false => simp [QueueRun.putEntry, hb, PutPc.accepted] at hentry
  · rintro ⟨hjob, hnull, c, hi, hc⟩
    have hpushed : (i, eventOf p.added i) ∈ p.jobQueue.pushed := by
      refine (h.caller.ordered.puts.mem_iff i c hi _).mpr ?_
      simp [QueueRun.putEntry, hc, PutPc.accepted, h.caller.events i c hi]
    -- The worker that entered its loop has ended, so it has got an exit event.
    obtain ⟨w, hw, hent⟩ := hentered
    obtain ⟨k, hk⟩ := List.mem_iff_getElem?.mp hw
    have hended := h.join.ended k w hk (by rw [hd]; rfl)
    obtain ⟨r, hr, hexit⟩ := h.workers.exited k w hk hent (Or.inr hended)
    obtain ⟨k', i', hk', -, -⟩ := h.handled_place hr
    obtain ⟨j, hj⟩ := h.jobs_popped hk' ⟨_, rfl, hexit⟩ hpushed
      (Calls.lt_of_getElem?_eq_some hjob)
    obtain ⟨e, he⟩ := h.get_handled (h.not_created hd) (h.caller.ordered.gets.inRange j _ hj)
    have hget := h.workers.kept j e he
    have hentry := (h.caller.ordered.gets.mem_iff j _ hget _).mp hj
    obtain rfl : e = eventOf p.added i := by simpa [QueueRun.getEntry, GetPc.done] using hentry
    rw [h.workers.works]
    exact List.mem_filterMap.mpr ⟨_, he, workOf_eventOf.mpr ⟨job, hjob, hnull, rfl⟩⟩

/-- Nothing moves any more. -/
theorem Inv.destroyed_next {p p' : XLThreadPool} {l : PoolStep} (h : Inv p)
    (hd : p.caller = .destroyed) (hstep : p.next l = some p') : p' = p := by
  have hcreated := h.not_created hd
  have hended {k : Nat} {w : XLThWorkThread} (hk : p.threads[k]? = some w) : w.pc = .ended :=
    h.join.ended k w hk (by rw [hd]; rfl)
  cases moves_of_next hstep with
  | create hc => rcases hc with hc | hc <;> cases hd.symm.trans hc
  | addJob job hc => exact if_neg hcreated
  | destroy hc hc' => exact absurd hc' hcreated
  | destroyNone hc hc' => rfl
  | caller hm =>
      cases hm with
      | launch hc | launchedAll hc | handled hc | given hc | launched hc | launchedForJob hc
      | added hc | putExit hc | putAll hc | exitPut hc | join hc | skip hc | joined hc
      | joinedAll hc => cases hd.symm.trans hc
  | worker hm =>
      cases hm with
      | sync hk hpc | look hk hpc | callGet hk hpc | noQueue hk hpc | fault hk hpc | got hk hpc
      | gotNone hk hpc | handle hk hpc | worked hk hpc | leave hk hpc =>
          cases (hended hk).symm.trans hpc
  | queue hl hrun =>
      rw [h.queue_quiet hcreated hl] at hrun
      cases hrun

theorem Inv.destroyed_exec {p p' : XLThreadPool} {ls : List PoolStep} (h : Inv p)
    (hd : p.caller = .destroyed) (hrun : exec next p ls = some p') : p' = p :=
  exec_invariant (I := fun u => u = p)
    (fun u l u' hu hstep => by subst hu; exact h.destroyed_next hd hstep) rfl hrun

/--
A pool whose `Destroy` has returned, where some worker had entered its loop: `Work()` was called
once for every non-null job whose `Put` returned true and for no other, no job came off the queue
behind an exit event, and `Work()` is not called again.
-/
theorem destroy_drains {maxThread : Int} {dynamic : Bool} {ls : List PoolStep} {p : XLThreadPool}
    (hrun : exec next (new maxThread dynamic) ls = some p) (hd : p.caller = .destroyed)
    (hentered : ∃ w ∈ p.threads, w.entered = true) :
    (∀ i job, (i, job) ∈ p.worked ↔ p.added[i]? = some job ∧ job ≠ 0 ∧ p.PutTrue i) ∧
      (p.worked.map Prod.fst).Nodup ∧
      (p.jobQueue.popped.Pairwise fun r r' => IsExit r.2 → IsExit r'.2) ∧
      ∀ ms p', exec next p ms = some p' → p'.worked = p.worked := by
  have h := inv_exec (inv_new maxThread dynamic) hrun
  refine ⟨fun i job => h.worked_iff hd hentered, h.worked_nodup, h.exits_last, fun ms p' hms => ?_⟩
  rw [h.destroyed_exec hd hms]

/-- One worker, one job and a null one. -/
def oneJob : List PoolStep :=
  let put (i : Nat) : List PoolStep := [.queue (.putLock i), .queue (.putCopy i),
    .queue (.putPush i), .queue (.putUnlock i), .queue (.putGive i), .caller]
  let get (j : Nat) : List PoolStep := [.worker 0, .queue (.getTake j), .queue (.getLock j),
    .queue (.getPop j), .queue (.getUnlock j), .worker 0, .worker 0]
  [.create, .caller, .caller, .caller, .caller, .caller, .worker 0, .worker 0, .addJob 5] ++
    put 0 ++ [.addJob 0] ++ get 0 ++ put 1 ++ [.destroy, .worker 0, .caller] ++ put 2 ++
    [.caller] ++ get 1 ++ get 2 ++ [.worker 0, .caller, .caller, .caller]

theorem exec_oneJob :
    ∃ p, exec next (new 1 false) oneJob = some p ∧ p.caller = .destroyed ∧
      (∃ w ∈ p.threads, w.entered = true) ∧ p.added = [5, 0] := by
  obtain ⟨p, hp, hcheck⟩ := (Option.any_eq_true _ _).mp
    (show (exec next (new 1 false) oneJob).any (fun p => decide (p.caller = .destroyed) &&
      p.threads.any (·.entered) && decide (p.added = [5, 0])) = true by decide)
  simp only [Bool.and_eq_true, decide_eq_true_eq, List.any_eq_true] at hcheck
  exact ⟨p, hp, hcheck.1.1, hcheck.1.2, hcheck.2⟩

theorem destroy_drains_oneJob :
    ∃ p, exec next (new 1 false) oneJob = some p ∧ p.added = [5, 0] ∧
      (∀ i job, (i, job) ∈ p.worked ↔ p.added[i]? = some job ∧ job ≠ 0 ∧ p.PutTrue i) := by
  obtain ⟨p, hp, hd, hentered, hadded⟩ := exec_oneJob
  exact ⟨p, hp, hadded, (destroy_drains hp hd hentered).1⟩

end XLThreadPool

end ServClient
