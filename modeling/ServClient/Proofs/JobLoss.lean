/-
When `AddJob` loses a job.

`AddJob` does not look at what `Put` returns, and `Put` refuses an event when the queue
holds `XLEventQueueConfig_MaxSize` events.  So every job is worked exactly if no job
was pushed at such a moment; 257 jobs added while the worker is busy lose one.
-/
import ServClient.Proofs.ThreadPool

namespace ServClient

open Runs

namespace XLThreadPool

/-- The queue has room when the event of a non-null job is pushed. -/
def HasRoom (p : XLThreadPool) (l : PoolStep) : Prop :=
  ∀ i job, l = .queue (.putPush i) → p.added[i]? = some job → job ≠ 0 →
    (p.jobQueue.queue.q.pending.length : Int) < eventQueueConfigMaxSize

/-! ### What a step does to the calls of `Put` -/

theorem addJob_puts (p : XLThreadPool) (job : UInt64) :
    (p.addJob job).jobQueue.puts = p.jobQueue.puts ∧ (p.addJob job).added = p.added ∨
      p.bCreated = true ∧ p.addJob job = p.putJob job := by
  unfold addJob
  by_cases hcreated : p.bCreated = true
  · rw [if_pos hcreated]
    split
    · split
      · exact Or.inl ⟨rfl, rfl⟩
      · exact Or.inr ⟨hcreated, rfl⟩
    · exact Or.inr ⟨hcreated, rfl⟩
  · rw [if_neg hcreated]
    exact Or.inl ⟨rfl, rfl⟩

/-- What a step can do to the calls of `Put`. -/
inductive PutsMove (p : XLThreadPool) (l : PoolStep) (p' : XLThreadPool) : Prop
  | same (hputs : p'.jobQueue.puts = p.jobQueue.puts) (hadded : p'.added = p.added)
  | job (hcreated : p.bCreated = true) (hlen : p.jobQueue.puts.length = p.added.length)
      (job : UInt64) (e : PoolEvent) (hqueue : p'.jobQueue = p.jobQueue.callPut e)
      (hadded : p'.added = p.added ++ [job])
  | exit (hcreated : p.bCreated = true) (e : PoolEvent)
      (hqueue : p'.jobQueue = p.jobQueue.callPut e) (hadded : p'.added = p.added)
  | goesOn (hcreated : p.bCreated = true) (ql : QueueStep PoolEvent) (hl : l = .queue ql)
      (hmoves : QueueRun.Moves p.jobQueue ql p'.jobQueue) (hadded : p'.added = p.added)

theorem putsMove_caller {p p' : XLThreadPool} (h : Inv p) (hm : CallerMoves p p') :
    PutsMove p .caller p' := by
  have hphase := h.caller.phase
  cases hm with
  | launchedForJob hc hk =>
      exact .job (by rw [hphase, hc]; rfl) (h.caller.adding (by rw [hc]; rfl)) _ _ rfl rfl
  | putExit hc hmore => exact .exit (by rw [hphase, hc]; rfl) _ rfl rfl
  | launch | launchedAll | handled | given | launched | added | putAll | exitPut | join | skip
  | joined | joinedAll => exact .same rfl rfl

theorem handleEvent_jobQueue (p : XLThreadPool) (k : Nat) (w : XLThWorkThread) (j : Nat) :
    (p.handleEvent k w j).jobQueue = p.jobQueue ∧ (p.handleEvent k w j).added = p.added := by
  obtain ⟨w', heq, -⟩ := handleEvent_eq p k w j
  rw [heq]
  exact ⟨rfl, rfl⟩

theorem putsMove_worker {p p' : XLThreadPool} {k : Nat} (hm : WorkerMoves p k p') :
    PutsMove p (.worker k) p' := by
  cases hm with
  | @handle w j hk hpc =>
      obtain ⟨hqueue, hadded⟩ := handleEvent_jobQueue p k w j
      exact .same (by rw [hqueue]) hadded
  | sync | look | callGet | noQueue | fault | got | gotNone | worked | leave => exact .same rfl rfl

theorem queue_moves {p p' : XLThreadPool} {ql : QueueStep PoolEvent} (h : Inv p)
    (hstep : p.next (.queue ql) = some p') :
    p.bCreated = true ∧ QueueRun.Moves p.jobQueue ql p'.jobQueue ∧ p'.added = p.added := by
  cases moves_of_next hstep with
  | queue hl hrun =>
      by_cases hcreated : p.bCreated = true
      · exact ⟨hcreated, QueueRun.moves_of_next (h.caller.queue hcreated).live hrun, rfl⟩
      · rw [h.queue_quiet hcreated hl] at hrun
        cases hrun

theorem putsMove_next {p p' : XLThreadPool} {l : PoolStep} (h : Inv p)
    (hstep : p.next l = some p') : PutsMove p l p' := by
  have hphase := h.caller.phase
  cases moves_of_next hstep with
  | @queue ql run hl hrun =>
      obtain ⟨hcreated, hmoves, hadded⟩ := queue_moves h hstep
      exact .goesOn hcreated ql rfl hmoves hadded
  | create hc =>
      rcases hc with hc | hc
      · rw [h.fresh hc]
        exact .same rfl rfl
      · rw [create, if_pos (by rw [hphase, hc]; rfl)]
        exact .same rfl rfl
  | addJob job hc =>
      rcases addJob_puts p job with ⟨hputs, hadded⟩ | ⟨hcreated, heq⟩
      · exact .same hputs hadded
      · have hidle := h.idle hcreated hc
        rw [heq]
        exact .job hcreated (h.caller.adding (by rw [hidle]; rfl)) job _ rfl rfl
  | destroy hc hcreated => exact .same rfl rfl
  | destroyNone hc hcreated => exact .same rfl rfl
  | caller hm => exact putsMove_caller h hm
  | worker hm => exact putsMove_worker hm

/-! ### A refused job

A `Put` is refused by its push, where it finds no room, and nobody is told: `AddJob` does not look
at what `Put` returns.
-/

/-- `Put` call `i` was refused. -/
def Refused (i : Nat) (p : XLThreadPool) : Prop :=
  ∃ c, p.jobQueue.puts[i]? = some c ∧ (c.pc = .refused ∨ c.pc = .returned false)

theorem refused_move {s s' : QueueRun PoolEvent} {l : QueueStep PoolEvent}
    (h : QueueRun.Moves s l s') {i : Nat}
    (hs : ∃ c, s.puts[i]? = some c ∧ (c.pc = .refused ∨ c.pc = .returned false)) :
    ∃ c, s'.puts[i]? = some c ∧ (c.pc = .refused ∨ c.pc = .returned false) := by
  cases h with
  | put e => exact Calls.exists_concat _ hs
  | putLock hi hfree | putCopy hi | accept hi hroom | refuse hi hfull | putUnlock hi
  | putFail hi | putGive hi =>
      exact Calls.exists_set hi (by simp) hs
  | get | getTake hi hpass | getLock hi | getPop hi hpop | getMiss hi hpop | getUnlock hi =>
      exact hs

/-- A call is refused by its push, where there is no room. -/
theorem refused_origin {s s' : QueueRun PoolEvent} {l : QueueStep PoolEvent}
    (h : QueueRun.Moves s l s') {i : Nat} {c : PutCall PoolEvent} (hi : s'.puts[i]? = some c)
    (hc : c.pc = .refused ∨ c.pc = .returned false) :
    (∃ d, s.puts[i]? = some d ∧ (d.pc = .refused ∨ d.pc = .returned false)) ∨
      (l = .putPush i ∧ ¬ s.queue.q.pending.length < s.queue.q.maxSize) := by
  cases h with
  | put e =>
      rcases Calls.getElem?_concat hi with ⟨-, rfl⟩ | hold
      · simp at hc
      · exact Or.inl ⟨c, hold, hc⟩
  | putLock hj hfree | putCopy hj | accept hj hroom | putUnlock hj | putGive hj =>
      rcases Calls.getElem?_set hj hi with ⟨-, rfl⟩ | ⟨-, hold⟩
      · simp at hc
      · exact Or.inl ⟨c, hold, hc⟩
  | refuse hj hfull =>
      rcases Calls.getElem?_set hj hi with ⟨rfl, -⟩ | ⟨-, hold⟩
      · exact Or.inr ⟨rfl, hfull⟩
      · exact Or.inl ⟨c, hold, hc⟩
  | putFail hj =>
      rcases Calls.getElem?_set hj hi with ⟨rfl, -⟩ | ⟨-, hold⟩
      · exact Or.inl ⟨_, hj, Or.inl rfl⟩
      · exact Or.inl ⟨c, hold, hc⟩
  | get | getTake hj hpass | getLock hj | getPop hj hpop | getMiss hj hpop | getUnlock hj =>
      exact Or.inl ⟨c, hi, hc⟩

/-- `AddJob` call `i` put this job, and it was refused. -/
def Lost (i : Nat) (job : UInt64) (p : XLThreadPool) : Prop :=
  p.added[i]? = some job ∧ Refused i p

theorem lost_next {p p' : XLThreadPool} {l : PoolStep} {i : Nat} {job : UInt64} (h : Inv p)
    (hs : Lost i job p) (hstep : p.next l = some p') : Lost i job p' := by
  obtain ⟨hjob, hrefused⟩ := hs
  unfold Lost Refused at *
  cases putsMove_next h hstep with
  | same hputs hadded => rw [hputs, hadded]; exact ⟨hjob, hrefused⟩
  | job hcreated hlen job' e hqueue hadded =>
      rw [hqueue, hadded, List.getElem?_append_left (Calls.lt_of_getElem?_eq_some hjob)]
      exact ⟨hjob, Calls.exists_concat _ hrefused⟩
  | exit hcreated e hqueue hadded =>
      rw [hqueue, hadded]
      exact ⟨hjob, Calls.exists_concat _ hrefused⟩
  | goesOn hcreated ql hl hmoves hadded =>
      rw [hadded]
      exact ⟨hjob, refused_move hmoves hrefused⟩

theorem lost_exec {p p' : XLThreadPool} {ls : List PoolStep} {i : Nat} {job : UInt64} (h : Inv p)
    (hs : Lost i job p) (hrun : exec next p ls = some p') : Lost i job p' :=
  (exec_invariant (I := fun u => Inv u ∧ Lost i job u)
    (fun _ _ _ hu hstep => ⟨inv_next hu.1 hstep, lost_next hu.1 hu.2 hstep⟩) ⟨h, hs⟩ hrun).2

theorem not_putTrue_of_refused {p : XLThreadPool} {i : Nat} (h : Refused i p) : ¬ p.PutTrue i := by
  rintro ⟨c, hi, hc⟩
  obtain ⟨d, hd, hdc⟩ := h
  cases hi.symm.trans hd
  rw [hc] at hdc
  rcases hdc with hdc | hdc <;> cases hdc

/-- A step that finds no room refuses the job. -/
theorem lost_of_full {p p' : XLThreadPool} {l : PoolStep} (h : Inv p)
    (hstep : p.next l = some p') (hfull : ¬ HasRoom p l) :
    ∃ i job, job ≠ 0 ∧ Lost i job p' := by
  simp only [HasRoom, not_forall] at hfull
  obtain ⟨i, job, rfl, hjob, hnull, hlen⟩ := hfull
  obtain ⟨hcreated, hmoves, hadded⟩ := queue_moves h hstep
  have hsize := h.caller.size hcreated
  refine ⟨i, job, hnull, by rw [hadded]; exact hjob, ?_⟩
  unfold Refused
  generalize p'.jobQueue = run at hmoves ⊢
  cases hmoves with
  | accept hi hroom =>
      rw [hsize] at hroom
      exact absurd (by omega) hlen
  | refuse hi hno =>
      exact ⟨_, List.getElem?_set_self (Calls.lt_of_getElem?_eq_some hi), Or.inl rfl⟩

/-- No non-null job has been refused. -/
def NoneRefused (p : XLThreadPool) : Prop :=
  ∀ i job, p.added[i]? = some job → job ≠ 0 → ¬ Refused i p

theorem noneRefused_new (maxThread : Int) (dynamic : Bool) :
    NoneRefused (new maxThread dynamic) := by
  intro i job hjob
  simp [new] at hjob

/-- A step that finds room refuses no job. -/
theorem noneRefused_next {p p' : XLThreadPool} {l : PoolStep} (h : Inv p) (hs : NoneRefused p)
    (hroom : HasRoom p l) (hstep : p.next l = some p') : NoneRefused p' := by
  intro i job hjob hnull hrefused
  cases putsMove_next h hstep with
  | same hputs hadded =>
      unfold Refused at hrefused
      rw [hputs] at hrefused
      rw [hadded] at hjob
      exact hs i job hjob hnull hrefused
  | job hcreated hlen job' e hqueue hadded =>
      obtain ⟨c, hi, hc⟩ := hrefused
      rw [hqueue] at hi
      rcases Calls.getElem?_concat hi with ⟨-, rfl⟩ | hold
      · simp [(h.caller.queue hcreated).live.created] at hc
      · have hlt := Calls.lt_of_getElem?_eq_some hold
        rw [hadded, List.getElem?_append_left (by omega)] at hjob
        exact hs i job hjob hnull ⟨c, hold, hc⟩
  | exit hcreated e hqueue hadded =>
      obtain ⟨c, hi, hc⟩ := hrefused
      rw [hqueue] at hi
      rw [hadded] at hjob
      rcases Calls.getElem?_concat hi with ⟨-, rfl⟩ | hold
      · simp [(h.caller.queue hcreated).live.created] at hc
      · exact hs i job hjob hnull ⟨c, hold, hc⟩
  | goesOn hcreated ql hl hmoves hadded =>
      rw [hadded] at hjob
      obtain ⟨c, hi, hc⟩ := hrefused
      rcases refused_origin hmoves hi hc with hold | ⟨rfl, hfull⟩
      · exact hs i job hjob hnull hold
      · have hlt := hroom i job hl hjob hnull
        rw [h.caller.size hcreated] at hfull
        omega

/-! ### No job is lost, when -/

/--
A pool whose `Destroy` has returned, where some worker had entered its loop: every non-null job
was worked, once, if and only if each found room in the queue when it was pushed.
-/
theorem every_job_worked_iff {maxThread : Int} {dynamic : Bool} {ls : List PoolStep}
    {p : XLThreadPool} (hrun : exec next (new maxThread dynamic) ls = some p)
    (hd : p.caller = .destroyed) (hentered : ∃ w ∈ p.threads, w.entered = true) :
    (∀ i job, p.added[i]? = some job → job ≠ 0 →
      (i, job) ∈ p.worked ∧ (p.worked.map Prod.fst).count i = 1) ↔
    Along next HasRoom (new maxThread dynamic) ls := by
  have hnew := inv_new maxThread dynamic
  have h := inv_exec hnew hrun
  constructor
  · intro hall
    by_contra hmiss
    obtain ⟨before, l, after, u, v, -, hbefore, hfull, hstep, hafter⟩ := exists_miss hrun hmiss
    have hu := inv_exec hnew hbefore
    obtain ⟨i, job, hnull, hlost⟩ := lost_of_full hu hstep hfull
    obtain ⟨hjob, hrefused⟩ := lost_exec (inv_next hu hstep) hlost hafter
    obtain ⟨-, -, htrue⟩ := (h.worked_iff hd hentered).mp (hall i job hjob hnull).1
    exact not_putTrue_of_refused hrefused htrue
  · intro hroom i job hjob hnull
    have hnone : NoneRefused p :=
      (exec_invariant_along (I := fun u => Inv u ∧ NoneRefused u)
        (fun _ _ _ hu hq hstep => ⟨inv_next hu.1 hstep, noneRefused_next hu.1 hu.2 hq hstep⟩)
        ⟨hnew, noneRefused_new _ _⟩ hroom hrun).2
    have hmem : (i, job) ∈ p.worked := by
      refine (h.worked_iff hd hentered).mpr ⟨hjob, hnull, ?_⟩
      have hlt : i < p.jobQueue.puts.length :=
        Nat.lt_of_lt_of_le (Calls.lt_of_getElem?_eq_some hjob) h.caller.addedLe
      have hi := List.getElem?_eq_getElem hlt
      obtain ⟨b, hb⟩ := h.caller.returned (by rw [hd]; rfl) i _ hi
      cases b with
      | true => exact ⟨_, hi, hb⟩
      | false => exact absurd ⟨_, hi, Or.inr hb⟩ (hnone i job hjob hnull)
    refine ⟨hmem, ?_⟩
    rw [h.worked_nodup.count, if_pos (List.mem_map_of_mem (f := Prod.fst) hmem)]

theorem every_job_worked_iff_oneJob :
    ∃ p, exec next (new 1 false) oneJob = some p ∧
      ((∀ i job, p.added[i]? = some job → job ≠ 0 →
        (i, job) ∈ p.worked ∧ (p.worked.map Prod.fst).count i = 1) ↔
      Along next HasRoom (new 1 false) oneJob) := by
  obtain ⟨p, hp, hd, hentered, -⟩ := exec_oneJob
  exact ⟨p, hp, every_job_worked_iff hp hd hentered⟩

/-! ### 257 jobs for one worker

The pool below has one worker that is about to call `GetEvent`.  The caller adds 257 jobs before
the worker gets to run; the queue has room for 256.
-/

/-- One worker at the head of its loop, nobody in a call, and `evs` on the queue. -/
structure Ready (p : XLThreadPool) (pc : CallerPc) (evs : List PoolEvent) : Prop where
  inv : Inv p
  fault : p.fault = false
  dynamic : p.bDynamic = false
  caller : p.caller = pc
  active : pc.active = true
  worker : ∃ w, p.threads = [w] ∧ w.pc = .looping ∧ w.allocator = true ∧ w.handle = true ∧
    w.sync2 = XLSemaPhore.new.create 0 1
  readers : p.jobQueue.queue.mut0.owner = none
  writers : p.jobQueue.queue.mut1.owner = none
  pending : p.jobQueue.queue.q.pending = evs
  permits : p.jobQueue.queue.sem.permits.available = evs.length

namespace Ready

variable {p : XLThreadPool} {pc : CallerPc} {evs : List PoolEvent}

theorem created (h : Ready p pc evs) : p.bCreated = true := by
  rw [h.inv.caller.phase, h.caller]
  exact h.active

theorem live (h : Ready p pc evs) : p.jobQueue.Live := (h.inv.caller.queue h.created).live

theorem room_iff (h : Ready p pc evs) :
    p.jobQueue.queue.q.pending.length < p.jobQueue.queue.q.maxSize ↔ evs.length < 256 := by
  rw [h.inv.caller.size h.created, h.pending]
  exact Iff.rfl

end Ready

/-- The steps of a call on the queue are steps of the pool. -/
theorem exec_queue {qs : List (QueueStep PoolEvent)} {p : XLThreadPool} {run : QueueRun PoolEvent}
    (hf : p.fault = false) (hinside : ∀ l ∈ qs, l.inside = true)
    (hrun : exec QueueRun.next p.jobQueue qs = some run) :
    exec next p (qs.map .queue) = some { p with jobQueue := run } :=
  exec_lift (fun run => { p with jobQueue := run }) PoolStep.queue
    (fun l hl u v hstep => by simp [next, hf, hinside l hl, hstep]) hrun

/-- The caller begins a `Put`, the `Put` runs, and the caller goes on. -/
theorem exec_callPut {p : XLThreadPool} (hf : p.fault = false) {l : PoolStep}
    {run run' : QueueRun PoolEvent} {inPut after : CallerPc} {added : List UInt64}
    (hl : p.next l = some { p with jobQueue := run, caller := inPut, added := added })
    {qs : List (QueueStep PoolEvent)} (hinside : ∀ ql ∈ qs, ql.inside = true)
    (hqs : exec QueueRun.next run qs = some run') {e : PoolEvent} {b : Bool}
    (hlast : run'.puts.getLast? = some ⟨e, .returned b⟩)
    (hafter : ∀ q : XLThreadPool, q.caller = inPut → q.putReturned = true →
      q.callerStep = some { q with caller := after }) :
    exec next p (l :: (qs.map .queue ++ [.caller])) =
      some { p with jobQueue := run', caller := after, added := added } := by
  refine exec_cons_eq_some.mpr ⟨_, hl, exec_append_some (exec_queue hf hinside hqs) ?_⟩
  refine exec_single ?_
  rw [next, if_neg (by simpa using hf)]
  exact hafter { p with jobQueue := run', caller := inPut, added := added } rfl
    (by simp [putReturned, hlast])

/-- The caller's `Put` finds room and returns. -/
theorem Ready.put {p : XLThreadPool} {pc : CallerPc} {evs : List PoolEvent} (h : Ready p pc evs)
    (hroom : evs.length < 256) {inPut after : CallerPc} (added : List UInt64) (e : PoolEvent)
    {l : PoolStep}
    (hl : p.next l = some { p with
      jobQueue := p.jobQueue.callPut e, caller := inPut, added := added })
    (hafter : ∀ q : XLThreadPool, q.caller = inPut → q.putReturned = true →
      q.callerStep = some { q with caller := after }) (hactive : after.active = true) :
    ∃ ls p', exec next p ls = some p' ∧ Ready p' after (evs ++ [e]) ∧ p'.added = added := by
  have hput := QueueRun.exec_put h.live h.writers (h.room_iff.mpr hroom) e
  have hrun := exec_callPut h.fault hl (by simp [QueueStep.inside]) hput List.getLast?_concat hafter
  refine ⟨_, _, hrun, ?_, rfl⟩
  exact {
    inv := inv_exec h.inv hrun
    fault := h.fault
    dynamic := h.dynamic
    caller := rfl
    active := hactive
    worker := h.worker
    readers := h.readers
    writers := h.writers
    pending := by
      show (p.jobQueue.queue.q.push e).1.pending = evs ++ [e]
      rw [(XLLFQ.push_room (h.room_iff.mpr hroom) e).2, h.pending]
    permits := by
      show p.jobQueue.queue.sem.lower.permits.available = _
      rw [XLSemaPhore.permits_lower, List.length_append, List.length_singleton]
      have := h.permits
      dsimp only
      omega }

theorem next_addJob {p : XLThreadPool} {evs : List PoolEvent} (h : Ready p .idle evs)
    (job : UInt64) : p.next (.addJob job) = some { p with
      jobQueue := p.jobQueue.callPut (jobEvent p.jobQueue.puts.length job)
      caller := .adding
      added := p.added ++ [job] } := by
  simp [next, h.fault, h.caller, addJob, h.created, h.dynamic, putJob]

theorem callerStep_adding (q : XLThreadPool) (hc : q.caller = .adding)
    (hret : q.putReturned = true) : q.callerStep = some { q with caller := .idle } := by
  simp [callerStep, hc, hret]

theorem callerStep_exitPut {k : Nat} (q : XLThreadPool) (hc : q.caller = .exitPut k)
    (hret : q.putReturned = true) : q.callerStep = some { q with caller := .exiting (k + 1) } := by
  simp [callerStep, hc, hret]

/-- Adding jobs while there is room. -/
theorem Ready.addJobs {p : XLThreadPool} (job : UInt64) :
    ∀ (n : Nat), n ≤ 256 → Ready p .idle [] → p.added = [] →
      ∃ ls p', exec next p ls = some p' ∧ p'.added = List.replicate n job ∧
        Ready p' .idle ((List.range n).map fun i => jobEvent i job) := by
  intro n
  induction n with
  | zero => intro _ h hadded; exact ⟨[], p, rfl, hadded, h⟩
  | succ n ih =>
      intro hn h hadded
      obtain ⟨ls, q, hrun, hq, hready⟩ := ih (by omega) h hadded
      have hlen : q.jobQueue.puts.length = n := by
        rw [hready.inv.caller.adding (by rw [hready.caller]; rfl), hq, List.length_replicate]
      obtain ⟨ms, r, hms, hready', hr⟩ := hready.put (by simp; omega) _ _ (next_addJob hready job)
        callerStep_adding rfl
      refine ⟨ls ++ ms, r, exec_append_some hrun hms, ?_, ?_⟩
      · rw [hr, hq, List.replicate_succ']
      · rw [List.range_succ, List.map_append, List.map_singleton, ← hlen]
        rw [hlen] at hready'
        simpa [hlen] using hready'

/-- The caller's `Put` finds no room and returns all the same. -/
theorem Ready.put_full {p : XLThreadPool} {pc : CallerPc} {evs : List PoolEvent}
    (h : Ready p pc evs) (hfull : ¬ evs.length < 256) {inPut after : CallerPc}
    (added : List UInt64) (e : PoolEvent) {l : PoolStep}
    (hl : p.next l = some { p with
      jobQueue := p.jobQueue.callPut e, caller := inPut, added := added })
    (hafter : ∀ q : XLThreadPool, q.caller = inPut → q.putReturned = true →
      q.callerStep = some { q with caller := after }) (hactive : after.active = true) :
    ∃ ls p', exec next p ls = some p' ∧ Ready p' after evs ∧ p'.added = added ∧
      Refused p.jobQueue.puts.length p' := by
  have hno := fun hc => hfull (h.room_iff.mp hc)
  have hput := QueueRun.exec_put_full h.live h.writers hno e
  have hrun := exec_callPut h.fault hl (by simp [QueueStep.inside]) hput List.getLast?_concat hafter
  refine ⟨_, _, hrun, ?_, rfl, ⟨e, .returned false⟩, ?_, Or.inr rfl⟩
  · exact {
      inv := inv_exec h.inv hrun
      fault := h.fault
      dynamic := h.dynamic
      caller := rfl
      active := hactive
      worker := h.worker
      readers := h.readers
      writers := h.writers
      pending := (XLLFQ.push_full hno _).2.trans h.pending
      permits := h.permits }
  · exact List.getElem?_concat_length

/-- One job more than there is room for. -/
theorem Ready.addJob_full {p : XLThreadPool} {evs : List PoolEvent} (h : Ready p .idle evs)
    (hfull : ¬ evs.length < 256) (job : UInt64) :
    ∃ ls p', exec next p ls = some p' ∧ Ready p' .idle evs ∧ p'.added = p.added ++ [job] ∧
      Lost p.added.length job p' := by
  have hlen : p.jobQueue.puts.length = p.added.length :=
    h.inv.caller.adding (by rw [h.caller]; rfl)
  obtain ⟨ls, q, hls, hready, hadded, hrefused⟩ :=
    h.put_full hfull _ _ (next_addJob h job) callerStep_adding rfl
  rw [hlen] at hrefused
  exact ⟨ls, q, hls, hready, hadded, by rw [hadded]; exact List.getElem?_concat_length, hrefused⟩

/-- The worker calls `GetEvent` and comes back with the oldest event. -/
theorem Ready.getEvent {p : XLThreadPool} {pc : CallerPc} {e : PoolEvent} {evs : List PoolEvent}
    (h : Ready p pc (e :: evs)) :
    ∃ ls p' w j, exec next p ls = some p' ∧ p'.threads = [w] ∧ w.pc = .handling j ∧ w.e = e ∧
      w.entered = true ∧ w.allocator = true ∧ w.handle = true ∧
      w.sync2 = XLSemaPhore.new.create 0 1 ∧ p'.fault = false ∧ p'.bDynamic = false ∧
      p'.caller = pc ∧ p'.added = p.added ∧ p'.jobQueue.queue.mut0.owner = none ∧
      p'.jobQueue.queue.mut1.owner = none ∧ p'.jobQueue.queue.q.pending = evs ∧
      p'.jobQueue.queue.sem.permits.available = evs.length := by
  obtain ⟨w, hw, hpc, halloc, hhandle, hsync⟩ := h.worker
  have hpermits := h.permits
  have hpass : p.jobQueue.queue.sem.Passes := by
    rw [XLSemaPhore.passes_iff, hpermits, List.length_cons]
    omega
  obtain ⟨⟨q, e'⟩, hpop⟩ : ∃ r, p.jobQueue.queue.q.pop = some r := by
    rw [← Option.isSome_iff_exists, Option.isSome_iff_ne_none]
    intro hnone
    rw [XLLFQ.pop_eq_none, h.pending] at hnone
    cases hnone
  have hpending := XLLFQ.pop_eq_some hpop
  rw [h.pending, List.cons.injEq] at hpending
  obtain ⟨rfl, hpending⟩ := hpending
  have hget := QueueRun.exec_get h.live h.readers hpass hpop
  have hcall : p.next (.worker 0) = some { p with
      threads := [{ w with pc := .getting p.jobQueue.gets.length, entered := true }]
      jobQueue := p.jobQueue.callGet } := by
    simp [next, h.fault, workerStep, hw, hpc, halloc, h.created, setWorker]
  have hqueue := exec_queue
    (p := { p with
      threads := [{ w with pc := .getting p.jobQueue.gets.length, entered := true }]
      jobQueue := p.jobQueue.callGet }) h.fault (by simp [QueueStep.inside]) hget
  have hrun := exec_append_some (exec_single hcall) hqueue
  refine ⟨_, { p with
    threads := [{ w with
      e := e, pc := .handling p.jobQueue.gets.length, entered := true }]
    jobQueue := { p.jobQueue with
      queue := { p.jobQueue.queue with q := q, sem := p.jobQueue.queue.sem.raise }
      gets := p.jobQueue.gets ++ [⟨.returned true, some e⟩]
      popped := p.jobQueue.popped ++ [(p.jobQueue.gets.length, some e)] } }, _,
    p.jobQueue.gets.length, exec_append_some hrun (exec_single (l := .worker 0) ?_), rfl, rfl, rfl,
    rfl, halloc, hhandle, hsync, h.fault, h.dynamic, h.caller, rfl, h.readers, h.writers,
    hpending.symm, ?_⟩
  · simp [next, h.fault, workerStep, setWorker]
  · show p.jobQueue.queue.sem.raise.permits.available = _
    rw [XLSemaPhore.permits_raise]
    rw [List.length_cons] at hpermits
    dsimp only
    omega

/-- The worker takes a job off the queue and works it. -/
theorem Ready.work {p : XLThreadPool} {pc : CallerPc} {i : Nat} {job : UInt64}
    {evs : List PoolEvent} (hjob : job ≠ 0) (h : Ready p pc (jobEvent i job :: evs)) :
    ∃ ls p', exec next p ls = some p' ∧ Ready p' pc evs ∧ p'.added = p.added := by
  obtain ⟨ls, q, w, j, hrun, hw, hpc, he, -, halloc, hhandle, hsync, hf, hd, hc, hadded, hr, hwr,
    hpending, hpermits⟩ := h.getEvent
  have htype : ¬ (jobEvent i job).event.iType = threadPoolEventExit := by
    rw [jobEvent_iType]
    decide
  have hhandled : q.next (.worker 0) = some { q with
      threads := [{ w with pc := .working }]
      handled := q.handled ++ [(j, jobEvent i job)]
      worked := q.worked ++ [(i, job)] } := by
    simp [next, hf, workerStep, hw, hpc, handleEvent, he, htype, jobOf_jobEvent, hjob, setWorker]
  have hdone : next { q with
      threads := [{ w with pc := .working }]
      handled := q.handled ++ [(j, jobEvent i job)]
      worked := q.worked ++ [(i, job)] } (.worker 0) = some { q with
      threads := [{ w with e := { w.e with event := w.e.event.reset }, pc := .looping }]
      handled := q.handled ++ [(j, jobEvent i job)]
      worked := q.worked ++ [(i, job)] } := by
    simp [next, hf, workerStep, setWorker]
  have hall := exec_append_some hrun (exec_append_some (exec_single hhandled) (exec_single hdone))
  refine ⟨_, _, hall, ?_, hadded⟩
  exact {
    inv := inv_exec h.inv hall
    fault := hf
    dynamic := hd
    caller := hc
    active := h.active
    worker := ⟨_, rfl, rfl, halloc, hhandle, hsync⟩
    readers := hr
    writers := hwr
    pending := hpending
    permits := hpermits }

/-- All the jobs in front of the exit event. -/
theorem Ready.workAll {pc : CallerPc} {job : UInt64} (hjob : job ≠ 0) {rest : List PoolEvent} :
    ∀ (is : List Nat) {p : XLThreadPool}, Ready p pc (is.map (fun i => jobEvent i job) ++ rest) →
      ∃ ls p', exec next p ls = some p' ∧ Ready p' pc rest ∧ p'.added = p.added := by
  intro is
  induction is with
  | nil => intro p h; exact ⟨[], p, rfl, h, rfl⟩
  | cons i more ih =>
      intro p h
      obtain ⟨ls, q, hls, hq, hadded⟩ := Ready.work hjob h
      obtain ⟨ms, r, hms, hr, hadded'⟩ := ih hq
      exact ⟨ls ++ ms, r, exec_append_some hls hms, hr, hadded'.trans hadded⟩

/-- The exit event, and the rest of `Destroy`. -/
theorem Ready.finish {p : XLThreadPool} {i : Nat} (h : Ready p (.joining 0) [exitEvent i]) :
    ∃ ls p', exec next p ls = some p' ∧ p'.caller = .destroyed ∧ p'.added = p.added ∧
      ∃ w ∈ p'.threads, w.entered = true := by
  obtain ⟨ls, q, w, j, hrun, hw, hpc, he, hent, halloc, hhandle, hsync, hf, hd, hc, hadded, -⟩ :=
    h.getEvent
  have hhandled : q.next (.worker 0) = some { q with
      threads := [{ w with pc := .leaving }]
      handled := q.handled ++ [(j, exitEvent i)] } := by
    simp [next, hf, workerStep, hw, hpc, handleEvent, he, exitEvent_iType, setWorker]
  have hend : exec next { q with
      threads := [{ w with pc := .leaving }]
      handled := q.handled ++ [(j, exitEvent i)] } [.worker 0, .caller, .caller, .caller] =
      some { q with
        threads := [{ w with
          sync1 := w.sync1.destroy, sync2 := ⟨0, 0, false⟩, handle := false, pc := .ended }]
        handled := q.handled ++ [(j, exitEvent i)]
        jobQueue := { q.jobQueue with queue := q.jobQueue.queue.destroy }
        bCreated := false
        caller := .destroyed } := by
    simp [exec_cons, next, hf, hc, workerStep, callerStep, setWorker, hsync, hhandle,
      XLSemaPhore.create, XLSemaPhore.new, XLSemaPhore.give, XLSemaPhore.take, XLSemaPhore.lower,
      XLSemaPhore.raise, XLSemaPhore.destroy, XLSemaPhore.Passes]
  exact ⟨_, _, exec_append_some hrun (exec_append_some (exec_single hhandled) hend), rfl, hadded,
    _, List.mem_singleton_self _, hent⟩

/-- `Create` with one worker, and the worker's way to its loop. -/
def startup : List PoolStep :=
  [.create, .caller, .caller, .caller, .caller, .caller, .worker 0, .worker 0]

theorem ready_startup : ∃ p, exec next (new 1 false) startup = some p ∧ Ready p .idle [] ∧
    p.added = [] := by
  refine ⟨_, rfl, ?_, rfl⟩
  exact {
    inv := inv_exec (inv_new 1 false) (show exec next (new 1 false) startup = some _ from rfl)
    fault := rfl
    dynamic := rfl
    caller := rfl
    active := rfl
    worker := ⟨_, rfl, rfl, rfl, rfl, rfl⟩
    readers := rfl
    writers := rfl
    pending := rfl
    permits := rfl }

theorem Ready.move {p : XLThreadPool} {pc pc' : CallerPc} {evs : List PoolEvent}
    (h : Ready p pc evs) {l : PoolStep} (hl : p.next l = some { p with caller := pc' })
    (hactive : pc'.active = true) : Ready { p with caller := pc' } pc' evs :=
  { h with inv := inv_next h.inv hl, caller := rfl, active := hactive }

/-- `Destroy` up to its joins, where the exit event finds room. -/
theorem Ready.destroy {p : XLThreadPool} {evs : List PoolEvent} (h : Ready p .idle evs)
    (hroom : evs.length < 256) :
    ∃ ls p' i, exec next p ls = some p' ∧ Ready p' (.joining 0) (evs ++ [exitEvent i]) ∧
      p'.added = p.added := by
  obtain ⟨w, hw, -⟩ := h.worker
  have hbegin : p.next .destroy = some { p with caller := .exiting 0 } := by
    simp [next, h.fault, h.caller, h.created]
  have h₁ := h.move hbegin rfl
  have hexit : next { p with caller := .exiting 0 } .caller = some { p with
      jobQueue := p.jobQueue.callPut (exitEvent p.jobQueue.puts.length)
      caller := .exitPut 0 } := by
    simp [next, h.fault, callerStep, hw]
  obtain ⟨ls, q, hls, h₂, hadded⟩ := h₁.put hroom p.added _ hexit callerStep_exitPut rfl
  obtain ⟨w', hw', -⟩ := h₂.worker
  have hjoin : q.next .caller = some { q with caller := .joining 0 } := by
    simp [next, h₂.fault, callerStep, h₂.caller, hw']
  have hrun := exec_append_some (exec_append_some (exec_single hbegin) hls) (exec_single hjoin)
  exact ⟨_, _, _, hrun, h₂.move hjoin rfl, hadded⟩

/-- The last of 257 jobs is not worked. -/
theorem job_257_lost :
    ∃ ls p, exec next (new 1 false) ls = some p ∧ p.caller = .destroyed ∧
      (∃ w ∈ p.threads, w.entered = true) ∧ p.added = List.replicate 257 1 ∧
      ¬ ∀ i job, p.added[i]? = some job → job ≠ 0 → (i, job) ∈ p.worked := by
  have hjob : (1 : UInt64) ≠ 0 := by decide
  obtain ⟨p₀, hls₀, h₀, hadded₀⟩ := ready_startup
  obtain ⟨ls₁, p₁, hls₁, hadded₁, h₁⟩ := Ready.addJobs 1 256 (by decide) h₀ hadded₀
  obtain ⟨ls₂, p₂, hls₂, h₂, hadded₂, hlost⟩ := h₁.addJob_full (by simp) 1
  -- The worker takes one event before `Destroy`, so that its exit event is not refused as well.
  rw [List.range_succ_eq_map, List.map_cons] at h₂
  obtain ⟨ls₃, p₃, hls₃, h₃, hadded₃⟩ := h₂.work hjob
  obtain ⟨ls₄, p₄, i, hls₄, h₄, hadded₄⟩ := h₃.destroy (by simp)
  obtain ⟨ls₅, p₅, hls₅, h₅, hadded₅⟩ := Ready.workAll hjob _ h₄
  obtain ⟨ls₆, p₆, hls₆, hd, hadded₆, hentered⟩ := h₅.finish
  have hto := exec_append_some (exec_append_some hls₀ hls₁) hls₂
  have hfrom := exec_append_some (exec_append_some hls₃ hls₄) (exec_append_some hls₅ hls₆)
  have hrun := exec_append_some hto hfrom
  refine ⟨_, p₆, hrun, hd, hentered, ?_, fun hall => ?_⟩
  · rw [hadded₆, hadded₅, hadded₄, hadded₃, hadded₂, hadded₁, ← List.replicate_succ']
  · obtain ⟨hadded, hrefused⟩ := lost_exec h₂.inv hlost hfrom
    have hmem := hall _ 1 hadded hjob
    have h := inv_exec (inv_new 1 false) hrun
    exact not_putTrue_of_refused hrefused ((h.worked_iff hd hentered).mp hmem).2.2

end XLThreadPool

end ServClient
