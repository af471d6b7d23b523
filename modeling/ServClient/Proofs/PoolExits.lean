/-
Exit events and the workers that need them.

`DestroyAllJobThreads` puts one exit event for each entry of `m_ThreadList` and does not look
at what `Put` returns.  A worker takes at most one exit event, because it leaves its loop with
it.  So once all are put, the exit events on the queue and those refused are together as many
as the entries of earlier lives and the workers that have not yet taken theirs.
-/
import ServClient.Proofs.PoolLives

namespace ServClient

open Runs

/-! ### Puts that failed -/

/-- Its event was not pushed. -/
def PutPc.failed : PutPc → Bool
  | refused | returned false => true
  | _ => false

namespace QueueRun

variable {α : Type} {s s' : QueueRun α} {l : QueueStep α}

/-- How many events of a kind have been refused. -/
def failed (s : QueueRun α) (q : α → Bool) : Nat :=
  s.puts.countP fun c => q c.event && c.pc.failed

theorem Moves.countP_event (h : Moves s l s') (hl : l.inside = true) (q : α → Bool) :
    s'.puts.countP (fun c => q c.event) = s.puts.countP fun c => q c.event := by
  cases h with
  | put | get => cases hl
  | putLock hi | putCopy hi | accept hi | refuse hi | putUnlock hi | putFail hi | putGive hi =>
      exact Calls.countP_set_same hi rfl
  | getTake | getLock | getPop | getMiss | getUnlock => rfl

theorem Moves.failed_of_room (h : Moves s l s') (hl : l.inside = true)
    (hroom : ∀ i, l = .putPush i → s.queue.q.pending.length < s.queue.q.maxSize) (q : α → Bool) :
    s'.failed q = s.failed q := by
  cases h with
  | put | get => cases hl
  | refuse hi hfull => exact absurd (hroom _ rfl) hfull
  | putLock hi | putCopy hi | accept hi | putUnlock hi | putFail hi | putGive hi =>
      exact Calls.countP_set_same hi (by simp [PutPc.failed])
  | getTake | getLock | getPop | getMiss | getUnlock => rfl

theorem Moves.failed_of_full {i : Nat} (h : Moves s (.putPush i) s')
    (hfull : ¬ s.queue.q.pending.length < s.queue.q.maxSize) (q : α → Bool) :
    ∃ e, s.puts[i]? = some ⟨e, .copied⟩ ∧ s'.failed q = s.failed q + if q e then 1 else 0 := by
  cases h with
  | accept hi hroom => exact absurd hroom hfull
  | @refuse i e hi hfull =>
      refine ⟨e, hi, ?_⟩
      have hset := Calls.countP_set (⟨e, .refused⟩ : PutCall α)
        (fun c => q c.event && c.pc.failed) hi
      simpa [failed, PutPc.failed] using hset

end QueueRun

/-! ### Workers and their exit events -/

/-- The event that ends a worker. -/
def isExit (e : PoolEvent) : Bool := decide (e.event.iType = threadPoolEventExit)

/-- A `Get` that has popped an exit event. -/
def GetCall.gotExit (g : GetCall PoolEvent) : Bool := g.pc.done && g.out.any isExit

/-- It has left its loop. -/
def XLThWorkThread.quit (w : XLThWorkThread) : Bool :=
  w.entered && (decide (w.pc = .leaving) || decide (w.pc = .ended))

namespace XLThreadPool

/-- The worker has dequeued an exit event: its `Get` has, or it has left its loop by it. -/
def dequeuedExit (p : XLThreadPool) (w : XLThWorkThread) : Bool :=
  (w.pc.current.any fun j => p.jobQueue.gets[j]?.any GetCall.gotExit) || w.quit

/-- The workers out of their loops are as many as the exit events acted on. -/
structure Quits (threads : List XLThWorkThread) (handled : List (Nat × PoolEvent)) : Prop where
  entered : ∀ (k : Nat) (w : XLThWorkThread), threads[k]? = some w →
    w.pc.current ≠ none ∨ w.pc = .working → w.entered = true
  count : threads.countP (·.quit) = handled.countP fun r => isExit r.2

namespace Quits

variable {threads : List XLThWorkThread} {handled : List (Nat × PoolEvent)} {k : Nat}
  {w w' : XLThWorkThread}

theorem nil : Quits [] [] := ⟨by simp, rfl⟩

theorem spawn (h : Quits threads handled) :
    Quits (threads ++ [XLThWorkThread.spawned]) handled where
  entered := Calls.forall_concat (by simp [XLThWorkThread.spawned, WorkerPc.current]) h.entered
  count := by
    rw [Calls.countP_concat]
    exact h.count

/-- A worker moves and does not leave its loop. -/
theorem move (h : Quits threads handled) (hk : threads[k]? = some w) (hquit : w'.quit = w.quit)
    (hentered : w'.pc.current ≠ none ∨ w'.pc = .working → w'.entered = true) :
    Quits (threads.set k w') handled where
  entered := Calls.forall_set hk hentered fun i c _ hi => h.entered i c hi
  count := by
    rw [Calls.countP_set_same hk hquit]
    exact h.count

theorem handle {j : Nat} (h : Quits threads handled) (hk : threads[k]? = some w)
    (hpc : w.pc = .handling j) (hentered : w'.entered = w.entered)
    (hexit : w'.pc = .leaving ∨ w'.pc = .ended ↔ w.e.event.iType = threadPoolEventExit) :
    Quits (threads.set k w') (handled ++ [(j, w.e)]) where
  entered := by
    refine Calls.forall_set hk (fun _ => ?_) fun i c _ hi => h.entered i c hi
    rw [hentered]
    exact h.entered k w hk (Or.inl (by rw [hpc]; nofun))
  count := by
    have hw : w.entered = true := h.entered k w hk (Or.inl (by rw [hpc]; nofun))
    have hquit : w'.quit = isExit w.e := by
      rw [XLThWorkThread.quit, hentered, hw, Bool.true_and, ← Bool.decide_or, isExit]
      exact decide_eq_decide.mpr hexit
    have hset := Calls.countP_set w' (·.quit) hk
    rw [show w.quit = false by simp [XLThWorkThread.quit, hpc], hquit] at hset
    rw [Calls.countP_concat, ← h.count]
    simpa using hset

end Quits

theorem Quits.callerMoves {p p' : XLThreadPool} (h : Quits p.threads p.handled)
    (hm : CallerMoves p p') : Quits p'.threads p'.handled := by
  have hhandled : p'.handled = p.handled := by cases hm <;> rfl
  rw [hhandled]
  cases hm.threadsMove with
  | same hthreads => rw [hthreads]; exact h
  | spawn hthreads => rw [hthreads]; exact h.spawn
  | @set k w w' hk hthreads hpc hentered =>
      rw [hthreads]
      refine h.move hk (by rw [XLThWorkThread.quit, hpc, hentered]; rfl) ?_
      rw [hpc, hentered]
      exact h.entered k w hk

theorem Quits.workerMoves {p p' : XLThreadPool} {k : Nat} (h : Quits p.threads p.handled)
    (hinv : Inv p) (hm : WorkerMoves p k p') : Quits p'.threads p'.handled := by
  cases hm with
  | @sync w sync1 hk hpc hsync =>
      exact h.move hk (by simp [XLThWorkThread.quit, hpc]) (by simp [WorkerPc.current])
  | @look w hk hpc =>
      have hent := hinv.workers.notYet k w hk (Or.inr hpc)
      refine h.move hk (by simp [XLThWorkThread.quit, hent]) ?_
      dsimp only
      split <;> simp [WorkerPc.current]
  | @callGet w hk hpc halloc hcreated =>
      exact h.move hk (by simp [XLThWorkThread.quit, hpc]) fun _ => rfl
  | noQueue hk hpc halloc hcreated => exact absurd (hinv.created hk (by simp [hpc])) hcreated
  | fault hk hpc halloc => exact h
  | @got w j out hk hpc hj =>
      exact h.move hk (by simp [XLThWorkThread.quit, hpc])
        fun _ => h.entered k w hk (Or.inl (by rw [hpc]; intro hl; cases hl))
  | gotNone hk hpc hj => exact absurd rfl (hinv.workers.getsTrue _ _ hj)
  | @handle w j hk hpc =>
      obtain ⟨w', heq, ⟨-, hentered⟩, -, -, hexit⟩ := handleEvent_eq p k w j
      rw [heq]
      exact h.handle hk hpc hentered hexit
  | @worked w hk hpc =>
      exact h.move hk (by simp [XLThWorkThread.quit, hpc]) (by simp [WorkerPc.current])
  | @leave w hk hpc =>
      exact h.move hk (by simp [XLThWorkThread.quit, hpc]) (by simp [WorkerPc.current])

/-- Each `Get` is one worker's until it is acted on. -/
theorem Inv.gets_perm {p : XLThreadPool} (h : Inv p) :
    (p.threads.filterMap (·.pc.current) ++ p.handled.map Prod.fst).Perm
      (List.range p.jobQueue.gets.length) := by
  refine List.perm_iff_count.mpr fun j => ?_
  have hhas : p.threads.countP (fun w => w.pc.current == some j) = p.threads.countP (has j) :=
    List.countP_congr fun w _ => by simp [has]
  rw [List.count_append, List.count_filterMap, List.count_range, hhas]
  exact h.workers.current j

/-- So the exit events popped are those the workers have. -/
theorem Inv.countP_dequeuedExit {p : XLThreadPool} (h : Inv p) (hq : Quits p.threads p.handled) :
    p.threads.countP p.dequeuedExit = p.jobQueue.gets.countP GetCall.gotExit := by
  let got (j : Nat) : Bool := p.jobQueue.gets[j]?.any GetCall.gotExit
  have hhandled : (p.handled.map Prod.fst).countP got = p.threads.countP (·.quit) := by
    rw [List.countP_map, hq.count]
    refine List.countP_congr fun ⟨j, e⟩ hr => ?_
    simp [got, h.workers.kept j e hr, GetCall.gotExit, GetPc.done]
  have hcurrent : (p.threads.filterMap (·.pc.current)).countP got =
      p.threads.countP fun w => w.pc.current.any got := by
    rw [List.countP_filterMap]
    exact List.countP_congr fun w _ => by cases w.pc.current <;> simp
  calc p.threads.countP p.dequeuedExit
      = p.threads.countP (fun w => w.pc.current.any got) + p.threads.countP (·.quit) := by
        refine Calls.countP_or fun w _ hcur => ?_
        cases hpc : w.pc <;> simp [hpc, WorkerPc.current, XLThWorkThread.quit] at hcur ⊢
    _ = (p.threads.filterMap (·.pc.current) ++ p.handled.map Prod.fst).countP got := by
        rw [List.countP_append, hcurrent, hhandled]
    _ = (List.range p.jobQueue.gets.length).countP got := h.gets_perm.countP_eq got
    _ = p.jobQueue.gets.countP GetCall.gotExit := Calls.countP_range _ _

end XLThreadPool

/-! ### The exit events of `DestroyAllJobThreads`

`DestroyAllJobThreads` puts one `Exit` for each entry of `m_ThreadList`, and the entries of earlier
lives are among them.  How many it has put is known from where the caller is.
-/

theorem isExit_jobEvent (call : Nat) (job : UInt64) : isExit (jobEvent call job) = false := by
  rw [isExit, jobEvent_iType]
  decide

theorem isExit_exitEvent (call : Nat) : isExit (exitEvent call) = true := by
  rw [isExit, exitEvent_iType]
  decide

namespace CallerPc

/-- In `DestroyAllJobThreads`. -/
def inDestroyAll : CallerPc → Bool
  | exiting _ | exitPut _ => true
  | _ => false

/-- `DestroyAllJobThreads` has returned. -/
def pastDestroyAll : CallerPc → Bool
  | joining _ | waiting _ | destroyed => true
  | _ => false

/-- How many exit events it has put, one for each of `n` entries. -/
def exitsPut (n : Nat) : CallerPc → Nat
  | exiting k => k
  | exitPut k => k + 1
  | joining _ | waiting _ | destroyed => n
  | _ => 0

end CallerPc

namespace PoolLives

variable {s s' : PoolLives} {l : PoolStep}

/-- How many exit events this life has put, refused ones included. -/
def exitPuts (s : PoolLives) : Nat := s.pool.jobQueue.puts.countP fun c => isExit c.event

theorem exitPuts_callPut (run : QueueRun PoolEvent) (e : PoolEvent) :
    (run.callPut e).puts.countP (fun c => isExit c.event) =
      run.puts.countP (fun c => isExit c.event) + if isExit e then 1 else 0 :=
  Calls.countP_concat _ _ _

/-- How many of them have been refused. -/
def refusedExits (s : PoolLives) : Nat := s.pool.jobQueue.failed isExit

/-- How many `Exit`s have been put, and by whom they have been got. -/
structure Exiting (s : PoolLives) : Prop extends Carried s where
  quits : XLThreadPool.Quits s.pool.threads s.pool.handled
  put : s.exitPuts = s.pool.caller.exitsPut s.threadList.length
  putLe : s.exitPuts ≤ s.threadList.length

theorem exiting_new (maxThread : Int) (dynamic : Bool) : Exiting (new maxThread dynamic) where
  toCarried := carried_new maxThread dynamic
  quits := XLThreadPool.Quits.nil
  put := rfl
  putLe := Nat.le_refl 0

theorem Exiting.callerMoves {p : XLThreadPool} (h : Exiting s)
    (hexit : ∀ k, s.pool.caller ≠ .exiting k) (hm : XLThreadPool.CallerMoves s.pool p)
    (hs' : Carried { s with pool := p }) : Exiting { s with pool := p } := by
  have hputs : exitPuts { s with pool := p } = s.exitPuts := by
    cases hm with
    | launchedForJob hc hk =>
        exact (exitPuts_callPut _ _).trans (by rw [isExit_jobEvent]; rfl)
    | putExit hc => exact absurd hc (hexit _)
    | _ => rfl
  have hlen : s.threadList.length ≤ (s.stale ++ p.threads).length := by
    rw [threadList, List.length_append, List.length_append]
    cases hm.threadsMove with
    | same hthreads => rw [hthreads]
    | spawn hthreads => rw [hthreads, List.length_append]; omega
    | set hk hthreads => rw [hthreads, List.length_set]
  have hexits : p.caller.exitsPut (s.stale ++ p.threads).length =
      s.pool.caller.exitsPut s.threadList.length := by
    cases hm with
    | putExit hc | putAll hc => exact absurd hc (hexit _)
    | launch hc | launchedAll hc | handled hc | given hc | launched hc | launchedForJob hc
    | added hc | exitPut hc | join hc | skip hc | joined hc | joinedAll hc =>
        rw [hc]
        simp [threadList, CallerPc.exitsPut, XLThreadPool.launch, XLThreadPool.setWorker,
          XLThreadPool.putJob]
  exact ⟨hs', h.quits.callerMoves hm, hputs.trans (h.put.trans hexits.symm),
    hputs ▸ Nat.le_trans h.putLe hlen⟩

theorem Exiting.moves (h : Exiting s) (hm : Moves s l s') : Exiting s' := by
  have hs' := h.toCarried.moves hm
  have hput := h.put
  have hle := h.putLe
  cases hm with
  | born hc hcreated =>
      refine ⟨hs', XLThreadPool.Quits.nil, ?_, Nat.zero_le _⟩
      dsimp only
      cases s.pool.bDynamic <;> rfl
  | bornAlready | addJobNone | destroyNone => exact h
  | startForJob job hc hcreated hstart =>
      have hidle := h.pool.idle hcreated hc
      rw [hidle] at hput
      exact ⟨hs', h.quits.spawn, hput, Nat.le_trans (Nat.le_of_eq hput) (Nat.zero_le _)⟩
  | addJob job hc hcreated hstart =>
      have hidle := h.pool.idle hcreated hc
      rw [hidle] at hput
      have hputs : exitPuts { s with pool := s.pool.putJob job } = 0 :=
        (exitPuts_callPut _ _).trans (by rw [isExit_jobEvent]; exact hput)
      exact ⟨hs', h.quits, hputs, by rw [hputs]; exact Nat.zero_le _⟩
  | @putExit k hc hmore =>
      rw [hc] at hput
      have hputs : (s.pool.jobQueue.callPut (exitEvent s.pool.jobQueue.puts.length)).puts.countP
          (fun c => isExit c.event) = k + 1 := by
        rw [exitPuts_callPut, isExit_exitEvent]
        exact congrArg (· + 1) hput
      exact ⟨hs', h.quits, hputs, Nat.le_trans (Nat.le_of_eq hputs) hmore⟩
  | @putAll k hc hall =>
      rw [hc] at hput
      have hputs : s.exitPuts = s.threadList.length :=
        Nat.le_antisymm hle (by rw [hput]; exact Nat.le_of_not_lt hall)
      exact ⟨hs', h.quits, hputs, hle⟩
  | pass hc => exact ⟨hs', h.quits, hput, hle⟩
  | caller hexit hjoin hm => exact h.callerMoves hexit hm hs'
  | destroy hc hcreated =>
      rw [h.pool.idle hcreated hc] at hput
      exact ⟨hs', h.quits, hput, hle⟩
  | @worker k p hm =>
      obtain ⟨w, w', hk, hthreads, -⟩ := hm.worker
      have hputs : p.jobQueue.puts = s.pool.jobQueue.puts := by
        cases hm with
        | @handle w j hk hpc => rw [(XLThreadPool.handleEvent_jobQueue _ _ _ _).1]
        | sync | look | callGet | noQueue | fault | got | gotNone | worked | leave => rfl
      have hlen : (s.stale ++ p.threads).length = s.threadList.length := by
        rw [threadList, hthreads, List.length_append, List.length_append, List.length_set]
      refine ⟨hs', h.quits.workerMoves h.pool hm, ?_, ?_⟩
      · show p.jobQueue.puts.countP _ = p.caller.exitsPut (s.stale ++ p.threads).length
        rw [hputs, hlen, hm.rest.1]
        exact hput
      · show p.jobQueue.puts.countP _ ≤ (s.stale ++ p.threads).length
        rw [hputs, hlen]
        exact hle
  | @queue ql run hl hrun =>
      have hcreated : s.pool.bCreated = true := by
        by_contra hcreated
        rw [h.pool.queue_quiet hcreated hl] at hrun
        cases hrun
      have hmoves := QueueRun.moves_of_next (h.pool.caller.queue hcreated).live hrun
      have hputs := hmoves.countP_event hl isExit
      exact ⟨hs', h.quits, hputs.trans hput, Nat.le_trans (Nat.le_of_eq hputs) hle⟩

theorem exiting_exec {maxThread : Int} {dynamic : Bool} {ls : List PoolStep}
    (hrun : exec next (new maxThread dynamic) ls = some s) : Exiting s :=
  exec_invariant (I := Exiting) (fun _ _ _ hu hstep => hu.moves (moves_of_next hstep))
    (exiting_new maxThread dynamic) hrun

/-! ### Counting -/

/-- The exit events on the queue. -/
def pendingExits (s : PoolLives) : Nat := s.pool.jobQueue.queue.q.pending.countP isExit

/-- The workers that have not yet dequeued an exit event. -/
def stillWaiting (s : PoolLives) : Nat :=
  s.pool.threads.countP fun w => !s.pool.dequeuedExit w

/-- What has been pushed is on the queue or has been popped. -/
theorem Exiting.pushed (h : Exiting s) :
    s.pool.threads.countP s.pool.dequeuedExit + s.pendingExits =
      s.pool.jobQueue.puts.countP fun c => isExit c.event && c.pc.accepted := by
  have hordered := h.pool.caller.ordered
  have hpopped : s.pool.jobQueue.popped.countP (fun r => r.2.any isExit) =
      s.pool.jobQueue.gets.countP GetCall.gotExit := by
    rw [hordered.gets.countP_log]
    refine List.countP_congr fun g _ => ?_
    cases hdone : g.pc.done <;> simp [QueueRun.getEntry, GetCall.gotExit, hdone]
  have hpushed : s.pool.jobQueue.pushed.countP (fun r => isExit r.2) =
      s.pool.jobQueue.puts.countP fun c => isExit c.event && c.pc.accepted := by
    rw [hordered.puts.countP_log]
    refine List.countP_congr fun c _ => ?_
    cases hacc : c.pc.accepted <;> simp [QueueRun.putEntry, hacc]
  have horder := congrArg (List.countP (Option.any isExit)) hordered.order
  rw [List.countP_append, List.countP_map, List.countP_map, List.countP_map] at horder
  rw [h.pool.countP_dequeuedExit h.quits, ← hpopped, ← hpushed]
  exact horder

/-- Once all exit events are put: those on the queue and those refused are as many as the entries
of earlier lives and the workers that still need one. -/
theorem Exiting.balance (h : Exiting s) (hpast : s.pool.caller.pastDestroyAll = true) :
    s.pendingExits + s.refusedExits = s.stale.length + s.stillWaiting := by
  have hreturned : CallerInv.Returned s.pool.jobQueue := by
    refine h.pool.caller.returned ?_
    cases hc : s.pool.caller <;> rw [hc] at hpast <;> first | rfl | cases hpast
  have hput : s.exitPuts = s.stale.length + s.pool.threads.length := by
    rw [h.put, ← List.length_append]
    cases hc : s.pool.caller <;> rw [hc] at hpast <;> first | rfl | cases hpast
  have hsplit : s.exitPuts =
      s.pool.jobQueue.puts.countP (fun c => isExit c.event && c.pc.accepted) +
        s.refusedExits := by
    rw [exitPuts, refusedExits, QueueRun.failed, ← Calls.countP_or]
    · refine List.countP_congr fun c hc => ?_
      obtain ⟨i, hi⟩ := List.mem_iff_getElem?.mp hc
      obtain ⟨b, hb⟩ := hreturned i c hi
      cases b <;> simp [hb, PutPc.accepted, PutPc.failed]
    · intro c hc hacc
      obtain ⟨i, hi⟩ := List.mem_iff_getElem?.mp hc
      obtain ⟨b, hb⟩ := hreturned i c hi
      cases b <;> simp [hb, PutPc.accepted, PutPc.failed] at hacc ⊢
  have hworkers : s.pool.threads.length =
      s.pool.threads.countP s.pool.dequeuedExit + s.stillWaiting := by
    rw [List.length_eq_countP_add_countP s.pool.dequeuedExit]
    simp [stillWaiting]
  have := h.pushed
  omega

/-! ### When every worker gets its exit event

Entries of earlier lives bring `Exit`s that nobody needs.  As many can be refused, and no more, and
every worker still gets its own.
-/

/-- Once all are put there is an `Exit` for every worker that waits for one. -/
structure ExitsSuffice (s : PoolLives) : Prop where
  enough : s.pool.caller.pastDestroyAll = true → s.stillWaiting ≤ s.pendingExits
  noneStarves : s.pool.caller.pastDestroyAll = true → ∀ w ∈ s.pool.threads, ∀ j g,
    w.pc = .getting j → s.pool.jobQueue.gets[j]? = some g → g.pc.done = false →
      s.pool.jobQueue.queue.q.pending ≠ []

/-- An exit event that is pushed finds room, or no more have been refused than there are entries
of earlier lives to spare. -/
def ExitHasRoom (s : PoolLives) : PoolStep → Prop
  | .queue (.putPush i) => s.pool.added.length ≤ i →
      (s.pool.jobQueue.queue.q.pending.length : Int) < eventQueueConfigMaxSize ∨
        s.refusedExits < s.stale.length
  | _ => True

/-- What a step does to the number of exit events refused. -/
inductive RefusedMove (s : PoolLives) (l : PoolStep) (s' : PoolLives) : Prop
  | same (hstale : s'.stale = s.stale) (hrefused : s'.refusedExits = s.refusedExits)
  | born (hl : l = .create) (hc : s.pool.caller.inDestroyAll = false)
      (hrefused : s'.refusedExits = 0)
  | refuse {i} (hl : l = .queue (.putPush i)) (hexit : s.pool.added.length ≤ i)
      (hfull : ¬ (s.pool.jobQueue.queue.q.pending.length : Int) < eventQueueConfigMaxSize)
      (hc : s.pool.caller.inDestroyAll = true) (hc' : s'.pool.caller = s.pool.caller)
      (hstale : s'.stale = s.stale) (hrefused : s'.refusedExits = s.refusedExits + 1)

theorem failed_callPut {run : QueueRun PoolEvent} (hrun : run.Inv) (e : PoolEvent) :
    (run.callPut e).failed isExit = run.failed isExit := by
  refine (Calls.countP_concat _ _ _).trans ?_
  simp [hrun.live.created, PutPc.failed, QueueRun.failed]

/-- Calls on the queue move only while the pool is created. -/
theorem Exiting.queue_moves (h : Exiting s) {ql : QueueStep PoolEvent} {run : QueueRun PoolEvent}
    (hl : ql.inside = true) (hrun : s.pool.jobQueue.next ql = some run) :
    s.pool.bCreated = true ∧ QueueRun.Moves s.pool.jobQueue ql run := by
  have hcreated : s.pool.bCreated = true := by
    by_contra hcreated
    rw [h.pool.queue_quiet hcreated hl] at hrun
    cases hrun
  exact ⟨hcreated, QueueRun.moves_of_next (h.pool.caller.queue hcreated).live hrun⟩

/-- A push on a full queue.  It is one of `DestroyAllJobThreads` if its event is an exit event. -/
theorem Exiting.push_full (h : Exiting s) {i : Nat} {run : QueueRun PoolEvent}
    (hrun : s.pool.jobQueue.next (.putPush i) = some run)
    (hfull : ¬ (s.pool.jobQueue.queue.q.pending.length : Int) < eventQueueConfigMaxSize) :
    if s.pool.added.length ≤ i then
      s.pool.caller.inDestroyAll = true ∧ run.failed isExit = s.refusedExits + 1
    else run.failed isExit = s.refusedExits := by
  obtain ⟨hcreated, hmoves⟩ := h.queue_moves rfl hrun
  have hsize := h.pool.caller.size hcreated
  obtain ⟨e, hi, hfailed⟩ := hmoves.failed_of_full (fun hlt => hfull (by rw [hsize] at hlt; omega))
    isExit
  have hevent : e = eventOf s.pool.added i := h.pool.caller.events i _ hi
  have hexit : isExit e = true ↔ s.pool.added.length ≤ i := by
    rw [isExit, decide_eq_true_eq, hevent, XLThreadPool.isExit_eventOf]
  split
  · rename_i hle
    rw [if_pos (hexit.mpr hle)] at hfailed
    refine ⟨?_, hfailed⟩
    -- The caller is in this `Put`, and it is not one of `AddJob`.
    rcases h.pool.caller.waits i _ hi with ⟨b, hb⟩ | ⟨hlast, hput⟩
    · cases hb
    cases hc : s.pool.caller with
    | exitPut k => rfl
    | adding =>
        have := h.pool.caller.adding (by rw [hc]; rfl)
        omega
    | _ => rw [hc] at hput; cases hput
  · rename_i hle
    rw [if_neg fun hc => hle (hexit.mp hc)] at hfailed
    exact hfailed

theorem Exiting.queueMove (h : Exiting s) {ql : QueueStep PoolEvent} {run : QueueRun PoolEvent}
    (hl : ql.inside = true) (hrun : s.pool.jobQueue.next ql = some run) :
    RefusedMove s (.queue ql) { s with pool := { s.pool with jobQueue := run } } := by
  obtain ⟨hcreated, hmoves⟩ := h.queue_moves hl hrun
  have hsize := h.pool.caller.size hcreated
  by_cases hroom : ∀ i, ql = .putPush i →
      (s.pool.jobQueue.queue.q.pending.length : Int) < eventQueueConfigMaxSize
  · refine .same rfl (hmoves.failed_of_room hl (fun i hi => ?_) isExit)
    have := hroom i hi
    rw [hsize]
    omega
  · simp only [not_forall] at hroom
    obtain ⟨i, rfl, hfull⟩ := hroom
    have hpush := h.push_full hrun hfull
    split at hpush
    · rename_i hexit
      exact .refuse rfl hexit hfull hpush.1 rfl rfl hpush.2
    · exact .same rfl hpush

theorem Exiting.refusedMove (h : Exiting s) (hm : Moves s l s') : RefusedMove s l s' := by
  cases hm with
  | born hc hcreated =>
      refine .born rfl ?_ ?_
      · rcases hc with hc | hc | hc <;> rw [hc] <;> rfl
      · simp [refusedExits, QueueRun.failed, XLThreadPool.create, XLThreadPool.new,
          QueueRun.start, QueueRun.ofQueue]
  | bornAlready | addJobNone | destroyNone | destroy | pass | startForJob | putAll =>
      exact .same rfl rfl
  | addJob job hc hcreated hstart =>
      exact .same rfl (failed_callPut (h.pool.caller.queue hcreated) _)
  | putExit hc hmore =>
      exact .same rfl
        (failed_callPut (h.pool.caller.queue (by rw [h.pool.caller.phase, hc]; rfl)) _)
  | caller hexit hjoin hm =>
      cases hm with
      | launchedForJob hc hk =>
          exact .same rfl
            (failed_callPut (h.pool.caller.queue (by rw [h.pool.caller.phase, hc]; rfl)) _)
      | putExit hc => exact absurd hc (hexit _)
      | _ => exact .same rfl rfl
  | worker hm =>
      cases hm with
      | @handle w j hk hpc =>
          refine .same rfl ?_
          rw [refusedExits, (XLThreadPool.handleEvent_jobQueue _ _ _ _).1]
          rfl
      | _ => exact .same rfl rfl
  | queue hl hrun => exact h.queueMove hl hrun

/-- No more exit events have been refused than there are entries to spare. -/
structure Enough (s : PoolLives) : Prop extends Exiting s where
  enough : s.refusedExits ≤ s.stale.length

theorem Enough.next (h : Enough s) (hroom : ExitHasRoom s l) (hstep : s.next l = some s') :
    Enough s' := by
  have hm := moves_of_next hstep
  refine ⟨h.toExiting.moves hm, ?_⟩
  have hle := h.enough
  cases h.refusedMove hm with
  | same hstale hrefused => rw [hstale, hrefused]; exact hle
  | born hl hc hrefused => rw [hrefused]; exact Nat.zero_le _
  | refuse hl hexit hfull hc hc' hstale hrefused =>
      subst hl
      rw [hstale, hrefused]
      exact (hroom hexit).resolve_left hfull

theorem Enough.exitsSuffice (h : Enough s) : ExitsSuffice s := by
  have hsuffice (hpast : s.pool.caller.pastDestroyAll = true) :
      s.stillWaiting ≤ s.pendingExits := by
    have := h.balance hpast
    have := h.enough
    omega
  refine ⟨hsuffice, fun hpast w hw j g hpc hj hdone hempty => ?_⟩
  have hwaits : s.pool.dequeuedExit w = false := by
    simp [XLThreadPool.dequeuedExit, hpc, WorkerPc.current, hj, GetCall.gotExit, hdone,
      XLThWorkThread.quit]
  have hpos : 0 < s.stillWaiting := List.countP_pos_iff.mpr ⟨w, hw, by rw [hwaits]; rfl⟩
  have hle := hsuffice hpast
  rw [pendingExits, hempty, List.countP_nil] at hle
  omega

/-- `DestroyAllJobThreads` goes on or returns. -/
theorem Moves.inDestroyAll (hm : Moves s l s') (h : s.pool.caller.inDestroyAll = true) :
    s'.pool.caller.inDestroyAll = true ∨ s'.pool.caller.pastDestroyAll = true := by
  cases hm with
  | born hc | startForJob job hc | addJob job hc | destroy hc =>
      rcases hc with hc | hc | hc <;> rw [hc] at h <;> cases h
  | bornAlready | addJobNone | destroyNone | pass | queue => exact Or.inl h
  | putExit => exact Or.inl rfl
  | putAll => exact Or.inr rfl
  | worker hm => rw [hm.rest.1]; exact Or.inl h
  | caller hexit hjoin hm =>
      cases hm with
      | putExit | exitPut => exact Or.inl rfl
      | putAll => exact Or.inr rfl
      | launch hc | launchedAll hc | handled hc | given hc | launched hc | launchedForJob hc
      | added hc | join hc | skip hc | joined hc | joinedAll hc => rw [hc] at h; cases h

/-- `DestroyAllJobThreads` is at work, and one worker will miss its exit event. -/
structure Short (s : PoolLives) : Prop extends Exiting s where
  inDestroyAll : s.pool.caller.inDestroyAll = true
  short : s.stale.length < s.refusedExits

theorem Short.next (h : Short s) (hstep : s.next l = some s') : Short s' ∨ ¬ ExitsSuffice s' := by
  have hm := moves_of_next hstep
  have hs' := h.toExiting.moves hm
  have hshort : s'.stale.length < s'.refusedExits := by
    have := h.short
    cases h.refusedMove hm with
    | same hstale hrefused => rw [hstale, hrefused]; exact h.short
    | born hl hc hrefused => rw [h.inDestroyAll] at hc; cases hc
    | refuse hl hexit hfull hc hc' hstale hrefused => rw [hstale, hrefused]; omega
  by_cases hin : s'.pool.caller.inDestroyAll = true
  · exact Or.inl ⟨hs', hin, hshort⟩
  · refine Or.inr fun hsuffice => ?_
    have hpast := (hm.inDestroyAll h.inDestroyAll).resolve_left hin
    have := hs'.balance hpast
    have := hsuffice.enough hpast
    omega

/-- An exit event that finds no room, with no entry to spare. -/
theorem Exiting.short (h : Exiting s) (hroom : ¬ ExitHasRoom s l) (hstep : s.next l = some s') :
    Short s' := by
  have hm := moves_of_next hstep
  have hs' := h.moves hm
  unfold ExitHasRoom at hroom
  split at hroom
  · rename_i i
    simp only [not_forall, not_or, not_lt] at hroom
    obtain ⟨hexit, hfull, hspare⟩ := hroom
    cases hm with
    | queue hl hrun =>
        have hpush := h.push_full hrun (not_lt.mpr hfull)
        rw [if_pos hexit] at hpush
        exact ⟨hs', hpush.1, Nat.lt_of_le_of_lt hspare
          (Nat.lt_of_lt_of_eq (Nat.lt_succ_self _) hpush.2.symm)⟩
  · exact absurd trivial hroom

/--
A pool with any history.  If every exit event pushed found room, or an entry of an earlier life
had one to spare, then from when `DestroyAllJobThreads` has returned there are exit events on
the queue for all workers that need one; and in a run that does not stop in the middle of
`DestroyAllJobThreads`, only then.
-/
theorem exits_suffice_iff {maxThread : Int} {dynamic : Bool} {ls : List PoolStep}
    (hrun : exec next (new maxThread dynamic) ls = some s) :
    (Along next ExitHasRoom (new maxThread dynamic) ls →
      Throughout next ExitsSuffice (new maxThread dynamic) ls) ∧
    (s.pool.caller.inDestroyAll = false →
      Throughout next ExitsSuffice (new maxThread dynamic) ls →
        Along next ExitHasRoom (new maxThread dynamic) ls) := by
  have hnew : Enough (new maxThread dynamic) := ⟨exiting_new maxThread dynamic, Nat.le_refl 0⟩
  constructor
  · exact throughout_of_along (I := Enough) (fun _ _ _ hu hroom hstep => hu.next hroom hstep)
      (fun _ hu => hu.exitsSuffice) hnew
  · intro hout hall
    by_contra hmiss
    obtain ⟨before, l, after, u, v, rfl, hbefore, hroom, hstep, hafter⟩ := exists_miss hrun hmiss
    have hshort := (exiting_exec hbefore).short hroom hstep
    have hlater := (hall.tail hbefore).2 v hstep
    have hend := trapped (J := Short) (fun _ _ _ hu hl => hu.next hl) hshort hlater hafter
    rw [hend.inDestroyAll] at hout
    cases hout

/-- One worker, one job and a null one. -/
theorem exits_suffice_iff_oneJob :
    ∃ s, exec next (new 1 false) XLThreadPool.oneJob = some s ∧
      (Throughout next ExitsSuffice (new 1 false) XLThreadPool.oneJob ↔
        Along next ExitHasRoom (new 1 false) XLThreadPool.oneJob) := by
  obtain ⟨p, hp, hd, -⟩ := XLThreadPool.exec_oneJob
  have hrun : exec next (new 1 false) XLThreadPool.oneJob = some (firstLife p) :=
    exec_firstLife (XLThreadPool.inv_new 1 false) hp
  have hiff := exits_suffice_iff hrun
  exact ⟨_, hrun, hiff.2 (by rw [firstLife, hd]; rfl), hiff.1⟩

end PoolLives

namespace XLThreadPool

/-- `Destroy` up to its joins, where the exit event of the one worker is refused. -/
theorem Ready.destroy_full {p : XLThreadPool} {evs : List PoolEvent} (h : Ready p .idle evs)
    (hfull : ¬ evs.length < 256) :
    ∃ ls p', exec next p ls = some p' ∧ Ready p' (.joining 0) evs ∧ p'.added = p.added := by
  obtain ⟨w, hw, -⟩ := h.worker
  have hbegin : p.next .destroy = some { p with caller := .exiting 0 } := by
    simp [next, h.fault, h.caller, h.created]
  have h₁ := h.move hbegin rfl
  have hexit : next { p with caller := .exiting 0 } .caller = some { p with
      jobQueue := p.jobQueue.callPut (exitEvent p.jobQueue.puts.length)
      caller := .exitPut 0 } := by
    simp [next, h.fault, callerStep, hw]
  obtain ⟨ls, q, hls, h₂, hadded, -⟩ := h₁.put_full hfull p.added _ hexit callerStep_exitPut rfl
  obtain ⟨w', hw', -⟩ := h₂.worker
  have hjoin : q.next .caller = some { q with caller := .joining 0 } := by
    simp [next, h₂.fault, callerStep, h₂.caller, hw']
  have hrun := exec_append_some (exec_append_some (exec_single hbegin) hls) (exec_single hjoin)
  exact ⟨_, _, hrun, h₂.move hjoin rfl, hadded⟩

end XLThreadPool

namespace PoolLives

/-- 256 jobs wait when `Destroy` is called, the exit event is refused, and when the worker has
worked them all it stands before an empty queue with `Destroy` about to join it. -/
theorem exit_refused_256 :
    ∃ ls p, exec next (new 1 false) ls = some (firstLife p) ∧ p.caller = .joining 0 ∧
      p.added = List.replicate 256 1 ∧ p.jobQueue.queue.q.pending = [] ∧
      (∃ w, p.threads = [w] ∧ w.pc = .looping) ∧
      ¬ Throughout next ExitsSuffice (new 1 false) ls := by
  obtain ⟨p₀, hls₀, h₀, hadded₀⟩ := XLThreadPool.ready_startup
  obtain ⟨ls₁, p₁, hls₁, hadded₁, h₁⟩ := XLThreadPool.Ready.addJobs 1 256 (by decide) h₀ hadded₀
  obtain ⟨ls₂, p₂, hls₂, h₂, hadded₂⟩ := h₁.destroy_full (by simp)
  rw [← List.append_nil (List.map _ _)] at h₂
  obtain ⟨ls₃, p₃, hls₃, h₃, hadded₃⟩ := XLThreadPool.Ready.workAll (by decide) _ h₂
  have hrun : exec next (new 1 false) _ = some (firstLife p₃) :=
    exec_firstLife (XLThreadPool.inv_new 1 false)
      (exec_append_some (exec_append_some hls₀ hls₁) (exec_append_some hls₂ hls₃))
  obtain ⟨w, hw, hpc, -⟩ := h₃.worker
  refine ⟨_, p₃, hrun, h₃.caller, ?_, h₃.pending, ⟨w, hw, hpc⟩, fun hall => ?_⟩
  · rw [hadded₃, hadded₂, hadded₁]
  · have henough := (hall.last hrun).enough (by rw [firstLife, h₃.caller]; rfl)
    have hwaits : p₃.dequeuedExit w = false := by
      simp [XLThreadPool.dequeuedExit, hpc, WorkerPc.current, XLThWorkThread.quit]
    have hnone : (firstLife p₃).pendingExits = 0 := by
      rw [pendingExits, firstLife, h₃.pending]
      rfl
    have hone : (firstLife p₃).stillWaiting = 1 := by
      rw [stillWaiting, firstLife, hw]
      simp [hwaits]
    omega

end PoolLives

end ServClient
