/-
What one step of a thread pool can do.

A move is a step with its guards: where the caller or the worker was, what it found there
and what it left behind.  The other modules about the pool go by these and do not unfold
`next`.
-/
import ServClient.ThreadPool

namespace ServClient

namespace XLThreadPool

/-- The caller goes on with the call it is in. -/
inductive CallerMoves (p : XLThreadPool) : XLThreadPool → Prop
  | launch (hc : p.caller = .creating) (hmore : p.threads.length < p.numMaxThread) :
      CallerMoves p (p.launch .create)
  | launchedAll (hc : p.caller = .creating) (hall : ¬ p.threads.length < p.numMaxThread) :
      CallerMoves p { p with caller := .idle }
  | handled {k resume w} (hc : p.caller = .launching k .spawned resume)
      (hk : p.threads[k]? = some w) :
      CallerMoves p { p.setWorker k { w with handle := true } with
        caller := .launching k .handled resume }
  | given {k resume w} (hc : p.caller = .launching k .handled resume)
      (hk : p.threads[k]? = some w) :
      CallerMoves p { p.setWorker k { w with sync1 := w.sync1.give } with
        caller := .launching k .given resume }
  | launched {k w} (hc : p.caller = .launching k .given .create) (hk : p.threads[k]? = some w) :
      CallerMoves p { p.setWorker k { w with allocator := true } with caller := .creating }
  | launchedForJob {k job w} (hc : p.caller = .launching k .given (.addJob job))
      (hk : p.threads[k]? = some w) :
      CallerMoves p ((p.setWorker k { w with allocator := true }).putJob job)
  | added (hc : p.caller = .adding) (hret : p.putReturned = true) :
      CallerMoves p { p with caller := .idle }
  | putExit {k} (hc : p.caller = .exiting k) (hmore : k < p.threads.length) :
      CallerMoves p { p with
        jobQueue := p.jobQueue.callPut (exitEvent p.jobQueue.puts.length)
        caller := .exitPut k }
  | putAll {k} (hc : p.caller = .exiting k) (hall : ¬ k < p.threads.length) :
      CallerMoves p { p with caller := .joining 0 }
  | exitPut {k} (hc : p.caller = .exitPut k) (hret : p.putReturned = true) :
      CallerMoves p { p with caller := .exiting (k + 1) }
  | join {k w sync2} (hc : p.caller = .joining k) (hk : p.threads[k]? = some w)
      (hhandle : w.handle = true) (hsync : w.sync2.take = some sync2) :
      CallerMoves p { p.setWorker k
          { w with sync1 := w.sync1.destroy, sync2 := sync2.destroy } with caller := .waiting k }
  | skip {k w} (hc : p.caller = .joining k) (hk : p.threads[k]? = some w)
      (hhandle : ¬ w.handle = true) : CallerMoves p { p with caller := .joining (k + 1) }
  | joined {k w} (hc : p.caller = .waiting k) (hk : p.threads[k]? = some w)
      (hended : w.pc = .ended) :
      CallerMoves p { p.setWorker k { w with handle := false } with caller := .joining (k + 1) }
  | joinedAll {k} (hc : p.caller = .joining k) (hk : p.threads[k]? = none) :
      CallerMoves p { p with
        jobQueue := { p.jobQueue with queue := p.jobQueue.queue.destroy }
        bCreated := false
        caller := .destroyed }

theorem callerMoves {p p' : XLThreadPool} (hstep : p.callerStep = some p') : CallerMoves p p' := by
  unfold callerStep at hstep
  split at hstep
  · cases hstep
  · cases hstep
  · cases hstep
  · rename_i hc
    split at hstep
    · rename_i hmore; cases hstep; exact .launch hc hmore
    · rename_i hall; cases hstep; exact .launchedAll hc hall
  · rename_i k resume hc
    obtain ⟨w, hk, rfl⟩ := Option.map_eq_some_iff.mp hstep
    exact .handled hc hk
  · rename_i k resume hc
    obtain ⟨w, hk, rfl⟩ := Option.map_eq_some_iff.mp hstep
    exact .given hc hk
  · rename_i k resume hc
    obtain ⟨w, hk, rfl⟩ := Option.map_eq_some_iff.mp hstep
    cases resume with
    | create => exact .launched hc hk
    | addJob job => exact .launchedForJob hc hk
  · rename_i hc
    split at hstep
    · rename_i hret; cases hstep; exact .added hc hret
    · cases hstep
  · rename_i k hc
    split at hstep
    · rename_i hmore; cases hstep; exact .putExit hc hmore
    · rename_i hall; cases hstep; exact .putAll hc hall
  · rename_i k hc
    split at hstep
    · rename_i hret; cases hstep; exact .exitPut hc hret
    · cases hstep
  · rename_i k hc
    split at hstep
    · rename_i w hk
      split at hstep
      · rename_i hhandle
        obtain ⟨sync2, hsync, rfl⟩ := Option.map_eq_some_iff.mp hstep
        exact .join hc hk hhandle hsync
      · rename_i hhandle; cases hstep; exact .skip hc hk hhandle
    · rename_i hk; cases hstep; exact .joinedAll hc hk
  · rename_i k hc
    split at hstep
    · rename_i w hk
      split at hstep
      · rename_i hended; cases hstep; exact .joined hc hk hended
      · cases hstep
    · cases hstep

/-- Worker `k` goes on. -/
inductive WorkerMoves (p : XLThreadPool) (k : Nat) : XLThreadPool → Prop
  | sync {w sync1} (hk : p.threads[k]? = some w) (hpc : w.pc = .started)
      (hsync : w.sync1.take = some sync1) :
      WorkerMoves p k (p.setWorker k { w with sync1 := sync1, pc := .synced })
  | look {w} (hk : p.threads[k]? = some w) (hpc : w.pc = .synced) :
      WorkerMoves p k (p.setWorker k { w with pc := if w.handle then .looping else .leaving })
  | callGet {w} (hk : p.threads[k]? = some w) (hpc : w.pc = .looping)
      (halloc : w.allocator = true) (hcreated : p.bCreated = true) :
      WorkerMoves p k { p.setWorker k
          { w with pc := .getting p.jobQueue.gets.length, entered := true } with
        jobQueue := p.jobQueue.callGet }
  | noQueue {w} (hk : p.threads[k]? = some w) (hpc : w.pc = .looping)
      (halloc : w.allocator = true) (hcreated : ¬ p.bCreated = true) :
      WorkerMoves p k (p.setWorker k { w with pc := .leaving, entered := true })
  | fault {w} (hk : p.threads[k]? = some w) (hpc : w.pc = .looping)
      (halloc : ¬ w.allocator = true) : WorkerMoves p k { p with fault := true }
  | got {w j out} (hk : p.threads[k]? = some w) (hpc : w.pc = .getting j)
      (hj : p.jobQueue.gets[j]? = some ⟨.returned true, out⟩) :
      WorkerMoves p k (p.setWorker k { w with e := out.getD w.e, pc := .handling j })
  | gotNone {w j out} (hk : p.threads[k]? = some w) (hpc : w.pc = .getting j)
      (hj : p.jobQueue.gets[j]? = some ⟨.returned false, out⟩) :
      WorkerMoves p k (p.setWorker k { w with pc := .leaving })
  | handle {w j} (hk : p.threads[k]? = some w) (hpc : w.pc = .handling j) :
      WorkerMoves p k (p.handleEvent k w j)
  | worked {w} (hk : p.threads[k]? = some w) (hpc : w.pc = .working) :
      WorkerMoves p k (p.setWorker k
        { w with e := { w.e with event := w.e.event.reset }, pc := .looping })
  | leave {w} (hk : p.threads[k]? = some w) (hpc : w.pc = .leaving) :
      WorkerMoves p k (p.setWorker k { w with sync2 := w.sync2.give, pc := .ended })

theorem workerMoves {p p' : XLThreadPool} {k : Nat} (hstep : p.workerStep k = some p') :
    WorkerMoves p k p' := by
  unfold workerStep at hstep
  split at hstep
  · cases hstep
  rename_i w hk
  split at hstep
  · rename_i hpc
    obtain ⟨sync1, hsync, rfl⟩ := Option.map_eq_some_iff.mp hstep
    exact .sync hk hpc hsync
  · rename_i hpc; cases hstep; exact .look hk hpc
  · rename_i hpc
    split at hstep
    · rename_i halloc
      split at hstep
      · rename_i hcreated; cases hstep; exact .callGet hk hpc halloc hcreated
      · rename_i hcreated; cases hstep; exact .noQueue hk hpc halloc hcreated
    · rename_i halloc; cases hstep; exact .fault hk hpc halloc
  · rename_i j hpc
    split at hstep
    · rename_i out hj; cases hstep; exact .got hk hpc hj
    · rename_i out hj; cases hstep; exact .gotNone hk hpc hj
    · cases hstep
  · rename_i j hpc; cases hstep; exact .handle hk hpc
  · rename_i hpc; cases hstep; exact .worked hk hpc
  · rename_i hpc; cases hstep; exact .leave hk hpc
  · cases hstep

/-- What one step can do, with what it finds. -/
inductive Moves (p : XLThreadPool) : PoolStep → XLThreadPool → Prop
  | create (hc : p.caller = .fresh ∨ p.caller = .idle) : Moves p .create p.create
  | addJob (job) (hc : p.caller = .fresh ∨ p.caller = .idle ∨ p.caller = .destroyed) :
      Moves p (.addJob job) (p.addJob job)
  | destroy (hc : p.caller = .fresh ∨ p.caller = .idle ∨ p.caller = .destroyed)
      (hcreated : p.bCreated = true) : Moves p .destroy { p with caller := .exiting 0 }
  | destroyNone (hc : p.caller = .fresh ∨ p.caller = .idle ∨ p.caller = .destroyed)
      (hcreated : ¬ p.bCreated = true) : Moves p .destroy p
  | caller {p'} (h : CallerMoves p p') : Moves p .caller p'
  | worker {k p'} (h : WorkerMoves p k p') : Moves p (.worker k) p'
  | queue {l run} (hl : l.inside = true) (hrun : p.jobQueue.next l = some run) :
      Moves p (.queue l) { p with jobQueue := run }

theorem moves_of_next {p p' : XLThreadPool} {l : PoolStep} (hstep : p.next l = some p') :
    Moves p l p' := by
  unfold next at hstep
  split at hstep
  · cases hstep
  cases l with
  | create =>
      dsimp only at hstep
      split at hstep
      · rename_i hc; cases hstep; exact .create (Or.inl hc)
      · rename_i hc; cases hstep; exact .create (Or.inr hc)
      · cases hstep
  | addJob job =>
      dsimp only at hstep
      split at hstep
      · rename_i hc; cases hstep; exact .addJob job (Or.inl hc)
      · rename_i hc; cases hstep; exact .addJob job (Or.inr (Or.inl hc))
      · rename_i hc; cases hstep; exact .addJob job (Or.inr (Or.inr hc))
      · cases hstep
  | destroy =>
      have hdestroy (hc : p.caller = .fresh ∨ p.caller = .idle ∨ p.caller = .destroyed) :
          Moves p .destroy (if p.bCreated then { p with caller := .exiting 0 } else p) := by
        split
        · rename_i hcreated; exact .destroy hc hcreated
        · rename_i hcreated; exact .destroyNone hc hcreated
      dsimp only at hstep
      split at hstep
      · rename_i hc; cases hstep; exact hdestroy (Or.inl hc)
      · rename_i hc; cases hstep; exact hdestroy (Or.inr (Or.inl hc))
      · rename_i hc; cases hstep; exact hdestroy (Or.inr (Or.inr hc))
      · cases hstep
  | caller => exact .caller (callerMoves hstep)
  | worker k => exact .worker (workerMoves hstep)
  | queue l =>
      dsimp only at hstep
      split at hstep
      · rename_i hl
        obtain ⟨run, hrun, rfl⟩ := Option.map_eq_some_iff.mp hstep
        exact .queue hl hrun
      · cases hstep

end XLThreadPool

end ServClient
