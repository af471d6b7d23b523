/-
`XLThreadPool` over any number of lives: `Create`, `AddJob` calls, `Destroy`, and again.

`ServClient/ThreadPool.lean` has one life.  `m_ThreadList` keeps its entries when the pool is
destroyed, so in a later life the workers of the earlier ones stand before its own.  They
have been joined, but they count: `AddJob` compares `m_ThreadList.size()`, and
`DestroyAllJobThreads` puts an exit event for each entry.  The loop of `Create` counts from
zero.  `Create` makes a new job queue, and the rest of a life is as in the first.

The logs of what was added, handled and worked are those of the life.
-/
import ServClient.ThreadPool

namespace ServClient

/-- A pool over all its lives. -/
structure PoolLives where
  /-- The entries of `m_ThreadList` left from earlier lives. -/
  stale : List XLThWorkThread
  /-- The pool in this life; its workers are the rest of `m_ThreadList`. -/
  pool : XLThreadPool
  /-- How many entries of `stale` the loop of `Destroy` has gone past. -/
  passed : Nat

namespace PoolLives

/-- A pool as it is constructed. -/
def new (maxThread : Int) (dynamic : Bool) : PoolLives :=
  { stale := [], pool := XLThreadPool.new maxThread dynamic, passed := 0 }

/-- `m_ThreadList`. -/
def threadList (s : PoolLives) : List XLThWorkThread := s.stale ++ s.pool.threads

/-- The caller goes somewhere else. -/
def setCaller (s : PoolLives) (caller : CallerPc) : PoolLives :=
  { s with pool := { s.pool with caller := caller } }

/-- A new life begins, unless there is one. -/
def create (s : PoolLives) : PoolLives :=
  if s.pool.bCreated then s
  else
    { stale := s.threadList
      pool := (XLThreadPool.new s.pool.numMaxThread s.pool.bDynamic).create
      passed := 0 }

/-- `AddJob` up to its `Put`, or to the worker it starts first. -/
def addJob (s : PoolLives) (job : UInt64) : PoolLives :=
  if s.pool.bCreated then
    if s.pool.bDynamic ∧ (s.threadList.length : Int) < s.pool.numMaxThread % 2 ^ 64 then
      if s.threadList.length < s.pool.numMaxThread then
        { s with pool := s.pool.launch (.addJob job) }
      else { s with pool := s.pool.putJob job }
    else { s with pool := s.pool.putJob job }
  else s

/-- The caller goes on with the call it is in.  `Destroy` of a worker that is not created does
nothing, and one of an earlier life is not (`Carried.stale`). -/
def callerStep (s : PoolLives) : Option PoolLives :=
  match s.pool.caller with
  | .exiting k =>
      if k < s.threadList.length then
        some { s with pool := { s.pool with
          jobQueue := s.pool.jobQueue.callPut (exitEvent s.pool.jobQueue.puts.length)
          caller := .exitPut k } }
      else some (s.setCaller (.joining 0))
  | .joining _ =>
      match s.stale[s.passed]? with
      | some w => if w.handle then none else some { s with passed := s.passed + 1 }
      | none => s.pool.callerStep.map fun pool => { s with pool := pool }
  | _ => s.pool.callerStep.map fun pool => { s with pool := pool }

/-- One step, of a pool that has not touched a deleted thread. -/
def next (s : PoolLives) (l : PoolStep) : Option PoolLives :=
  if s.pool.fault then none
  else
    match l with
    | .create =>
        match s.pool.caller with
        | .fresh | .idle | .destroyed => some s.create
        | _ => none
    | .addJob job =>
        match s.pool.caller with
        | .fresh | .idle | .destroyed => some (s.addJob job)
        | _ => none
    | .caller => s.callerStep
    | .destroy => (s.pool.next .destroy).map fun pool => { s with pool := pool }
    | .worker k => (s.pool.next (.worker k)).map fun pool => { s with pool := pool }
    | .queue l => (s.pool.next (.queue l)).map fun pool => { s with pool := pool }

end PoolLives

end ServClient
