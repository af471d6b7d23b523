/-
`XLThreadPool`: one thread that calls `Create`, `AddJob` and `Destroy`, and the workers.

The job queue is `QueueRun` with every step of its calls, so a worker waiting in `Get`
and a caller waiting in `Put` wait for that call to return.  Starting a worker is not
one step either: `std::thread` runs it before `m_handle` is assigned, and `m_Allocator`
is assigned last.  A worker that looks at `m_handle` too early does not enter
`RunProgram`, and one that is in there before `m_Allocator` is set calls a method of a
null pointer; no step follows that.

`m_Sync1` and `m_Sync2` are `XLSemaPhore`s.  `m_ThCountGate` is taken by the caller
alone, and `m_iCurrWorkLoad` and `m_bWorking` are not read.
-/
import ServClient.EventQueue

namespace ServClient

/-- `ThreadPoolEvent_Add`. -/
def threadPoolEventAdd : Int := 0

/-- `ThreadPoolEvent_Exit`. -/
def threadPoolEventExit : Int := 1

/-- An event on the job queue.  `call` is the number of the `Put` it was built for; no code reads
it, the log of `Work()` calls does. -/
structure PoolEvent where
  event : XLThreadEvent
  call : Nat
deriving DecidableEq, Repr, Inhabited

/-- `e.SetType(ThreadPoolEvent_Add); e.Write(0, job)`.  A job is the eight bytes of its address. -/
def jobEvent (call : Nat) (job : UInt64) : PoolEvent where
  event :=
    let e := XLThreadEvent.new.setType threadPoolEventAdd
    (e.write 0 (Bytes.ofNat 8 job.toNat)).elim e Prod.fst
  call := call

/-- `e.SetType(ThreadPoolEvent_Exit)`. -/
def exitEvent (call : Nat) : PoolEvent where
  event := XLThreadEvent.new.setType threadPoolEventExit
  call := call

/-- `e.Read(0, job)`. -/
def jobOf (e : XLThreadEvent) : Option UInt64 :=
  (e.read 0 8).map fun bytes => UInt64.ofNat (Bytes.toNat bytes)

/-- Where a worker is. -/
inductive WorkerPc
  /-- In `RunSimpleThread`, before `m_Sync1.Take()`. -/
  | started
  /-- About to look at `m_handle`. -/
  | synced
  /-- About to call `GetEvent`. -/
  | looping
  /-- In `Get` call `j`. -/
  | getting (j : Nat)
  /-- It has the event `Get` call `j` returned. -/
  | handling (j : Nat)
  /-- In `Work()`. -/
  | working
  /-- About to give `m_Sync2`. -/
  | leaving
  | ended
deriving DecidableEq, Repr

/-- A worker, with the semaphores of its thread and the jobs it has worked. -/
structure XLThWorkThread where
  sync1 : XLSemaPhore
  sync2 : XLSemaPhore
  /-- `m_handle` is not null: `IsCreated()`. -/
  handle : Bool
  /-- `m_Allocator` is the pool. -/
  allocator : Bool
  /-- The event `RunProgram` has on its stack. -/
  e : PoolEvent
  pc : WorkerPc
  /-- It has called `GetEvent`. -/
  entered : Bool
deriving DecidableEq, Repr

/-- The new thread runs; `XLSimpleThreads::Create` has still to assign `m_handle`. -/
def XLThWorkThread.spawned : XLThWorkThread where
  sync1 := XLSemaPhore.new.create 0 1
  sync2 := XLSemaPhore.new.create 0 1
  handle := false
  allocator := false
  e := default
  pc := .started
  entered := false

/-- What has been done of `XLThWorkThread::Create`. -/
inductive LaunchStage
  | spawned
  /-- `m_handle` is assigned. -/
  | handled
  /-- `m_Sync1` is given. -/
  | given
deriving DecidableEq, Repr

/-- What goes on after a worker is created. -/
inductive Resume
  | create
  | addJob (job : UInt64)
deriving DecidableEq, Repr

/-- Where the calling thread is. -/
inductive CallerPc
  | fresh
  /-- At the head of the loop of `Create`. -/
  | creating
  | launching (k : Nat) (stage : LaunchStage) (resume : Resume)
  /-- Between calls. -/
  | idle
  /-- In the `Put` of `AddJob`. -/
  | adding
  /-- `DestroyAllJobThreads` has put `k` exit events. -/
  | exiting (k : Nat)
  /-- In its `Put` number `k`. -/
  | exitPut (k : Nat)
  /-- `Destroy` has destroyed `k` workers. -/
  | joining (k : Nat)
  /-- In the `join` of worker `k`. -/
  | waiting (k : Nat)
  | destroyed
deriving DecidableEq, Repr

/-- The pool with its queue, its workers, and where its caller is. -/
structure XLThreadPool where
  bDynamic : Bool
  numMaxThread : Int
  bCreated : Bool
  threads : List XLThWorkThread
  jobQueue : QueueRun PoolEvent
  caller : CallerPc
  /-- A null `m_Allocator` was called. -/
  fault : Bool
  /-- The jobs `AddJob` has put, in order, accepted or not. -/
  added : List UInt64
  /-- The events workers have acted on, each with the `Get` it came from. -/
  handled : List (Nat × PoolEvent)
  /-- The `Work()` calls so far, each with the call of its event. -/
  worked : List (Nat × UInt64)

/-- A call of the pool's one caller, or a step of that call or of a worker. -/
inductive PoolStep
  | create
  | addJob (job : UInt64)
  | destroy
  /-- The call in progress goes on. -/
  | caller
  | worker (k : Nat)
  | queue (l : QueueStep PoolEvent)

namespace XLThreadPool

/-- The constructor; the queue is not created. -/
def new (maxThread : Int) (dynamic : Bool) : XLThreadPool where
  bDynamic := dynamic
  numMaxThread := maxThread
  bCreated := false
  threads := []
  jobQueue := QueueRun.ofQueue (XLEventQueue.new eventQueueConfigMaxSize)
  caller := .fresh
  fault := false
  added := []
  handled := []
  worked := []

/-- The fields of one worker are written. -/
def setWorker (p : XLThreadPool) (k : Nat) (w : XLThWorkThread) : XLThreadPool :=
  { p with threads := p.threads.set k w }

/-- `new XLThWorkThread()` up to the start of its thread. -/
def launch (p : XLThreadPool) (resume : Resume) : XLThreadPool :=
  { p with
    threads := p.threads ++ [XLThWorkThread.spawned]
    caller := .launching p.threads.length .spawned resume }

/-- `m_JobQueue->Put(&e)` of `AddJob`. -/
def putJob (p : XLThreadPool) (job : UInt64) : XLThreadPool :=
  { p with
    jobQueue := p.jobQueue.callPut (jobEvent p.jobQueue.puts.length job)
    added := p.added ++ [job]
    caller := .adding }

/-- `Create` up to its loop.  A dynamic pool starts without workers. -/
def create (p : XLThreadPool) : XLThreadPool :=
  if p.bCreated then p
  else
    { p with
      jobQueue := QueueRun.start eventQueueConfigMaxSize
        (XLEventQueue.multiReader ||| XLEventQueue.multiWriter)
      bCreated := true
      caller := if p.bDynamic then .idle else .creating }

/-- `AddJob` up to its `Put`, or to the worker it starts first.  The outer comparison is made in
`size_t`. -/
def addJob (p : XLThreadPool) (job : UInt64) : XLThreadPool :=
  if p.bCreated then
    if p.bDynamic ∧ (p.threads.length : Int) < p.numMaxThread % 2 ^ 64 then
      if p.threads.length < p.numMaxThread then p.launch (.addJob job) else p.putJob job
    else p.putJob job
  else p

/-- The `Put` the caller waits for has returned; its result is not looked at. -/
def putReturned (p : XLThreadPool) : Bool :=
  match p.jobQueue.puts.getLast? with
  | some ⟨_, .returned _⟩ => true
  | _ => false

/-- The caller goes on with the call it is in. -/
def callerStep (p : XLThreadPool) : Option XLThreadPool :=
  match p.caller with
  | .fresh | .idle | .destroyed => none
  | .creating =>
      if p.threads.length < p.numMaxThread then some (p.launch .create)
      else some { p with caller := .idle }
  | .launching k .spawned resume =>
      p.threads[k]?.map fun w =>
        { p.setWorker k { w with handle := true } with caller := .launching k .handled resume }
  | .launching k .handled resume =>
      p.threads[k]?.map fun w =>
        { p.setWorker k { w with sync1 := w.sync1.give } with
          caller := .launching k .given resume }
  | .launching k .given resume =>
      p.threads[k]?.map fun w =>
        let p := p.setWorker k { w with allocator := true }
        match resume with
        | .create => { p with caller := .creating }
        | .addJob job => p.putJob job
  | .adding => if p.putReturned then some { p with caller := .idle } else none
  | .exiting k =>
      if k < p.threads.length then
        some { p with
          jobQueue := p.jobQueue.callPut (exitEvent p.jobQueue.puts.length)
          caller := .exitPut k }
      else some { p with caller := .joining 0 }
  | .exitPut k => if p.putReturned then some { p with caller := .exiting (k + 1) } else none
  | .joining k =>
      match p.threads[k]? with
      | some w =>
          if w.handle then
            w.sync2.take.map fun sync2 =>
              { p.setWorker k { w with sync1 := w.sync1.destroy, sync2 := sync2.destroy } with
                caller := .waiting k }
          else some { p with caller := .joining (k + 1) }
      | none =>
          some { p with
            jobQueue := { p.jobQueue with queue := p.jobQueue.queue.destroy }
            bCreated := false
            caller := .destroyed }
  | .waiting k =>
      match p.threads[k]? with
      | some w =>
          if w.pc = .ended then
            some { p.setWorker k { w with handle := false } with caller := .joining (k + 1) }
          else none
      | none => none

/-- Worker `k` acts on the event it has got. -/
def handleEvent (p : XLThreadPool) (k : Nat) (w : XLThWorkThread) (j : Nat) : XLThreadPool :=
  let p := { p with handled := p.handled ++ [(j, w.e)] }
  let done := p.setWorker k { w with e := { w.e with event := w.e.event.reset }, pc := .looping }
  if w.e.event.iType = threadPoolEventExit then p.setWorker k { w with pc := .leaving }
  else
    match jobOf w.e.event with
    | some job =>
        if job ≠ 0 then
          { p.setWorker k { w with pc := .working } with
            worked := p.worked ++ [(w.e.call, job)] }
        else done
    | none => done

/-- One step of `RunSimpleThread` and `XLThWorkThread::RunProgram` in worker `k`.  `m_handle` is
not reset before the worker has ended, so one look at it stands for the two that are made. -/
def workerStep (p : XLThreadPool) (k : Nat) : Option XLThreadPool :=
  match p.threads[k]? with
  | none => none
  | some w =>
      match w.pc with
      | .started => w.sync1.take.map fun sync1 =>
          p.setWorker k { w with sync1 := sync1, pc := .synced }
      | .synced => some (p.setWorker k { w with pc := if w.handle then .looping else .leaving })
      | .looping =>
          if w.allocator then
            if p.bCreated then
              some { p.setWorker k
                  { w with pc := .getting p.jobQueue.gets.length, entered := true } with
                jobQueue := p.jobQueue.callGet }
            else some (p.setWorker k { w with pc := .leaving, entered := true })
          else some { p with fault := true }
      | .getting j =>
          match p.jobQueue.gets[j]? with
          | some ⟨.returned true, out⟩ =>
              some (p.setWorker k { w with e := out.getD w.e, pc := .handling j })
          | some ⟨.returned false, _⟩ => some (p.setWorker k { w with pc := .leaving })
          | _ => none
      | .handling j => some (p.handleEvent k w j)
      | .working =>
          some (p.setWorker k
            { w with e := { w.e with event := w.e.event.reset }, pc := .looping })
      | .leaving => some (p.setWorker k { w with sync2 := w.sync2.give, pc := .ended })
      | .ended => none

/-- One step; nothing is done once the program has gone wrong. -/
def next (p : XLThreadPool) (l : PoolStep) : Option XLThreadPool :=
  if p.fault then none
  else
    match l with
    | .create =>
        match p.caller with
        | .fresh | .idle => some p.create
        | _ => none
    | .addJob job =>
        match p.caller with
        | .fresh | .idle | .destroyed => some (p.addJob job)
        | _ => none
    | .destroy =>
        match p.caller with
        | .fresh | .idle | .destroyed =>
            some (if p.bCreated then { p with caller := .exiting 0 } else p)
        | _ => none
    | .caller => p.callerStep
    | .worker k => p.workerStep k
    | .queue l =>
        if l.inside then (p.jobQueue.next l).map fun jobQueue => { p with jobQueue := jobQueue }
        else none

end XLThreadPool

end ServClient
