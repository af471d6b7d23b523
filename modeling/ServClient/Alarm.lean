/-
`XLAlarm` with its threads: the one that calls `SetAlarm` and `Reset`, and every alarm thread
that `SetAlarm` has started.

A step is one access to what the threads share.  `XLSimpleThreads::Create` has the steps of
`ServClient/SimpleThreads.lean`; `join`, `delete` and `m_handle = 0` in `Destroy` are one.  A
thread that joins itself gets an exception which nothing catches, and the process ends.
`m_iMillSec` and `m_pData` are left out, and so is the destructor.
-/
import ServClient.SimpleThreads

namespace ServClient

/-- The alarm with its gate, which is to let one thread at a time ring. -/
structure XLAlarm where
  /-- The `XLSimpleThreads` it is. -/
  base : XLSimpleThreads
  /-- `m_Listener` is set. -/
  listener : Bool
  repeatCount : UInt32
  exit : Bool
  exitKeeper : XLSemaPhore
deriving DecidableEq, Repr

namespace XLAlarm

/-- An alarm as it is constructed; the gate is made with `Create(1, 1)`. -/
def new (listener : Bool) (numberOfTimes : UInt32) : XLAlarm where
  base := XLSimpleThreads.new
  listener := listener
  repeatCount := numberOfTimes
  exit := false
  exitKeeper := XLSemaPhore.new.create 1 1

/-- `Reset`, which asks the thread to end and does not wait. -/
def reset (a : XLAlarm) : XLAlarm := { a with exit := true }

/-- `m_ExitKeeper.Take()`. -/
def take (a : XLAlarm) : Option XLAlarm :=
  a.exitKeeper.take.map fun exitKeeper => { a with exitKeeper := exitKeeper }

/-- `m_ExitKeeper.Give()`. -/
def give (a : XLAlarm) : XLAlarm := { a with exitKeeper := a.exitKeeper.give }

end XLAlarm

/-- Where the call of `SetAlarm` is. -/
inductive SetAlarmPc
  | idle
  /-- About to call `IsCreated`. -/
  | entered
  /-- About to call `Reset`. -/
  | resetting
  /-- Before `m_ExitKeeper.Take()`. -/
  | taking
  /-- Before `m_ExitKeeper.Give()`. -/
  | giving
  /-- About to clear `m_bExit`. -/
  | clearing
  /-- In `XLSimpleThreads::Create`. -/
  | creating (pc : CreatePc)
deriving DecidableEq, Repr

/-- Where an alarm thread is; behind `RunProgram`, with whether it has been in there. -/
inductive AlarmThreadPc
  /-- About to call `GetThreadID`. -/
  | started
  /-- Before `m_Sync1.Take()`. -/
  | identified
  /-- About to call `IsCreated`. -/
  | taken
  /-- In `RunProgram`, before `m_ExitKeeper.Take()`. -/
  | entered
  /-- At the test of the loop. -/
  | looping (itr : UInt32)
  /-- In `Sleep`, or about to call `OnAlarm`. -/
  | sleeping (itr : UInt32)
  /-- Before `m_Sync2.Give()`. -/
  | leaving (ran : Bool)
  /-- In `RanOut`, about to call `IsCreated`. -/
  | ranOut (ran : Bool)
  /-- Before `m_Sync2.Take()`. -/
  | syncing (ran : Bool)
  /-- About to destroy `m_Sync1`. -/
  | destroying1 (ran : Bool)
  /-- About to destroy `m_Sync2`. -/
  | destroying2 (ran : Bool)
  /-- Before `m_handle->join()`. -/
  | joining (ran : Bool)
  /-- Before `m_ExitKeeper.Give()`. -/
  | giving (ran : Bool)
  | ended (ran : Bool)
deriving DecidableEq, Repr

/-- An alarm with every thread it has ever had, and the rings so far. -/
structure AlarmHandOver where
  object : XLAlarm
  owner : SetAlarmPc
  /-- The threads, in the order they were started. -/
  threads : List AlarmThreadPc
  /-- The calls of `OnAlarm`, each as its thread. -/
  alarms : List Nat
  /-- The process has ended. -/
  terminated : Bool
deriving DecidableEq, Repr

/-- What can happen next: a call of the owner, or one step of a thread. -/
inductive HandOverStep
  | setAlarm
  | reset
  /-- `SetAlarm` goes on. -/
  | owner
  | thread (i : Nat)
deriving DecidableEq, Repr

namespace AlarmHandOver

/-- An alarm nobody has set. -/
def new (listener : Bool) (numberOfTimes : UInt32) : AlarmHandOver where
  object := XLAlarm.new listener numberOfTimes
  owner := .idle
  threads := []
  alarms := []
  terminated := false

/-- `Create` goes on; the thread it starts is the next one. -/
def create (s : AlarmHandOver) (pc : CreatePc) : Option AlarmHandOver :=
  (ThreadStart.createStep (s.threads.length - 1)
    { object := s.object.base, create := pc, child := .off, programs := 0 }).map fun t =>
      { s with
        object := { s.object with base := t.object }
        owner :=
          match t.create with
          | .returned _ => .idle
          | pc => .creating pc
        threads := if t.child = .off then s.threads else s.threads ++ [.started] }

/-- `SetAlarm` goes on, through the hand-over and then through `Create`. -/
def ownerStep (s : AlarmHandOver) : Option AlarmHandOver :=
  match s.owner with
  | .idle => none
  | .entered =>
      some { s with owner := if s.object.base.isCreated then .resetting else .clearing }
  | .resetting => some { s with object := s.object.reset, owner := .taking }
  | .taking => s.object.take.map fun object => { s with object := object, owner := .giving }
  | .giving => some { s with object := s.object.give, owner := .clearing }
  | .clearing =>
      some { s with object := { s.object with exit := false }, owner := .creating .entered }
  | .creating pc => s.create pc

/-- Thread `i` goes on to `pc`. -/
def move (s : AlarmHandOver) (i : Nat) (pc : AlarmThreadPc) : AlarmHandOver :=
  { s with threads := s.threads.set i pc }

/-- And the `XLSimpleThreads` changes. -/
def moveBase (s : AlarmHandOver) (i : Nat) (base : XLSimpleThreads) (pc : AlarmThreadPc) :
    AlarmHandOver :=
  { s.move i pc with object := { s.object with base := base } }

/-- `join` of what `m_handle` stands for, called by thread `i`. -/
def join (s : AlarmHandOver) (i : Nat) (ran : Bool) : Option AlarmHandOver :=
  match s.object.base.handle with
  | none => some (s.move i (.giving ran))
  | some id =>
      if id = i then some { s with terminated := true }
      else
        match s.threads[id]? with
        | some (.ended _) =>
            some (s.moveBase i { s.object.base with handle := none } (.giving ran))
        | _ => none

/-- An alarm thread goes on: the thread's entry, the gate, and the loop of `RunProgram`. -/
def threadStep (s : AlarmHandOver) (i : Nat) (pc : AlarmThreadPc) : Option AlarmHandOver :=
  let base := s.object.base
  match pc with
  | .started => some (s.moveBase i base.getThreadID .identified)
  | .identified => base.sync1.take.map fun sync1 => s.moveBase i { base with sync1 := sync1 } .taken
  | .taken => some (s.move i (if base.isCreated then .entered else .leaving false))
  | .entered => s.object.take.map fun object => { s.move i (.looping 0) with object := object }
  | .looping itr =>
      some (s.move i (if !s.object.exit && itr < s.object.repeatCount then .sleeping itr
        else .leaving true))
  | .sleeping itr =>
      some { s.move i (.looping (itr + 1)) with
        alarms := if s.object.listener then s.alarms ++ [i] else s.alarms }
  | .leaving ran => some (s.moveBase i { base with sync2 := base.sync2.give } (.ranOut ran))
  | .ranOut ran => some (s.move i (if base.isCreated then .syncing ran else .giving ran))
  | .syncing ran =>
      base.sync2.take.map fun sync2 => s.moveBase i { base with sync2 := sync2 } (.destroying1 ran)
  | .destroying1 ran =>
      some (s.moveBase i { base with sync1 := base.sync1.destroy } (.destroying2 ran))
  | .destroying2 ran =>
      some (s.moveBase i { base with sync2 := base.sync2.destroy } (.joining ran))
  | .joining ran => s.join i ran
  | .giving ran => some { s.move i (.ended ran) with object := s.object.give }
  | .ended _ => none

/-- One step, of a process that has not been terminated. -/
def next (s : AlarmHandOver) (l : HandOverStep) : Option AlarmHandOver :=
  if s.terminated then none
  else
    match l with
    | .setAlarm => if s.owner = .idle then some { s with owner := .entered } else none
    | .reset => if s.owner = .idle then some { s with object := s.object.reset } else none
    | .owner => s.ownerStep
    | .thread i => s.threads[i]?.bind fun pc => s.threadStep i pc

end AlarmHandOver

end ServClient
