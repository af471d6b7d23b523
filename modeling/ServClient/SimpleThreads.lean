/-
`XLSimpleThreads::Create`, and the thread it starts, in `RunSimpleThread`.

`Create` may find the object in any state: it does not look whether there is a thread
already, and `Create` of a semaphore does nothing to one that is created.  `new std::thread`
starts the thread before `m_handle` is assigned, so each step of the one may come between
any two of the other.

The `IsCreated` test and the call of `RunProgram` are two steps.  `RunProgram` is virtual;
here it is a call that is counted, and returns.
-/
import ServClient.SemaPhore

namespace ServClient

/-- The thread object: two semaphores, and the thread it stands for. -/
structure XLSimpleThreads where
  sync1 : XLSemaPhore
  sync2 : XLSemaPhore
  /-- The thread `m_handle` stands for. -/
  handle : Option Nat
  threadID : Option Nat
deriving DecidableEq, Repr

namespace XLSimpleThreads

/-- The constructor. -/
def new : XLSimpleThreads where
  sync1 := XLSemaPhore.new
  sync2 := XLSemaPhore.new
  handle := none
  threadID := none

/-- `IsCreated`. -/
def isCreated (o : XLSimpleThreads) : Bool := o.handle.isSome

/-- `GetThreadID`. -/
def getThreadID (o : XLSimpleThreads) : XLSimpleThreads :=
  match o.handle with
  | some id => { o with threadID := some id }
  | none => o

/-- `Destroy` of an object whose thread has ended; `none` while it has to wait for `m_Sync2`. -/
def destroy (o : XLSimpleThreads) : Option XLSimpleThreads :=
  if o.isCreated then
    o.sync2.take.map fun sync2 =>
      { o with sync1 := o.sync1.destroy, sync2 := sync2.destroy, handle := none }
  else some o

end XLSimpleThreads

/-- Where `Create` is. -/
inductive CreatePc
  | entered
  /-- `m_Sync1` is created. -/
  | gate
  /-- And `m_Sync2`. -/
  | ready
  /-- The thread runs; `m_handle` is not assigned. -/
  | spawned
  | handled
  /-- `m_Sync1` is given. -/
  | given
  | returned (ret : Bool)
deriving DecidableEq, Repr

/-- Where the new thread is. -/
inductive ChildPc
  | off
  /-- About to call `GetThreadID`. -/
  | started
  /-- Before `m_Sync1.Take()`. -/
  | identified
  /-- About to call `IsCreated`. -/
  | taken
  /-- About to call `RunProgram`. -/
  | created
  /-- About to give `m_Sync2`. -/
  | leaving
  | ended
deriving DecidableEq, Repr

/-- The caller of `Create` goes on, or the new thread does. -/
inductive StartStep
  | create
  | child
deriving DecidableEq, Repr

/-- A thread that is being started, and where both sides are. -/
structure ThreadStart where
  object : XLSimpleThreads
  create : CreatePc
  child : ChildPc
  /-- How many times it has called `RunProgram`. -/
  programs : Nat
deriving DecidableEq, Repr

namespace ThreadStart

/-- `Create` is called on an object. -/
def start (object : XLSimpleThreads) : ThreadStart :=
  { object := object, create := .entered, child := .off, programs := 0 }

/-- `id` is the new thread. -/
def createStep (id : Nat) (s : ThreadStart) : Option ThreadStart :=
  match s.create with
  | .entered =>
      let o := { s.object with sync1 := s.object.sync1.create 0 1 }
      some { s with object := o, create := if o.sync1.created then .gate else .returned false }
  | .gate =>
      let o := { s.object with sync2 := s.object.sync2.create 0 1 }
      if o.sync2.created then some { s with object := o, create := .ready }
      else
        some { s with
          object := { o with sync1 := o.sync1.destroy }, create := .returned false }
  | .ready => some { s with create := .spawned, child := .started }
  | .spawned => some { s with object := { s.object with handle := some id }, create := .handled }
  | .handled =>
      some { s with
        object := { s.object with sync1 := s.object.sync1.give }, create := .given }
  | .given => some { s with create := .returned true }
  | .returned _ => none

/-- The new thread goes on, through `m_Sync1` and the test of `m_handle`. -/
def childStep (s : ThreadStart) : Option ThreadStart :=
  match s.child with
  | .off | .ended => none
  | .started => some { s with object := s.object.getThreadID, child := .identified }
  | .identified => s.object.sync1.take.map fun sync1 =>
      { s with object := { s.object with sync1 := sync1 }, child := .taken }
  | .taken => some { s with child := if s.object.isCreated then .created else .leaving }
  | .created => some { s with child := .leaving, programs := s.programs + 1 }
  | .leaving =>
      some { s with
        object := { s.object with sync2 := s.object.sync2.give }, child := .ended }

/-- One step; `id` is the thread the system has made. -/
def next (id : Nat) (s : ThreadStart) : StartStep → Option ThreadStart
  | .create => s.createStep id
  | .child => s.childStep

end ThreadStart

end ServClient
