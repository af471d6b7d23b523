/-
`Subject` and `IObserver`, with calls of `Notify` that observers answer by calling back.

`m_ObsList` is a set of addresses.  `Notify` walks over it with an iterator while the observers it
calls may register, deregister, go, or call `Notify` again, so the calls in progress are a stack,
and what is done in between is done by the observer on top.  An iterator whose entry has been
erased is no iterator any more: to go on with it has no result, nor has calling an observer that is
gone.

The subject outlives its observers: it is there throughout, so that `m_Subject` is null or the
subject whenever an observer is destroyed.  One thread makes all of the calls.  What observers do
with `data` is their own.
-/
import ServClient.Lib.Sweeps

namespace ServClient

/-- An observer, by its address. -/
structure IObserver where
  address : Nat
  /-- Whether `m_Subject` is the subject; else it is null. -/
  subject : Bool
deriving DecidableEq, Repr

/-- A call of `Notify`. -/
structure NotifyCall where
  /-- Where `itr` is, `none` for `end()`. -/
  itr : Option Nat
  /-- The entry `itr` is at has been erased. -/
  erased : Bool
  /-- The observer there has been called, and has not returned. -/
  inside : Bool
  /-- The observers that have returned, in order. -/
  told : List Nat
  /-- Those registered from the beginning on and not erased since. -/
  held : List Nat
deriving DecidableEq, Repr

/-- The subject with its observers and every call of `Notify`, in progress or over. -/
structure Subject where
  obsList : List Nat
  /-- The observers there are. -/
  observers : List IObserver
  /-- The calls of `Notify` in progress, the last one first, and those that have returned. -/
  calls : List NotifyCall
  finished : List NotifyCall
deriving DecidableEq, Repr

/-- A call of some observer or of the subject, or a `Notify` that goes on. -/
inductive SubjectStep
  | construct (o : Nat) (subject : Bool)
  | destroy (o : Nat)
  | registerObserver (o : Nat)
  | deRegister (o : Nat)
  /-- Some code calls `Notify`. -/
  | notify
  /-- `(*itr)->Notify(data)` is called. -/
  | visit
  /-- It has returned, and `itr++`. -/
  | returned
  /-- `itr` is at the end, and `Notify` returns. -/
  | finish
deriving DecidableEq, Repr

namespace NotifyCall

/-- `erase` of the entry of `o`. -/
def erase (o : Nat) (c : NotifyCall) : NotifyCall :=
  { c with
    erased := c.erased || decide (c.itr = some o)
    held := c.held.filter fun b => decide (b ≠ o) }

end NotifyCall

namespace Subject

/-- A subject nobody observes. -/
def new : Subject where
  obsList := []
  observers := []
  calls := []
  finished := []

/-- No call of `Notify` is in progress, or it has called an observer. -/
def free (s : Subject) : Bool := s.calls.head?.all NotifyCall.inside

/-- There is an observer at this address. -/
def alive (s : Subject) (o : Nat) : Bool := s.observers.any fun b => decide (b.address = o)

/-- `Register`: an insertion into the set. -/
def registerObserver (s : Subject) (o : Nat) : Subject :=
  { s with obsList := KeyOrder.insertNew (· < ·) id o s.obsList }

/-- `DeRegister`; the calls in progress stand at nodes, so theirs may be the one erased. -/
def deRegister (s : Subject) (o : Nat) : Subject :=
  if (KeyOrder.find? (· < ·) id o s.obsList).isSome then
    { s with
      obsList := KeyOrder.eraseKey (· < ·) id o s.obsList
      calls := s.calls.map (NotifyCall.erase o) }
  else s

/-- The constructor of an observer. -/
def construct (s : Subject) (o : Nat) (subject : Bool) : Subject :=
  let s := { s with observers := ⟨o, subject⟩ :: s.observers }
  if subject then s.registerObserver o else s

/-- The destructor of observer `b`. -/
def destroy (s : Subject) (b : IObserver) : Subject :=
  let s := if b.subject then s.deRegister b.address else s
  { s with observers := s.observers.filter fun b' => decide (b'.address ≠ b.address) }

/-- The innermost `Notify` calls the observer it stands at. -/
def visit (s : Subject) : Option Subject :=
  match s.calls with
  | [] => none
  | c :: rest =>
      match c.itr with
      | none => none
      | some o =>
          if !c.inside && s.alive o then some { s with calls := { c with inside := true } :: rest }
          else none

/-- That observer has returned. -/
def returned (s : Subject) : Option Subject :=
  match s.calls with
  | [] => none
  | c :: rest =>
      match c.itr with
      | none => none
      | some o =>
          if c.inside && !c.erased then
            some { s with calls := { c with
              itr := Sweeps.nextPlace o s.obsList
              inside := false
              told := c.told ++ [o] } :: rest }
          else none

/-- The innermost `Notify` is at its end. -/
def finish (s : Subject) : Option Subject :=
  match s.calls with
  | [] => none
  | c :: rest =>
      if c.itr = none ∧ c.inside = false then
        some { s with calls := rest, finished := s.finished ++ [c] }
      else none

/-- A new call of `Notify`. -/
def notify (s : Subject) : Subject :=
  { s with calls :=
      { itr := Sweeps.first s.obsList
        erased := false
        inside := false
        told := []
        held := s.obsList } :: s.calls }

/-- One step; `none` where its caller is in some other call. -/
def next (s : Subject) : SubjectStep → Option Subject
  | .construct o subject =>
      if s.free ∧ s.alive o = false then some (s.construct o subject) else none
  | .destroy o =>
      if s.free then (s.observers.find? fun b => decide (b.address = o)).map s.destroy else none
  | .registerObserver o => if s.free then some (s.registerObserver o) else none
  | .deRegister o => if s.free then some (s.deRegister o) else none
  | .notify => if s.free then some s.notify else none
  | .visit => s.visit
  | .returned => s.returned
  | .finish => s.finish

end Subject

end ServClient
