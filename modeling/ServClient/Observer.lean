/-
`ISubject2` and `IObserver2`: who is to be told of which condition.

An observer keeps the conditions it has registered in a `std::set`, its subject an entry for each
of them in a `std::multimap`, both ordered by `XComp`.  Subjects and observers stand at addresses,
and a call on an object that is gone has no step.
-/
import ServClient.Lib.KeyOrder
import Mathlib.Logic.Function.Basic

namespace ServClient

variable {X : Type} (XComp : X → X → Prop) [DecidableRel XComp]

/-- A subject with its registrations, in the order of the conditions. -/
structure ISubject2 (X : Type) where
  /-- `m_list`, each condition with the observer it is registered for. -/
  list : List (X × Nat) := []

namespace ISubject2

/-- `Register`; of one observer and one condition any number can be put down. -/
def register (s : ISubject2 X) (o : Option Nat) (condition : X) : ISubject2 X :=
  match o with
  | none => s
  | some o => { list := KeyOrder.insert XComp Prod.fst (condition, o) s.list }

/-- `DeRegister(o)`, once over all entries. -/
def deRegister (s : ISubject2 X) (o : Option Nat) : ISubject2 X :=
  match o with
  | none => s
  | some o => { list := s.list.filter fun e => !decide (e.2 = o) }

/-- `DeRegister(o, condition)`, up to the first entry of the range that is the observer's. -/
def deRegisterCondition (s : ISubject2 X) (o : Option Nat) (condition : X) : ISubject2 X :=
  match o with
  | none => s
  | some o => { list := KeyOrder.eraseFirst XComp Prod.fst (fun e => decide (o = e.2)) condition
                  s.list }

end ISubject2

/-- An observer with what it has registered for. -/
structure IObserver2 (X : Type) where
  /-- `m_Subject` -/
  subject : Option Nat
  /-- `m_RegisteredList` -/
  registeredList : List X := []

/-- The subjects and observers there are. -/
structure Observers (X : Type) where
  subjects : Nat → Option (ISubject2 X)
  observers : Nat → Option (IObserver2 X)

/-- A subject or an observer comes or goes, or one of their functions is called. -/
inductive ObserverStep (X : Type)
  | newSubject (s : Nat)
  | deleteSubject (s : Nat)
  | construct (o : Nat) (subject : Option Nat) (conditions : List X)
  | register (o : Nat) (condition : X)
  | deRegister (o : Nat) (condition : X)
  | deregister (o : Nat)
  | setSubject (o : Nat) (subject : Option Nat)
  | destroy (o : Nat)

namespace Observers

/-- No subject and no observer. -/
def empty : Observers X where
  subjects := fun _ => none
  observers := fun _ => none

/-- Subject `s` is as given, `none` where there is none. -/
def putSubject (w : Observers X) (s : Nat) (sub : Option (ISubject2 X)) : Observers X :=
  { w with subjects := Function.update w.subjects s sub }

/-- Observer `o` is as given, `none` where there is none. -/
def putObserver (w : Observers X) (o : Nat) (ob : Option (IObserver2 X)) : Observers X :=
  { w with observers := Function.update w.observers o ob }

/-- A call through `m_Subject`, which is made where it is not null. -/
def onSubject (w : Observers X) (p : Option Nat) (call : ISubject2 X → ISubject2 X) :
    Option (Observers X) :=
  match p with
  | none => some w
  | some s => (w.subjects s).map fun sub => w.putSubject s (some (call sub))

/-- `IObserver2::Register` -/
def register (w : Observers X) (o : Nat) (condition : X) : Option (Observers X) := do
  let ob ← w.observers o
  if ob.subject.isSome then
    if (KeyOrder.find? XComp id condition ob.registeredList).isNone then
      let w ← w.onSubject ob.subject fun sub => sub.register XComp (some o) condition
      some (w.putObserver o (some { ob with
        registeredList := KeyOrder.insertNew XComp id condition ob.registeredList }))
    else
      some w
  else
    some w

/-- `IObserver2::DeRegister` -/
def deRegister (w : Observers X) (o : Nat) (condition : X) : Option (Observers X) := do
  let ob ← w.observers o
  let w ← w.onSubject ob.subject fun sub => sub.deRegisterCondition XComp (some o) condition
  some (w.putObserver o (some { ob with
    registeredList := KeyOrder.eraseKey XComp id condition ob.registeredList }))

/-- `IObserver2::SetSubject` -/
def setSubject (w : Observers X) (o : Nat) (subject : Option Nat) : Option (Observers X) := do
  let ob ← w.observers o
  let w ← w.onSubject ob.subject fun sub => sub.deRegister (some o)
  some (w.putObserver o (some { subject := subject, registeredList := [] }))

/-- `IObserver2::Deregister` -/
def deregister (w : Observers X) (o : Nat) : Option (Observers X) := do
  let ob ← w.observers o
  let w ← w.onSubject ob.subject fun sub => sub.deRegister (some o)
  some (w.putObserver o (some { subject := none, registeredList := [] }))

/-- The constructors; the one without conditions has an empty list of them. -/
def construct (w : Observers X) (o : Nat) (subject : Option Nat) (conditions : List X) :
    Option (Observers X) :=
  let w := w.putObserver o (some { subject := subject })
  if subject.isSome then
    conditions.foldlM (fun w condition => register XComp w o condition) w
  else
    some w

/-- The destructor. -/
def destroy (w : Observers X) (o : Nat) : Option (Observers X) := do
  let ob ← w.observers o
  let w ← w.onSubject ob.subject fun sub => sub.deRegister (some o)
  some (w.putObserver o none)

/-- One call; `none` where it goes through a pointer to an object that is not there. -/
def next (w : Observers X) : ObserverStep X → Option (Observers X)
  | .newSubject s => some (w.putSubject s (some {}))
  | .deleteSubject s => some (w.putSubject s none)
  | .construct o subject conditions => construct XComp w o subject conditions
  | .register o condition => register XComp w o condition
  | .deRegister o condition => deRegister XComp w o condition
  | .deregister o => deregister w o
  | .setSubject o subject => setSubject w o subject
  | .destroy o => destroy w o

/-- A pointer to a subject is null, or the subject is there. -/
def Points (w : Observers X) (p : Option Nat) : Prop := ∀ s ∈ p, (w.subjects s).isSome = true

/-- What the users of the two classes keep to: new objects have addresses of their own, calls are
made on objects that are there, and a subject goes after the observers that point to it. -/
def Allowed (w : Observers X) : ObserverStep X → Prop
  | .newSubject s => w.subjects s = none
  | .deleteSubject s => (w.subjects s).isSome = true ∧
      ∀ o ob, w.observers o = some ob → ob.subject ≠ some s
  | .construct o subject _ => w.observers o = none ∧ w.Points subject
  | .register o _ => (w.observers o).isSome = true
  | .deRegister o _ => (w.observers o).isSome = true
  | .deregister o => (w.observers o).isSome = true
  | .setSubject o subject => (w.observers o).isSome = true ∧ w.Points subject
  | .destroy o => (w.observers o).isSome = true

end Observers

end ServClient
