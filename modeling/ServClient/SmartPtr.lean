/-
`XLSmartPtr` and `XLSmartArrayPtr`, which hand their object on when they are copied.

An object of `T` is its identity, and a `T*` is an `Option T`, as in `ServClient/AutoPtr.lean`.
A `T*` that is adopted is logged, and so is every `delete`.  The two classes are written out one
beside the other: `XLSmartArrayPtr` has `Clear`, and its `operator =` calls it.
-/
import ServClient.AutoPtr
import ServClient.Lib.Ledger
import ServClient.Lib.Runs

namespace ServClient

variable {T : Type}

/-- What an object goes through: a handle takes it, and a `delete` ends it. -/
inductive TransferCall (T : Type)
  /-- A handle is constructed from this object. -/
  | adopted (data : T)
  | deleted (form : DeleteForm) (data : T)
deriving DecidableEq, Repr

/-- The same call in the ledger of what is taken and given back. -/
def TransferCall.entry : TransferCall T → Ledger.Entry T
  | adopted data => .take data
  | deleted _ data => .give data

/-- The `m_ptr` of every handle, in the order they were constructed, `none` where the handle is
destroyed; and what was adopted and deleted. -/
structure TransferPtrs (T : Type) where
  handles : List (Option (Option T))
  log : List (TransferCall T)
deriving DecidableEq, Repr

namespace TransferPtrs

/-- No handles yet. -/
def empty : TransferPtrs T := { handles := [], log := [] }

/-- The `m_ptr` of handle `i`, if there is that handle. -/
def ptr (h : TransferPtrs T) (i : Nat) : Option (Option T) := h.handles[i]?.join

/-- `m_ptr = p`. -/
def setPtr (h : TransferPtrs T) (i : Nat) (p : Option T) : TransferPtrs T :=
  { h with handles := h.handles.set i (some p) }

/-- A new handle. -/
def push (h : TransferPtrs T) (p : Option T) : TransferPtrs T :=
  { h with handles := h.handles ++ [some p] }

/-- The memory of a handle is given back. -/
def retire (h : TransferPtrs T) (i : Nat) : TransferPtrs T :=
  { h with handles := h.handles.set i none }

/-- `if(m_ptr) delete m_ptr`. -/
def deletePtr (form : DeleteForm) (h : TransferPtrs T) (p : Option T) : TransferPtrs T :=
  match p with
  | some data => { h with log := h.log ++ [.deleted form data] }
  | none => h

/-- Construction from a `T*`. -/
def construct (h : TransferPtrs T) (data : Option T) : TransferPtrs T :=
  { h.push data with log := h.log ++ data.toList.map .adopted }

/-- The copy constructor, of handle `j` whose `m_ptr` is `q`. -/
def copy (h : TransferPtrs T) (j : Nat) (q : Option T) : TransferPtrs T :=
  (h.setPtr j none).push q

end TransferPtrs

/-! In what follows the `m_ptr` of handle `i` is `p`, that of handle `j` is `q`. -/

namespace XLSmartPtr

/-- `operator=`, which takes the object and leaves null behind. -/
def assign (h : TransferPtrs T) (i j : Nat) (q : Option T) : TransferPtrs T :=
  if i = j then h else (h.setPtr i q).setPtr j none

/-- The destructor of a handle on one object. -/
def destroy (h : TransferPtrs T) (i : Nat) (p : Option T) : TransferPtrs T :=
  (h.deletePtr .delete p).retire i

end XLSmartPtr

namespace XLSmartArrayPtr

/-- `Clear`, of a handle on an array. -/
def clear (h : TransferPtrs T) (i : Nat) (p : Option T) : TransferPtrs T :=
  if p.isSome then (h.deletePtr .deleteArray p).setPtr i none else h

/-- `operator=` of the array form, which clears the target first. -/
def assign (h : TransferPtrs T) (i j : Nat) (p q : Option T) : TransferPtrs T :=
  if i = j then h else ((clear h i p).setPtr i q).setPtr j none

/-- The destructor of a handle on an array. -/
def destroy (h : TransferPtrs T) (i : Nat) (p : Option T) : TransferPtrs T :=
  (clear h i p).retire i

end XLSmartArrayPtr

/-- What a program does with its handles; they are named by their place in `handles`. -/
inductive TransferStep (T : Type)
  /-- Construction from a `T*`. -/
  | construct (data : Option T)
  /-- The copy constructor. -/
  | copy (j : Nat)
  | assign (i j : Nat)
  /-- `Clear` of `XLSmartArrayPtr`. -/
  | clear (i : Nat)
  | destroy (i : Nat)
deriving DecidableEq, Repr

namespace TransferPtrs

variable [DecidableEq T]

/-- A `T*` that is adopted is not one that was adopted before. -/
def isFresh (h : TransferPtrs T) (data : Option T) : Bool :=
  data.all fun d => decide (.adopted d ∉ h.log)

/-- The handles are of `XLSmartPtr`. -/
def nextSmart (h : TransferPtrs T) : TransferStep T → Option (TransferPtrs T)
  | .construct data => if h.isFresh data then some (h.construct data) else none
  | .copy j => (h.ptr j).map fun q => h.copy j q
  | .assign i j => do
      let _p ← h.ptr i
      let q ← h.ptr j
      return XLSmartPtr.assign h i j q
  | .clear _ => none
  | .destroy i => (h.ptr i).map fun p => XLSmartPtr.destroy h i p

/-- The handles are of `XLSmartArrayPtr`. -/
def nextArray (h : TransferPtrs T) : TransferStep T → Option (TransferPtrs T)
  | .construct data => if h.isFresh data then some (h.construct data) else none
  | .copy j => (h.ptr j).map fun q => h.copy j q
  | .assign i j => do
      let p ← h.ptr i
      let q ← h.ptr j
      return XLSmartArrayPtr.assign h i j p q
  | .clear i => (h.ptr i).map fun p => XLSmartArrayPtr.clear h i p
  | .destroy i => (h.ptr i).map fun p => XLSmartArrayPtr.destroy h i p

end TransferPtrs

end ServClient
