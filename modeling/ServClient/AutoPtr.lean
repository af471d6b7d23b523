/-
`XLAutoPtr`: `RefCounterObject`, `XLSharedSmPtr` and their `Array` twins.

A handle points to a counter on the heap, the counter to the payload.  The heap here
keeps every counter ever made at its own address, `none` once it has been deleted, and
logs the deletes.  Using a pointer to a deleted counter sets `fault`, and no operation
follows one.

An object of `T` is its identity, which no later object takes over, and a `T*` is an
`Option T`.  The two pairs of classes differ in how they delete the payload and in
nothing else.  `m_iCount` is an `int`; it counts handles, of which there are fewer than
`INT_MAX`, so it is an integer here.
-/
import Mathlib.Data.List.Basic

namespace ServClient

variable {T : Type}

/-- The two forms of `delete`. -/
inductive DeleteForm
  | delete
  | deleteArray
deriving DecidableEq, Repr

/-- `RefCounterObject` and `RefCounterArrayObject`. -/
structure RefCounter (T : Type) where
  iCount : Int
  pData : Option T
deriving DecidableEq, Repr

namespace RefCounter

/-- `AddRef`, which counts only where there is something to count for. -/
def addRef (c : RefCounter T) : RefCounter T :=
  if c.pData.isSome then { c with iCount := c.iCount + 1 } else c

/-- The constructor. -/
def new (data : Option T) : RefCounter T := addRef { iCount := 0, pData := data }

/-- `Release`, and the payload it deleted. -/
def release (c : RefCounter T) : RefCounter T × Option T :=
  if c.pData.isSome then
    let c := { c with iCount := c.iCount - 1 }
    if c.iCount = 0 then ({ c with pData := none }, c.pData) else (c, none)
  else (c, none)

end RefCounter

/-- The counters that have been made, and what has been deleted. -/
structure PtrHeap (T : Type) where
  /-- `none` where the counter has been deleted. -/
  counters : List (Option (RefCounter T))
  /-- The raw pointer each counter was made for. -/
  adopted : List (Option T)
  deletedData : List (DeleteForm × T)
  deletedCounters : List Nat
  /-- A deleted counter has been read or updated. -/
  fault : Bool
deriving DecidableEq, Repr

namespace PtrHeap

/-- Nothing has been made yet. -/
def empty : PtrHeap T :=
  { counters := [], adopted := [], deletedData := [], deletedCounters := [], fault := false }

/-- `new RefCounter(data)`. -/
def adopt (h : PtrHeap T) (data : Option T) : PtrHeap T :=
  { h with counters := h.counters ++ [some (.new data)], adopted := h.adopted ++ [data] }

/-- `m_pData->AddRef()`. -/
def addRef (h : PtrHeap T) (b : Nat) : PtrHeap T :=
  match h.counters[b]? with
  | some (some c) => { h with counters := h.counters.set b (some c.addRef) }
  | _ => { h with fault := true }

/-- `m_pData->Release()`, and `delete m_pData` once the payload is null.  The destructor calls
`Release` a second time. -/
def release (form : DeleteForm) (h : PtrHeap T) (b : Nat) : PtrHeap T :=
  match h.counters[b]? with
  | some (some c) =>
      let (c, data) := c.release
      if c.pData.isNone then
        { h with
          counters := h.counters.set b none
          deletedData := h.deletedData ++ (data.toList ++ c.release.2.toList).map (form, ·)
          deletedCounters := h.deletedCounters ++ [b] }
      else
        { h with
          counters := h.counters.set b (some c)
          deletedData := h.deletedData ++ data.toList.map (form, ·) }
  | _ => { h with fault := true }

/-! What a handle does whose `m_pData` is `p`. -/

/-- It is copied: the new handle has the same `m_pData`. -/
def share (h : PtrHeap T) (p : Option Nat) : PtrHeap T :=
  match p with
  | some b => h.addRef b
  | none => h

/-- `ReleaseData`. -/
def releaseData (form : DeleteForm) (h : PtrHeap T) (p : Option Nat) : PtrHeap T :=
  match p with
  | some b => h.release form b
  | none => h

/-- `GetData`, and what the conversions and `!` go by. -/
def getData (h : PtrHeap T) (p : Option Nat) : Option T :=
  match p with
  | some b => h.counters[b]?.join.bind RefCounter.pData
  | none => none

/-- `GetData` looks at the counter. -/
def touch (h : PtrHeap T) (p : Option Nat) : PtrHeap T :=
  match p with
  | some b => if h.counters[b]?.join.isSome then h else { h with fault := true }
  | none => h

/-- How often `d` has been deleted. -/
def timesDeleted [DecidableEq T] (h : PtrHeap T) (d : T) : Nat :=
  (h.deletedData.map Prod.snd).count d

end PtrHeap

/-- A handle: destroyed, or what its `m_pData` is. -/
inductive Handle
  | gone
  | live (pData : Option Nat)
deriving DecidableEq, Repr

/-- The handle has not been destroyed. -/
def Handle.isLive : Handle → Bool
  | gone => false
  | live _ => true

/-- The handle's counter is this one. -/
def Handle.pointsTo : Handle → Nat → Bool
  | live (some b), c => b == c
  | _, _ => false

/-- The handles of one class, in the order they were constructed, and their heap. -/
structure SmPtrs (T : Type) where
  heap : PtrHeap T
  handles : List Handle
deriving DecidableEq, Repr

namespace SmPtrs

/-- No handle yet. -/
def empty : SmPtrs T := { heap := .empty, handles := [] }

/-- There is a handle of that number, and it has not been destroyed. -/
def isLive (s : SmPtrs T) (i : Nat) : Bool := s.handles[i]?.any Handle.isLive

/-- How many handles point to block `b`. -/
def owners (s : SmPtrs T) (b : Nat) : Nat := s.handles.countP (·.pointsTo b)

/-- The default constructor. -/
def create (s : SmPtrs T) : SmPtrs T := { s with handles := s.handles ++ [.live none] }

/-- The handle's counter loses a reference, and the handle is null. -/
def releaseData (form : DeleteForm) (s : SmPtrs T) (i : Nat) : SmPtrs T :=
  match s.handles[i]? with
  | some (.live p) => { heap := s.heap.releaseData form p, handles := s.handles.set i (.live none) }
  | _ => s

/-- `m_pData = new RefCounter(data)`. -/
def adopt (s : SmPtrs T) (i : Nat) (data : Option T) : SmPtrs T :=
  { heap := s.heap.adopt data, handles := s.handles.set i (.live (some s.heap.counters.length)) }

/-- `SetData`: what the handle has is released, and then a new counter made. -/
def setData (form : DeleteForm) (s : SmPtrs T) (i : Nat) (data : Option T) : SmPtrs T :=
  (s.releaseData form i).adopt i data

/-- `m_pData = other.m_pData`, and `AddRef` if it is set. -/
def acquire (s : SmPtrs T) (i j : Nat) : SmPtrs T :=
  match s.handles[j]? with
  | some (.live p) => { heap := s.heap.share p, handles := s.handles.set i (.live p) }
  | _ => s

/-- The copy constructor. -/
def copy (s : SmPtrs T) (j : Nat) : SmPtrs T := s.create.acquire s.handles.length j

/-- `operator =`, which looks for self assignment first. -/
def assign (form : DeleteForm) (s : SmPtrs T) (i j : Nat) : SmPtrs T :=
  if i = j then s else (s.releaseData form i).acquire i j

/-- `GetData`, which reads the counter of the handle. -/
def getData (s : SmPtrs T) (i : Nat) : SmPtrs T :=
  match s.handles[i]? with
  | some (.live p) => { s with heap := s.heap.touch p }
  | _ => s

/-- The memory of a handle is given back. -/
def retire (s : SmPtrs T) (i : Nat) : SmPtrs T := { s with handles := s.handles.set i .gone }

/-- The destructor. -/
def destroy (form : DeleteForm) (s : SmPtrs T) (i : Nat) : SmPtrs T :=
  (s.releaseData form i).retire i

end SmPtrs

/-- What a program does with its handles; they are named by their place in `handles`. -/
inductive PtrStep (T : Type)
  /-- The default constructor. -/
  | create
  /-- Construction from a raw pointer. -/
  | createFrom (data : Option T)
  /-- The copy constructor. -/
  | copy (j : Nat)
  /-- `SetData`, and assignment from a raw pointer. -/
  | setData (i : Nat) (data : Option T)
  /-- Assignment of handle `j` to handle `i`. -/
  | assign (i j : Nat)
  /-- `GetData`, and the conversions and operators that read the payload. -/
  | getData (i : Nat)
  /-- The destructor. -/
  | destroy (i : Nat)
deriving DecidableEq, Repr

namespace PtrStep

/-- The handles a step needs. -/
def uses : PtrStep T → List Nat
  | create | createFrom _ => []
  | copy i | setData i _ | getData i | destroy i => [i]
  | assign i j => [i, j]

/-- The raw pointer a step makes a block for. -/
def adopts : PtrStep T → Option (Option T)
  | createFrom data | setData _ data => some data
  | _ => none

/-- The handle a step calls `ReleaseData` on. -/
def releases : PtrStep T → Option Nat
  | setData i _ | destroy i => some i
  | assign i j => if i = j then none else some i
  | _ => none

end PtrStep

namespace SmPtrs

/-- The step is made, for handles that are there. -/
def perform (form : DeleteForm) (s : SmPtrs T) : PtrStep T → SmPtrs T
  | .create => s.create
  | .createFrom data => s.create.setData form s.handles.length data
  | .copy j => s.copy j
  | .setData i data => s.setData form i data
  | .assign i j => s.assign form i j
  | .getData i => s.getData i
  | .destroy i => s.destroy form i

/-- A step is made with handles that have not been destroyed, and none follows a fault. -/
def next (form : DeleteForm) (s : SmPtrs T) (op : PtrStep T) : Option (SmPtrs T) :=
  if !s.heap.fault && op.uses.all s.isLive then some (s.perform form op) else none

end SmPtrs

/-- `XLSharedSmPtr`: the counter is a `RefCounterObject`. -/
def XLSharedSmPtr.next (s : SmPtrs T) (op : PtrStep T) : Option (SmPtrs T) :=
  s.next .delete op

/-- `XLSharedArraySmPtr`: the counter is a `RefCounterArrayObject`. -/
def XLSharedArraySmPtr.next (s : SmPtrs T) (op : PtrStep T) : Option (SmPtrs T) :=
  s.next .deleteArray op

end ServClient
