/-
Event objects as they are in memory: copies share one buffer.

`CHARSTORAGE` counts the handles of a buffer, so copying an event copies a pointer, and
`Reset` and the allocating mutators only let go of it.  A buffer stands as long as an
event points to it, so none is taken away here, and an object that has gone is one that
no later step names.  A null payload is just null; `ServClient/Proofs/AutoPtr.lean` has
both what holds of the counters and what becomes of those of null payloads.

Beside this memory stands the meaning of the same steps where every event is a value
(`ServClient/Events.lean`).  A `memcpy` that would leave its source or its destination
is not a step.
-/
import ServClient.LockFreeQueue

namespace ServClient

/-- The buffers made so far. -/
abbrev Buffers := List (List UInt8)

/-- An `XLThreadEvent` as the source has it, with its payload in a shared buffer. -/
structure EventObject where
  /-- The buffer behind `m_pData`, `none` for null. -/
  pData : Option Nat
  iLength : Int
  iType : Int
deriving DecidableEq, Repr

namespace EventObject

/-- The default constructor. -/
def new : EventObject := { pData := none, iLength := 0, iType := 0 }

instance : Inhabited EventObject := ⟨new⟩

/-- The event the object is at the moment. -/
def view (bufs : Buffers) (o : EventObject) : XLThreadEvent where
  pData := o.pData.map fun b => bufs.getD b []
  iLength := o.iLength
  iType := o.iType

/-- `XLThreadEvent(int size)`. -/
def ofSize (bufs : Buffers) (size : Int) (uninit : List UInt8) : Buffers × EventObject :=
  if 0 < size then (bufs ++ [uninit], { pData := some bufs.length, iLength := size, iType := 0 })
  else (bufs, { pData := none, iLength := 0, iType := 0 })

/-- `SetType`. -/
def setType (o : EventObject) (iType : Int) : EventObject := { o with iType := iType }

/-- `Reset`, which drops the handle on the buffer. -/
def reset (o : EventObject) : EventObject := { o with pData := none, iLength := 0 }

/-- `SetData`: a new buffer, or none where there is nothing to copy. -/
def setData (bufs : Buffers) (o : EventObject) (data : Option (List UInt8)) (length : Int) :
    Buffers × EventObject :=
  match data with
  | some bytes =>
      if 0 < length then
        (bufs ++ [bytes.take length.toNat],
          { o.reset with pData := some bufs.length, iLength := length })
      else (bufs, o.reset)
  | none => (bufs, o.reset)

/-- `AddData`: also where it appends, the bytes go to a new buffer. -/
def addData (bufs : Buffers) (o : EventObject) (data : Option (List UInt8)) (length : Int) :
    Buffers × EventObject :=
  match o.pData, data with
  | some b, some bytes =>
      if 0 < o.iLength ∧ 0 < length then
        (bufs ++ [(bufs.getD b []).take o.iLength.toNat ++ bytes.take length.toNat],
          { o with pData := some bufs.length, iLength := o.iLength + length })
      else o.setData bufs data length
  | _, _ => o.setData bufs data length

/-- `memcpy` into the buffer. -/
def poke (bufs : Buffers) (o : EventObject) (pos : Nat) (input : List UInt8) :
    Option (Buffers × EventObject) :=
  match o.pData with
  | some b => (Bytes.store? (bufs.getD b []) pos input).map fun bytes => (bufs.set b bytes, o)
  | none => (Bytes.store? [] pos input).map fun _ => (bufs, o)

/-- The guard of `Write`, with the sum in `size_t` and the comparison in `int`. -/
def inPlace (o : EventObject) (place : Int) (size : Nat) : Bool :=
  decide (0 ≤ place) && decide (castInt (place + size) ≤ o.iLength)

/-- `Write<T>`. -/
def write (bufs : Buffers) (o : EventObject) (place : Int) (input : List UInt8) :
    Option (Buffers × EventObject) :=
  if o.inPlace place input.length then o.poke bufs place.toNat input
  else if place = o.iLength then some (o.addData bufs (some input) input.length)
  else some (bufs, o)

/-- `Write(int, const char*, int)`. -/
def writeBlock (bufs : Buffers) (o : EventObject) (place : Int) (input : Option (List UInt8))
    (size : Int) : Option (Buffers × EventObject) :=
  match input with
  | some bytes =>
      if 0 ≤ place ∧ place + size ≤ o.iLength then
        if 0 ≤ size then o.poke bufs place.toNat (bytes.take size.toNat) else none
      else if place = o.iLength then some (o.addData bufs input size)
      else some (bufs, o)
  | none => if place = o.iLength then some (o.addData bufs input size) else some (bufs, o)

/-- `ReadFrom`, whose guard is on the length the object had before. -/
def readFrom (bufs : Buffers) (o : EventObject) (source : Option (List UInt8)) (length : Int) :
    Buffers × EventObject :=
  match source with
  | none => (bufs, o)
  | some bytes =>
      if o.iLength + XLThreadEvent.metaDataLength ≤ length then
        let iType := Bytes.toInt (bytes.take 4)
        let iLength := Bytes.toInt ((bytes.drop 4).take 4)
        let o := { o with iType := iType, iLength := iLength }
        if 0 < iLength ∧ iLength < length - 8 then o.setData bufs (some (bytes.drop 8)) iLength
        else (bufs, { o with pData := none, iLength := 0 })
      else (bufs, o)

end EventObject

/-- The calls that change an event. -/
inductive Mutator
  | setType (iType : Int)
  | setData (data : Option (List UInt8)) (length : Int)
  | addData (data : Option (List UInt8)) (length : Int)
  | write (place : Int) (input : List UInt8)
  | writeBlock (place : Int) (input : Option (List UInt8)) (size : Int)
  | readFrom (source : Option (List UInt8)) (length : Int)
  | reset
deriving DecidableEq, Repr

namespace Mutator

/-- A block that is passed with its length has that many bytes. -/
def readable : Mutator → Bool
  | setData data length | addData data length | writeBlock _ data length
  | readFrom data length => data.all fun bytes => decide (length ≤ bytes.length)
  | _ => true

/-- A mutator on an object, whose buffer others may hold. -/
def onObject (m : Mutator) (bufs : Buffers) (o : EventObject) : Option (Buffers × EventObject) :=
  match m with
  | setType iType => some (bufs, o.setType iType)
  | setData data length => some (o.setData bufs data length)
  | addData data length => some (o.addData bufs data length)
  | write place input => o.write bufs place input
  | writeBlock place input size => o.writeBlock bufs place input size
  | readFrom source length => some (o.readFrom bufs source length)
  | reset => some (bufs, o.reset)

/-- The same mutator on an event that holds its own bytes. -/
def onValue (m : Mutator) (e : XLThreadEvent) : Option XLThreadEvent :=
  match m with
  | setType iType => some (e.setType iType)
  | setData data length => some (e.setData data length)
  | addData data length => some (e.addData data length)
  | write place input => (e.write place input).map Prod.fst
  | writeBlock place input size => (e.writeBlock place input size).map Prod.fst
  | readFrom source length => some (e.readFrom source length)
  | reset => some e.reset

/-- What a `Write` copies into the buffer there is, and where. -/
def pokes (m : Mutator) (o : EventObject) : Option (Nat × List UInt8) :=
  match m with
  | write place input => if o.inPlace place input.length then some (place.toNat, input) else none
  | writeBlock place (some bytes) size =>
      if 0 ≤ place ∧ place + size ≤ o.iLength ∧ 0 ≤ size then
        some (place.toNat, bytes.take size.toNat)
      else none
  | _ => none

end Mutator

/-! ### Events and a queue of them -/

/-- The event objects of a program, and an event queue. -/
structure EventWorld (E : Type) where
  objs : List E
  /-- `mEvent`, through which `Put` copies. -/
  event : E
  q : XLLFQ E

/-- The calls that copy an event. -/
inductive Move
  /-- The default constructor. -/
  | create
  /-- The copy constructor. -/
  | copy (j : Nat)
  /-- `operator=`, of object `j` to object `i`. -/
  | assign (i j : Nat)
  | put (i : Nat)
  | get (i : Nat)
deriving DecidableEq, Repr

namespace EventWorld

variable {E : Type}

/-- No objects, and an empty queue. -/
def new [Inhabited E] : EventWorld E := { objs := [], event := default, q := XLLFQ.new }

/-- One move of the objects; `none` where there is no such object, or nothing to get. -/
def move [Inhabited E] (w : EventWorld E) : Move → Option (EventWorld E)
  | .create => some { w with objs := w.objs ++ [default] }
  | .copy j => w.objs[j]?.map fun e => { w with objs := w.objs ++ [e] }
  | .assign i j =>
      if i < w.objs.length then w.objs[j]?.map fun e => { w with objs := w.objs.set i e } else none
  | .put i => w.objs[i]?.map fun e => { w with event := e, q := (w.q.push e).1 }
  | .get i =>
      if i < w.objs.length then
        w.q.pop.map fun r => { w with objs := w.objs.set i r.2, q := r.1 }
      else none

end EventWorld

/-- A move, a new object with a buffer of its own, or a mutator on one of them. -/
inductive EventStep
  | move (m : Move)
  /-- `XLThreadEvent(int size)`, its new buffer holding `uninit`. -/
  | ofSize (size : Int) (uninit : List UInt8)
  | mutate (i : Nat) (m : Mutator)
deriving DecidableEq, Repr

namespace EventStep

/-- The blocks a step is given are as long as it is told. -/
def readable : EventStep → Bool
  | move _ => true
  | ofSize size uninit => decide (uninit.length = size.toNat)
  | mutate _ m => m.readable

end EventStep

/-- Every event is a value. -/
def EventWorld.next (w : EventWorld XLThreadEvent) (l : EventStep) :
    Option (EventWorld XLThreadEvent) :=
  if l.readable then
    match l with
    | .move m => w.move m
    | .ofSize size uninit => some { w with objs := w.objs ++ [XLThreadEvent.ofSize size uninit] }
    | .mutate i m =>
        w.objs[i]?.bind fun e => (m.onValue e).map fun e => { w with objs := w.objs.set i e }
  else none

/-- Events in memory. -/
structure SharedEvents where
  bufs : Buffers
  world : EventWorld EventObject

namespace SharedEvents

/-- No buffers, and no objects. -/
def new : SharedEvents := { bufs := [], world := EventWorld.new }

/-- One step; `none` where it would read past the end of its source. -/
def next (s : SharedEvents) (l : EventStep) : Option SharedEvents :=
  if l.readable then
    match l with
    | .move m => (s.world.move m).map fun w => { s with world := w }
    | .ofSize size uninit =>
        let (bufs, o) := EventObject.ofSize s.bufs size uninit
        some { bufs := bufs, world := { s.world with objs := s.world.objs ++ [o] } }
    | .mutate i m =>
        s.world.objs[i]?.bind fun o => (m.onObject s.bufs o).map fun r =>
          { bufs := r.1, world := { s.world with objs := s.world.objs.set i r.2 } }
  else none

end SharedEvents

end ServClient
