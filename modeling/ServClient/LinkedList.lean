/-
`LinkedList`, and the `LinkedListItr`s that watch it.

A pointer to a node is its address, or `none` for null, and the heap holds the nodes of one
list.  Where a node is allocated is part of the call.  To follow a pointer that is null or
whose node has been freed has no result, nor has freeing a node twice.

An iterator is registered with its list under its own address and is told of every change by
`CallListener`, in the middle of the change.  `m_ObsList` is kept in the order of the
addresses, with what each iterator points to.  The counter of an iterator is never used.
-/
import ServClient.Lib.Chains
import Mathlib.Data.List.AList
import Mathlib.Data.List.Sort

namespace ServClient

/-- An `mData`, an `mNext` and an `mPrevious`. -/
abbrev LListNode (α : Type) := Cell Nat α

/-- What a list tells its iterators. -/
inductive LinkedListEvents
  | addNodeFront
  | deleteNodeFront
  | addNodeBack
  | deleteNodeBack
  | deleteNode
  | clearedAll
deriving DecidableEq, Repr

/-- An iterator: its own address, by which it is registered, and the node it points to. -/
structure LinkedListItr where
  address : Nat
  itr : Option Nat
deriving DecidableEq, Repr

/-- The nodes in the heap, `mHead`, `mTail`, `mElements`, and the iterators in `m_ObsList`. -/
structure LinkedList (α : Type) where
  heap : AList fun _ : Nat => LListNode α
  head : Option Nat
  tail : Option Nat
  elements : Int
  obsList : List LinkedListItr

namespace LinkedList

variable {α : Type}

/-- An empty list that nobody watches. -/
def new : LinkedList α where
  heap := ∅
  head := none
  tail := none
  elements := 0
  obsList := []

/-- What is behind a pointer. -/
def node (s : LinkedList α) (p : Option Nat) : Option (LListNode α) :=
  p.bind fun a => s.heap.lookup a

/-- A node is written to. -/
def modify (s : LinkedList α) (p : Option Nat) (f : LListNode α → LListNode α) :
    Option (LinkedList α) := do
  let a ← p
  let n ← s.heap.lookup a
  return { s with heap := s.heap.insert a (f n) }

/-- `p->Next() = q`. -/
def setNext (s : LinkedList α) (p q : Option Nat) : Option (LinkedList α) :=
  s.modify p fun n => { n with next := q }

/-- `p->Previous() = q`. -/
def setPrevious (s : LinkedList α) (p q : Option Nat) : Option (LinkedList α) :=
  s.modify p fun n => { n with previous := q }

/-- `new LListNode(data)`. -/
def alloc (s : LinkedList α) (a : Nat) (data : α) : LinkedList α :=
  { s with heap := s.heap.insert a { data := data, next := none, previous := none } }

/-- `delete p`. -/
def free (s : LinkedList α) (p : Option Nat) : Option (LinkedList α) :=
  match p with
  | none => some s
  | some a => if a ∈ s.heap then some { s with heap := s.heap.erase a } else none

/-! ### Iterators -/

/-- `IsBegin`. -/
def isBegin (s : LinkedList α) (p : Option Nat) : Bool :=
  s.head.isSome && p.isSome && p = s.head

/-- `IsEnd`. -/
def isEnd (s : LinkedList α) (p : Option Nat) : Bool :=
  s.tail.isSome && p.isSome && p = s.tail

/-- `Size`, which is `mElements` and not the number of nodes. -/
def size (s : LinkedList α) : Int := s.elements

end LinkedList

namespace LinkedListItr

variable {α : Type}

/-- `Notify` of an iterator, while the node it is told of is still linked. -/
def notify (o : LinkedListItr) (list : LinkedList α) (event : LinkedListEvents)
    (node : Option Nat) : Option LinkedListItr :=
  match event with
  | .addNodeFront => some (if o.itr.isNone then { o with itr := list.head } else o)
  | .addNodeBack => some (if o.itr.isNone then { o with itr := list.tail } else o)
  | .deleteNodeFront =>
      if o.itr = node then do
        let n ← list.node o.itr
        return { o with itr := if n.next.isSome then n.next else none }
      else some o
  | .deleteNodeBack =>
      if o.itr = node then do
        let n ← list.node o.itr
        return { o with itr := if n.previous.isSome then n.previous else none }
      else some o
  | .deleteNode =>
      if o.itr = node then do
        let n ← list.node o.itr
        return { o with
          itr := if n.previous.isSome then n.previous
            else if n.next.isSome then n.next
            else none }
      else some o
  | .clearedAll => some { o with itr := none }

/-- `operator++`, both of them. -/
def forward (o : LinkedListItr) (list : LinkedList α) : Option LinkedListItr :=
  if o.itr.isNone || list.size = 0 || list.isEnd o.itr then some o
  else (list.node o.itr).map fun n => { o with itr := n.next }

/-- `operator--`, both of them. -/
def backward (o : LinkedListItr) (list : LinkedList α) : Option LinkedListItr :=
  if o.itr.isNone || list.size = 0 || list.isBegin o.itr then some o
  else (list.node o.itr).map fun n => { o with itr := n.previous }

end LinkedListItr

/-! ### The list's own operations -/

/-- A call of the list; `newNode` is where `new` finds room. -/
inductive ListCall (α : Type)
  | insertAtBack (data : α) (newNode : Nat)
  | insertAtFront (data : α) (newNode : Nat)
  | removeFromFront
  | removeFromBack
  | front
  | back
  | delete (node : Nat)
  | clear

namespace LinkedList

variable {α : Type}

/-- `CallListener`: every iterator is told, in the order of their addresses. -/
def callListener (s : LinkedList α) (event : LinkedListEvents) (node : Option Nat) :
    Option (LinkedList α) := do
  let obsList ← s.obsList.mapM fun o => o.notify s event node
  return { s with obsList := obsList }

/-- The loop of `Clear`.  Every round frees a node, so there are no more rounds than nodes. -/
def clearNodes : Nat → LinkedList α → Option Nat → Option (LinkedList α)
  | _, s, none => some s
  | 0, _, some _ => none
  | rounds + 1, s, some node => do
      let n ← s.node s.head
      let s := { s with head := n.next }
      let s ← s.free (some node)
      clearNodes rounds s s.head

/-- `Clear`, which frees the nodes before it tells the iterators. -/
def clear (s : LinkedList α) : Option (LinkedList α) := do
  let s ← clearNodes s.heap.keys.length s s.head
  let s := { s with head := none, tail := none, elements := 0 }
  s.callListener .clearedAll none

/-- `InsertAtBack`. -/
def insertAtBack (s : LinkedList α) (data : α) (newNode : Nat) : Option (LinkedList α) := do
  let s := s.alloc newNode data
  let s ←
    if s.tail.isNone then some { s with tail := some newNode, head := some newNode }
    else do
      let s ← s.setNext s.tail (some newNode)
      let s ← s.setPrevious (some newNode) s.tail
      let n ← s.node s.tail
      some { s with tail := n.next }
  let s ← s.callListener .addNodeBack s.tail
  return { s with elements := s.elements + 1 }

/-- `InsertAtFront`. -/
def insertAtFront (s : LinkedList α) (data : α) (newNode : Nat) : Option (LinkedList α) := do
  let s := s.alloc newNode data
  let s ←
    if s.head.isNone then some { s with head := some newNode, tail := some newNode }
    else do
      let s ← s.setPrevious s.head (some newNode)
      let s ← s.setNext (some newNode) s.head
      let n ← s.node s.head
      some { s with head := n.previous }
  let s ← s.callListener .addNodeFront s.head
  return { s with elements := s.elements + 1 }

/-- The second component is the output, `none` where the function returns false. -/
def removeFromFront (s : LinkedList α) : Option (LinkedList α × Option α) :=
  if s.head.isNone then some (s, none)
  else do
    let secHead := s.head
    let n ← s.node s.head
    let s := { s with head := n.next }
    let s ← (if s.head.isSome then s.setPrevious s.head none else some s)
    let s := if s.tail = secHead then { s with tail := none } else s
    let s ← s.callListener .deleteNodeFront secHead
    let s := { s with elements := s.elements - 1 }
    let s ← s.free secHead
    return (s, some n.data)

/-- As `removeFromFront`, at the other end. -/
def removeFromBack (s : LinkedList α) : Option (LinkedList α × Option α) :=
  if s.tail.isNone then some (s, none)
  else do
    let secHead := s.tail
    let n ← s.node s.tail
    let s := { s with tail := n.previous }
    let s ← (if s.tail.isSome then s.setNext s.tail none else some s)
    let s := if s.head = secHead then { s with head := none } else s
    let s ← s.callListener .deleteNodeBack secHead
    let s := { s with elements := s.elements - 1 }
    let s ← s.free secHead
    return (s, some n.data)

/-- `none` is a fault, `some none` is false. -/
def front (s : LinkedList α) : Option (Option α) :=
  if s.head.isNone then some none else (s.node s.head).map fun n => some n.data

/-- As `front`, at the other end. -/
def back (s : LinkedList α) : Option (Option α) :=
  if s.tail.isNone then some none else (s.node s.tail).map fun n => some n.data

/-- `mElements` stays as it is. -/
def delete (s : LinkedList α) (node : Option Nat) : Option (LinkedList α) :=
  if node.isNone then some s
  else do
    let s ←
      (if node = s.head then (s.node s.head).map fun n => { s with head := n.next } else some s)
    let s ←
      (if node = s.tail then (s.node s.tail).map fun n => { s with tail := n.previous } else some s)
    let s ← s.callListener .deleteNode node
    let n ← s.node node
    let nxt := n.next
    let pre := n.previous
    let s ← (if nxt.isSome then s.setPrevious nxt pre else some s)
    let s ← (if pre.isSome then s.setNext pre nxt else some s)
    s.free node

/-- A call, with the outputs of those that have one. -/
def call (s : LinkedList α) : ListCall α → Option (LinkedList α × List (Option α))
  | .insertAtBack data newNode => (s.insertAtBack data newNode).map (·, [])
  | .insertAtFront data newNode => (s.insertAtFront data newNode).map (·, [])
  | .removeFromFront => s.removeFromFront.map fun r => (r.1, [r.2])
  | .removeFromBack => s.removeFromBack.map fun r => (r.1, [r.2])
  | .front => s.front.map fun r => (s, [r])
  | .back => s.back.map fun r => (s, [r])
  | .delete node => (s.delete (some node)).map (·, [])
  | .clear => s.clear.map (·, [])

/-- The nodes met from `mHead` on. -/
def nodes (s : LinkedList α) : List Nat :=
  Cell.walk (fun a => (s.heap.lookup a).map Cell.next) s.heap.keys.length s.head

/-- A new node is at an address that is not in use, and the node deleted is in the list. -/
def allows (s : LinkedList α) : ListCall α → Bool
  | .insertAtBack _ newNode | .insertAtFront _ newNode => newNode ∉ s.heap
  | .delete node => node ∈ s.nodes
  | .removeFromFront | .removeFromBack | .front | .back | .clear => true

end LinkedList

/-! ### What the calls are for -/

/-- A call of a double-ended sequence whose elements can be taken out one by one: the sequence
afterwards, and the outputs. -/
def ListCall.denote {α : Type} (c : ListCall α) (seq : List (Nat × α)) :
    List (Nat × α) × List (Option α) :=
  match c with
  | .insertAtBack data newNode => (seq ++ [(newNode, data)], [])
  | .insertAtFront data newNode => ((newNode, data) :: seq, [])
  | .removeFromFront => (seq.tail, [seq.head?.map Prod.snd])
  | .removeFromBack => (seq.dropLast, [seq.getLast?.map Prod.snd])
  | .front => (seq, [seq.head?.map Prod.snd])
  | .back => (seq, [seq.getLast?.map Prod.snd])
  | .delete node => (seq.eraseP fun c => c.1 = node, [])
  | .clear => ([], [])

/-- What calls one after the other make of a sequence, and their outputs. -/
def ListCall.denoteAll {α : Type} (seq : List (Nat × α)) :
    List (ListCall α) → List (Nat × α) × List (Option α)
  | [] => (seq, [])
  | c :: rest =>
      let d := c.denote seq
      let e := denoteAll d.1 rest
      (e.1, d.2 ++ e.2)

/-- A list, and what its calls have answered so far. -/
structure ListRun (α : Type) where
  list : LinkedList α
  results : List (Option α)

namespace ListRun

variable {α : Type}

/-- An empty list, nothing answered. -/
def new : ListRun α := { list := .new, results := [] }

/-- One call more. -/
def next (r : ListRun α) (c : ListCall α) : Option (ListRun α) :=
  (r.list.call c).map fun q => { list := q.1, results := r.results ++ q.2 }

end ListRun

/-! ### A list and its iterators -/

/-- A move of an iterator; each of `operator++` and `operator--` is one, before or after. -/
inductive ItrMove
  | setToFront
  | setToBack
  | reset
  | forward
  | backward
deriving DecidableEq, Repr

/-- A call of the list or of one of its iterators, which is named by its address. -/
inductive ListStep (α : Type)
  | list (c : ListCall α)
  | newItr (address : Nat)
  | destroyItr (address : Nat)
  | move (address : Nat) (m : ItrMove)
  | deleteThis (address : Nat)

namespace LinkedListItr

variable {α : Type}

/-- The iterator is moved. -/
def move (o : LinkedListItr) (list : LinkedList α) : ItrMove → Option LinkedListItr
  | .setToFront | .reset => some { o with itr := list.head }
  | .setToBack => some { o with itr := list.tail }
  | .forward => o.forward list
  | .backward => o.backward list

end LinkedListItr

namespace LinkedList

variable {α : Type}

/-- The iterator that is registered under an address. -/
def findItr (s : LinkedList α) (address : Nat) : Option LinkedListItr :=
  s.obsList.find? fun o => o.address = address

/-- The constructor of an iterator: it is registered, and then set to the front. -/
def newItr (s : LinkedList α) (address : Nat) : LinkedList α :=
  { s with
    obsList := s.obsList.orderedInsert (fun o p => o.address ≤ p.address) ⟨address, s.head⟩ }

/-- The destructor. -/
def destroyItr (s : LinkedList α) (address : Nat) : LinkedList α :=
  { s with obsList := s.obsList.filter fun o => o.address ≠ address }

/-- One of the list's iterators is moved. -/
def moveItr (s : LinkedList α) (address : Nat) (m : ItrMove) : Option (LinkedList α) := do
  let obsList ← s.obsList.mapM fun o => if o.address = address then o.move s m else some o
  return { s with obsList := obsList }

/-- `DeleteThis`: the node of the iterator is deleted from the list. -/
def deleteThis (s : LinkedList α) (address : Nat) : Option (LinkedList α) :=
  match s.findItr address with
  | some o => s.delete o.itr
  | none => none

/-- One call, of the list or of an iterator. -/
def next (s : LinkedList α) : ListStep α → Option (LinkedList α)
  | .list c => (s.call c).map Prod.fst
  | .newItr address => some (s.newItr address)
  | .destroyItr address => some (s.destroyItr address)
  | .move address m => s.moveItr address m
  | .deleteThis address => s.deleteThis address

/-- The calls the list allows, of iterators that exist. -/
def allowsStep (s : LinkedList α) : ListStep α → Bool
  | .list c => s.allows c
  | .newItr address => (s.findItr address).isNone
  | .destroyItr address | .move address _ | .deleteThis address => (s.findItr address).isSome

end LinkedList

/-- What is done with a list and its iterators; `Delete` of null is no `ListCall`. -/
inductive ListChange (α : Type)
  | step (l : ListStep α)
  | deleteNull

/-- One call, if it is allowed. -/
def LinkedList.change {α : Type} (s : LinkedList α) : ListChange α → Option (LinkedList α)
  | .step l => if s.allowsStep l then s.next l else none
  | .deleteNull => s.delete none

/-! ### What is asked of an iterator -/

/-- A question to an iterator. -/
inductive ItrQuery
  | value
  | hasNext
  | hasPrevious
  | atFirst
  | atEnd
deriving DecidableEq, Repr

namespace LinkedListItr

variable {α : Type}

/-- What `Value` points to, `none` where it is null. -/
def value (o : LinkedListItr) (list : LinkedList α) : Option (Option α) :=
  if o.itr.isSome then (list.node o.itr).map fun n => some n.data else some none

/-- `HasNext`. -/
def hasNext (o : LinkedListItr) (list : LinkedList α) : Option Bool :=
  if o.itr.isNone then some false else (list.node o.itr).map fun n => n.next.isSome

/-- `HasPrevious`. -/
def hasPrevious (o : LinkedListItr) (list : LinkedList α) : Option Bool :=
  if o.itr.isNone then some false else (list.node o.itr).map fun n => n.previous.isSome

/-- `AtFirst`. -/
def atFirst (o : LinkedListItr) (list : LinkedList α) : Bool :=
  if o.itr.isNone then false else list.isBegin o.itr

/-- `AtEnd`. -/
def atEnd (o : LinkedListItr) (list : LinkedList α) : Bool :=
  if o.itr.isNone then false else list.isEnd o.itr

/-- What an iterator answers, `none` where it follows a pointer that is no node's. -/
def answer (o : LinkedListItr) (list : LinkedList α) : ItrQuery → Option (Option α ⊕ Bool)
  | .value => (o.value list).map .inl
  | .hasNext => (o.hasNext list).map .inr
  | .hasPrevious => (o.hasPrevious list).map .inr
  | .atFirst => some (.inr (o.atFirst list))
  | .atEnd => some (.inr (o.atEnd list))

end LinkedListItr

/-- Something is done with a list or its iterators, or an iterator is asked. -/
inductive ListUse (α : Type)
  | step (l : ListStep α)
  | ask (address : Nat) (q : ItrQuery)

namespace LinkedList

variable {α : Type}

/-- A use of the list, with what it answers. -/
def use (s : LinkedList α) : ListUse α → Option (LinkedList α × List (Option α ⊕ Bool))
  | .step (.list c) => (s.call c).map fun r => (r.1, r.2.map .inl)
  | .step l => (s.next l).map (·, [])
  | .ask address q => do
      let o ← s.findItr address
      let a ← o.answer s q
      return (s, [a])

/-- The uses the list allows, of iterators that exist. -/
def allowsUse (s : LinkedList α) : ListUse α → Bool
  | .step l => s.allowsStep l
  | .ask address _ => (s.findItr address).isSome

/-- A list, and what its uses have answered so far. -/
def useNext (r : LinkedList α × List (Option α ⊕ Bool)) (l : ListUse α) :
    Option (LinkedList α × List (Option α ⊕ Bool)) :=
  (r.1.use l).map fun q => (q.1, r.2 ++ q.2)

end LinkedList

end ServClient
