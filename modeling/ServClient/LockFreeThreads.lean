/-
`XDS::XLLFQ` between one thread that pushes and one that pops, without a lock.

`ServClient/LockFreeQueue.lean` has `push` and `pop` as one step each.  Here a step is
one access to the list, to `mHead` or to `mTail`, and the two threads take them in any
order.  A node is known by the order it was made in, and an iterator is a node or
`end()`; following one to a node that has been erased sets `fault`.
-/
import ServClient.LockFreeQueue
import ServClient.Lib.Nodes
import ServClient.Lib.Runs

namespace ServClient

/-- Where the thread that pushes is. -/
inductive PushPc (α : Type)
  | idle
  | called (data : α)
  /-- It has read `mHead`. -/
  | read (data : α) (head : Option Nat)
  | erased (data : α)
  /-- The list is not too long. -/
  | fits (data : α)
  /-- The node is in the list; `mTail` is still to be stored. -/
  | linked
deriving DecidableEq, Repr

/-- Where the thread that pops is. -/
inductive PopPc
  | idle
  | called
  | read (next : Option Nat)
  | advanced (next : Option Nat)
  /-- `next` is not `mTail`. -/
  | ahead (next : Option Nat)
  /-- `mHead` is `next`; the data are still to be copied. -/
  | stored
deriving DecidableEq, Repr

/-- The queue the two threads share, and what they have done to it. -/
structure LinkedXLLFQ (α : Type) where
  /-- `mQ`. -/
  nodes : List (Node α)
  /-- The nodes made so far. -/
  made : Nat
  head : Option Nat
  tail : Option Nat
  maxSize : Nat
  /-- The values linked, in order. -/
  linked : List α
  /-- How often `pop` has stored `mHead`. -/
  taken : Nat
  fault : Bool

/-- A queue, and where the one that pushes and the one that pops are. -/
structure XLLFQThreads (α : Type) where
  q : LinkedXLLFQ α
  pusher : PushPc α
  popper : PopPc
  /-- What the calls of `pop` that returned true gave out, in order. -/
  popped : List α

/-- A call begins, or goes on by one access to the queue. -/
inductive LFQStep (α : Type)
  | push (data : α)
  | pushReadHead
  | erase
  | compareSize
  | link
  | storeTail
  | pop
  | popReadHead
  | advance
  | compareTail
  | storeHead
  | copy
deriving DecidableEq, Repr

namespace LinkedXLLFQ

variable {α : Type}

/-- After the constructor and `SetMaxSize`. -/
def new [Inhabited α] (maxSize : Nat) : LinkedXLLFQ α where
  nodes := [⟨0, default⟩]
  made := 1
  head := some 0
  tail := none
  maxSize := maxSize
  linked := []
  taken := 0
  fault := false

/-- `mQ.push_back(data)`. -/
def pushBack (q : LinkedXLLFQ α) (data : α) : LinkedXLLFQ α :=
  { q with
    nodes := q.nodes ++ [⟨q.made, data⟩]
    made := q.made + 1
    linked := q.linked ++ [data] }

/-- The values linked that no `pop` has moved `mHead` to. -/
def pending (q : LinkedXLLFQ α) : List α := q.linked.drop q.taken

end LinkedXLLFQ

namespace XLLFQThreads

variable {α : Type}

/-- An empty queue, no call in progress. -/
def start [Inhabited α] (maxSize : Nat) : XLLFQThreads α :=
  { q := .new maxSize, pusher := .idle, popper := .idle, popped := [] }

/-- An erased node was followed. -/
def failed (s : XLLFQThreads α) : XLLFQThreads α := { s with q := { s.q with fault := true } }

/-- One step of one call; `none` where it is somewhere else. -/
def next (s : XLLFQThreads α) : LFQStep α → Option (XLLFQThreads α)
  | .push data =>
      match s.pusher with
      | .idle => some { s with pusher := .called data }
      | _ => none
  | .pushReadHead =>
      match s.pusher with
      | .called data => some { s with pusher := .read data s.q.head }
      | _ => none
  | .erase =>
      match s.pusher with
      | .read data head =>
          match Node.eraseBefore s.q.nodes head with
          | some nodes => some { s with q := { s.q with nodes := nodes }, pusher := .erased data }
          | none => some s.failed
      | _ => none
  | .compareSize =>
      match s.pusher with
      | .erased data =>
          some { s with pusher := if s.q.maxSize < s.q.nodes.length then .idle else .fits data }
      | _ => none
  | .link =>
      match s.pusher with
      | .fits data => some { s with q := s.q.pushBack data, pusher := .linked }
      | _ => none
  | .storeTail =>
      match s.pusher with
      | .linked => some { s with q := { s.q with tail := none }, pusher := .idle }
      | _ => none
  | .pop =>
      match s.popper with
      | .idle => some { s with popper := .called }
      | _ => none
  | .popReadHead =>
      match s.popper with
      | .called => some { s with popper := .read s.q.head }
      | _ => none
  | .advance =>
      match s.popper with
      | .read it =>
          match Node.advance s.q.nodes it with
          | some next => some { s with popper := .advanced next }
          | none => some s.failed
      | _ => none
  | .compareTail =>
      match s.popper with
      | .advanced next =>
          some { s with popper := if next ≠ s.q.tail then .ahead next else .idle }
      | _ => none
  | .storeHead =>
      match s.popper with
      | .ahead next => some { s with
          q := { s.q with head := next, taken := s.q.taken + 1 }
          popper := .stored }
      | _ => none
  | .copy =>
      match s.popper with
      | .stored =>
          match Node.deref s.q.nodes s.q.head with
          | some data => some { s with popper := .idle, popped := s.popped ++ [data] }
          | none => some s.failed
      | _ => none

end XLLFQThreads

end ServClient
