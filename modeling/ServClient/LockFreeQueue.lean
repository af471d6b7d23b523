/-
`XDS::XLLFQ`, the linked queue behind every event queue.

The list always holds one node more than there are events: `mHead` is the node whose
event was handed out last, and the events still to come are behind it.  `pop` only
moves `mHead`; the nodes before it go at the next `push`.  `mTail` is the end of the
list after the constructor and after every `push`, so it is not a field here.
-/
import ServClient.Events

namespace ServClient

/-- `MAX_DEF`. -/
def maxDef : Nat := 2147483647

/-- The queue: its list, and where in it `mHead` is. -/
structure XLLFQ (α : Type) where
  /-- `mQ`. -/
  nodes : List α
  /-- The position of `mHead` in `mQ`. -/
  head : Nat
  maxSize : Nat
  head_lt : head < nodes.length

namespace XLLFQ

variable {α : Type}

/-- A queue as it is constructed, with one node that is never given out. -/
def new [Inhabited α] : XLLFQ α where
  nodes := [default]
  head := 0
  maxSize := maxDef
  head_lt := by simp

/-- `SetMaxSize`, with its cast to `unsigned int`. -/
def setMaxSize (q : XLLFQ α) (size : Int) : XLLFQ α :=
  { q with maxSize := (size % 2 ^ 32).toNat }

/-- `push`: the nodes before `mHead` are erased whether or not there is room. -/
def push (q : XLLFQ α) (data : α) : XLLFQ α × Bool :=
  let q := { q with
    nodes := q.nodes.drop q.head
    head := 0
    head_lt := by have := q.head_lt; rw [List.length_drop]; omega }
  if q.maxSize < q.nodes.length then (q, false)
  else
    ({ q with
        nodes := q.nodes ++ [data]
        head_lt := by rw [List.length_append]; have := q.head_lt; omega }, true)

/-- `pop`: `none` when there is nothing behind `mHead`. -/
def pop (q : XLLFQ α) : Option (XLLFQ α × α) :=
  let next := q.head + 1
  if h : next < q.nodes.length then
    some ({ q with head := next, head_lt := h }, q.nodes[next])
  else none

/-- `size()`: the nodes, not the events. -/
def size (q : XLLFQ α) : Nat := q.nodes.length

/-- The events pushed and not popped. -/
def pending (q : XLLFQ α) : List α := q.nodes.drop (q.head + 1)

end XLLFQ

/-! ### Calls with their argument -/

/-- A call of `push` or `pop`, with the value its `T&` argument refers to. -/
inductive QueueCall (α : Type)
  | push (data : α)
  | pop (data : α)
deriving Repr

/-- The queue after a call, what the call returns, and the value of its argument then. -/
def XLLFQ.call {α : Type} (q : XLLFQ α) : QueueCall α → XLLFQ α × Bool × α
  | .push data => ((q.push data).1, (q.push data).2, data)
  | .pop data =>
      match q.pop with
      | some (q, value) => (q, true, value)
      | none => (q, false, data)

end ServClient
