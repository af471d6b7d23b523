/-
Why one thread that pushes and one that pops need no lock.

The nodes of the list are numbered without a gap, and `mHead` is the number of values
taken.  The thread that pushes erases up to a `mHead` it has read, which the other thread
can only have moved on since, so `mHead` and what is behind it stay in the list: no
iterator of the popping thread is ever to an erased node.  `mTail` is always `end()`.

Between two accesses of a thread the other one changes little, and the invariant says what
each has seen that still holds.  From it the two threads are a bounded buffer: linking a
node offers its value, storing `mHead` polls.  With no step of the other thread in
between, `push` and `pop` are the ones of `ServClient/LockFreeQueue.lean`.
-/
import ServClient.LockFreeThreads
import ServClient.Proofs.LockFreeQueue

namespace ServClient

open Runs

variable {α : Type}

/-- `mHead` is stored and the value is not copied. -/
def PopPc.beforeCopy : PopPc → Nat
  | stored => 1
  | _ => 0

/-! ### The list

`push` erases the nodes before `mHead` and then links one behind the others; `pop` moves `mHead`.
Nodes are numbered as they come, so that an iterator is a number.
-/

namespace LinkedXLLFQ

/-- The list begins with node `first`.  Node 0 holds no value; the node of a value is the one
after that of the value before. -/
structure From [Inhabited α] (first : Nat) (q : LinkedXLLFQ α) : Prop where
  fault : q.fault = false
  tail : q.tail = none
  head : q.head = some q.taken
  numbered : Node.Numbered first q.nodes
  data : q.nodes.map Node.data = (default :: q.linked).drop first
  made : q.made = q.linked.length + 1
  first_le : first ≤ q.taken
  taken_le : q.taken ≤ q.linked.length
  bounded : q.nodes.length ≤ q.maxSize + 1

theorem from_new [Inhabited α] (maxSize : Nat) : From 0 (new maxSize : LinkedXLLFQ α) where
  fault := rfl
  tail := rfl
  head := rfl
  numbered := ⟨rfl, trivial⟩
  data := rfl
  made := rfl
  first_le := Nat.le_refl 0
  taken_le := Nat.le_refl 0
  bounded := Nat.le_add_left 1 maxSize

namespace From

variable [Inhabited α] {q : LinkedXLLFQ α} {first i : Nat}

theorem length (h : From first q) : q.nodes.length = q.linked.length + 1 - first := by
  have := congrArg List.length h.data
  simpa using this

/-- `mHead` is in the list. -/
theorem head_lt (h : From first q) : q.taken - first < q.nodes.length := by
  have := h.length
  have := h.first_le
  have := h.taken_le
  omega

theorem head_eq (h : From first q) : q.taken = first + (q.taken - first) :=
  (Nat.add_sub_cancel' h.first_le).symm

theorem pending_length (h : From first q) :
    q.pending.length + (q.taken - first) + 1 = q.nodes.length := by
  have := h.length
  have := h.first_le
  have := h.taken_le
  rw [pending, List.length_drop]
  omega

/-- The erasing thread has read a `mHead` that may since have moved on. -/
theorem eraseBefore (h : From first q) (hi : first + i ≤ q.taken) :
    ∃ nodes, Node.eraseBefore q.nodes (some (first + i)) = some nodes ∧
      From (first + i) { q with nodes := nodes } := by
  have hlt : i < q.nodes.length := by
    have := h.head_lt
    omega
  refine ⟨_, h.numbered.eraseBefore hlt, h.fault, h.tail, h.head, h.numbered.drop, ?_, h.made, hi,
    h.taken_le, ?_⟩
  · dsimp only
    rw [List.map_drop, h.data, List.drop_drop]
  · have := h.bounded
    dsimp only
    rw [List.length_drop]
    omega

theorem pushBack (h : From first q) (hroom : q.nodes.length ≤ q.maxSize) (data : α) :
    From first (q.pushBack data) := by
  have hlength := h.length
  have hfirst := h.first_le
  have htaken := h.taken_le
  refine ⟨h.fault, h.tail, h.head, ?_, ?_, ?_, hfirst, ?_, ?_⟩
  · have hmade : q.made = first + q.nodes.length := by
      rw [h.made]
      omega
    show Node.Numbered first (q.nodes ++ [Node.mk q.made data])
    rw [hmade]
    exact h.numbered.concat data
  · show (q.nodes ++ [Node.mk q.made data]).map Node.data =
      (default :: (q.linked ++ [data])).drop first
    rw [List.map_append, h.data, ← List.cons_append, List.drop_append_of_le_length]
    · rfl
    · rw [List.length_cons]
      omega
  · simp [LinkedXLLFQ.pushBack, h.made]
  · simp only [LinkedXLLFQ.pushBack, List.length_append, List.length_singleton]
    omega
  · simp only [LinkedXLLFQ.pushBack, List.length_append, List.length_singleton]
    omega

/-- The iterator after `mHead` is to the oldest pending value, or the end. -/
theorem advance (h : From first q) :
    Node.advance q.nodes (some q.taken) =
      some (if q.taken < q.linked.length then some (q.taken + 1) else none) := by
  have hnext := h.numbered.advance h.head_lt
  rw [← h.head_eq] at hnext
  rw [hnext]
  have := h.length
  have := h.first_le
  have := h.taken_le
  simp only [show q.taken - first + 1 < q.nodes.length ↔ q.taken < q.linked.length by omega]

theorem storeHead (h : From first q) (hlt : q.taken < q.linked.length) :
    From first { q with head := some (q.taken + 1), taken := q.taken + 1 } :=
  ⟨h.fault, h.tail, rfl, h.numbered, h.data, h.made, Nat.le_succ_of_le h.first_le, hlt, h.bounded⟩

/-- `*mHead` is the value taken last. -/
theorem deref (h : From first q) {n : Nat} (htaken : q.taken = n + 1) :
    Node.deref q.nodes q.head = q.linked[n]? := by
  rw [h.head, h.head_eq, h.numbered.deref, h.data, List.getElem?_drop, ← h.head_eq, htaken,
    List.getElem?_cons_succ]

end From

end LinkedXLLFQ

/-! ### What one step can do -/

namespace XLLFQThreads

/-- What one step can do, with what it finds. -/
inductive Moves (s : XLLFQThreads α) : LFQStep α → XLLFQThreads α → Prop
  | push {data} (hp : s.pusher = .idle) : Moves s (.push data) { s with pusher := .called data }
  | pushReadHead {data} (hp : s.pusher = .called data) :
      Moves s .pushReadHead { s with pusher := .read data s.q.head }
  | erase {data head nodes} (hp : s.pusher = .read data head)
      (hnodes : Node.eraseBefore s.q.nodes head = some nodes) :
      Moves s .erase { s with q := { s.q with nodes := nodes }, pusher := .erased data }
  | eraseFault {data head} (hp : s.pusher = .read data head)
      (hnodes : Node.eraseBefore s.q.nodes head = none) : Moves s .erase s.failed
  | full {data} (hp : s.pusher = .erased data) (hsize : s.q.maxSize < s.q.nodes.length) :
      Moves s .compareSize { s with pusher := .idle }
  | fits {data} (hp : s.pusher = .erased data) (hsize : s.q.nodes.length ≤ s.q.maxSize) :
      Moves s .compareSize { s with pusher := .fits data }
  | link {data} (hp : s.pusher = .fits data) :
      Moves s .link { s with q := s.q.pushBack data, pusher := .linked }
  | storeTail (hp : s.pusher = .linked) :
      Moves s .storeTail { s with q := { s.q with tail := none }, pusher := .idle }
  | pop (hp : s.popper = .idle) : Moves s .pop { s with popper := .called }
  | popReadHead (hp : s.popper = .called) :
      Moves s .popReadHead { s with popper := .read s.q.head }
  | advance {it next} (hp : s.popper = .read it)
      (hnext : Node.advance s.q.nodes it = some next) :
      Moves s .advance { s with popper := .advanced next }
  | advanceFault {it} (hp : s.popper = .read it) (hnext : Node.advance s.q.nodes it = none) :
      Moves s .advance s.failed
  | ahead {next} (hp : s.popper = .advanced next) (hnext : next ≠ s.q.tail) :
      Moves s .compareTail { s with popper := .ahead next }
  | empty {next} (hp : s.popper = .advanced next) (hnext : next = s.q.tail) :
      Moves s .compareTail { s with popper := .idle }
  | storeHead {next} (hp : s.popper = .ahead next) :
      Moves s .storeHead { s with
        q := { s.q with head := next, taken := s.q.taken + 1 }, popper := .stored }
  | copy {data} (hp : s.popper = .stored) (hdata : Node.deref s.q.nodes s.q.head = some data) :
      Moves s .copy { s with popper := .idle, popped := s.popped ++ [data] }
  | copyFault (hp : s.popper = .stored) (hdata : Node.deref s.q.nodes s.q.head = none) :
      Moves s .copy s.failed

theorem moves_of_next {s s' : XLLFQThreads α} {l : LFQStep α} (h : s.next l = some s') :
    Moves s l s' := by
  cases l with
  | push data =>
      simp only [next] at h
      split at h
      · rename_i hp; cases h; exact .push hp
      · cases h
  | pushReadHead =>
      simp only [next] at h
      split at h
      · rename_i hp; cases h; exact .pushReadHead hp
      · cases h
  | erase =>
      simp only [next] at h
      split at h
      · rename_i hp
        split at h
        · rename_i hnodes; cases h; exact .erase hp hnodes
        · rename_i hnodes; cases h; exact .eraseFault hp hnodes
      · cases h
  | compareSize =>
      simp only [next] at h
      split at h
      · rename_i hp
        split at h
        · rename_i hsize; cases h; exact .full hp hsize
        · rename_i hsize; cases h; exact .fits hp (Nat.not_lt.mp hsize)
      · cases h
  | link =>
      simp only [next] at h
      split at h
      · rename_i hp; cases h; exact .link hp
      · cases h
  | storeTail =>
      simp only [next] at h
      split at h
      · rename_i hp; cases h; exact .storeTail hp
      · cases h
  | pop =>
      simp only [next] at h
      split at h
      · rename_i hp; cases h; exact .pop hp
      · cases h
  | popReadHead =>
      simp only [next] at h
      split at h
      · rename_i hp; cases h; exact .popReadHead hp
      · cases h
  | advance =>
      simp only [next] at h
      split at h
      · rename_i hp
        split at h
        · rename_i hnext; cases h; exact .advance hp hnext
        · rename_i hnext; cases h; exact .advanceFault hp hnext
      · cases h
  | compareTail =>
      simp only [next] at h
      split at h
      · rename_i hp
        split at h
        · rename_i hnext; cases h; exact .ahead hp hnext
        · rename_i hnext; cases h; exact .empty hp (not_not.mp hnext)
      · cases h
  | storeHead =>
      simp only [next] at h
      split at h
      · rename_i hp; cases h; exact .storeHead hp
      · cases h
  | copy =>
      simp only [next] at h
      split at h
      · rename_i hp
        split at h
        · rename_i hdata; cases h; exact .copy hp hdata
        · rename_i hdata; cases h; exact .copyFault hp hdata
      · cases h

/-! ### What each thread has seen that still holds

What a thread has read may be out of date by the time it uses it.  For each of its places this says
what is still true of what it has, and each step of the other thread keeps that.
-/

/-- What the one that pushes has read is a node that is still there. -/
def PusherOK (first : Nat) (q : LinkedXLLFQ α) : PushPc α → Prop
  | .read _ head => ∃ i, head = some (first + i) ∧ first + i ≤ q.taken
  | .fits _ => q.nodes.length ≤ q.maxSize
  | .idle | .called _ | .erased _ | .linked => True

/-- What the one that pops has read is `mHead`, or the node behind it. -/
def PopperOK (q : LinkedXLLFQ α) : PopPc → Prop
  | .read it => it = some q.taken
  | .advanced next => next = none ∨ next = some (q.taken + 1) ∧ q.taken < q.linked.length
  | .ahead next => next = some (q.taken + 1) ∧ q.taken < q.linked.length
  | .idle | .called | .stored => True

/-- The other thread has moved `mHead` on. -/
theorem PusherOK.storeHead {first : Nat} {q : LinkedXLLFQ α} {pc : PushPc α}
    (h : PusherOK first q pc) (head : Option Nat) :
    PusherOK first { q with head := head, taken := q.taken + 1 } pc := by
  cases pc with
  | read data it =>
      obtain ⟨i, hit, hi⟩ := h
      exact ⟨i, hit, Nat.le_succ_of_le hi⟩
  | idle | called | erased | fits | linked => exact h

/-- The other thread has linked a node. -/
theorem PopperOK.pushBack {q : LinkedXLLFQ α} {pc : PopPc} (h : PopperOK q pc) (data : α) :
    PopperOK (q.pushBack data) pc := by
  have hlt : q.taken < q.linked.length → q.taken < (q.linked ++ [data]).length := by
    rw [List.length_append]
    exact Nat.lt_add_right 1
  cases pc with
  | advanced next => exact h.imp_right fun hnext => ⟨hnext.1, hlt hnext.2⟩
  | ahead next => exact ⟨h.1, hlt h.2⟩
  | idle | called | read | stored => exact h

/-- One more in order. -/
theorem prefix_concat {l m : List α} {a : α} (h : l <+: m) (ha : m[l.length]? = some a) :
    l ++ [a] <+: m := by
  obtain ⟨rest, rfl⟩ := h
  rw [List.getElem?_append_right (Nat.le_refl _), Nat.sub_self] at ha
  cases rest with
  | nil => cases ha
  | cons b rest =>
      cases ha
      exact ⟨rest, by simp⟩

/-- The list begins with node `first`. -/
structure From [Inhabited α] (first : Nat) (s : XLLFQThreads α) : Prop where
  list : s.q.From first
  pusher : PusherOK first s.q s.pusher
  popper : PopperOK s.q s.popper
  popped : s.popped <+: s.q.linked
  settled : s.popped.length + s.popper.beforeCopy = s.q.taken

/-- The queue is one whose first node has some address, everything in its place. -/
def Inv [Inhabited α] (s : XLLFQThreads α) : Prop := ∃ first, From first s

theorem inv_start [Inhabited α] (maxSize : Nat) : Inv (start maxSize : XLLFQThreads α) :=
  ⟨0, LinkedXLLFQ.from_new maxSize, trivial, trivial, List.prefix_rfl, rfl⟩

theorem Moves.inv [Inhabited α] {s s' : XLLFQThreads α} {l : LFQStep α} (h : Moves s l s')
    (hs : Inv s) : Inv s' := by
  obtain ⟨first, hs⟩ := hs
  have hpusher := hs.pusher
  have hpopper := hs.popper
  have hsettled := hs.settled
  cases h with
  | push hp | full hp hsize =>
      exact ⟨first, hs.list, trivial, hpopper, hs.popped, hsettled⟩
  | pushReadHead hp =>
      refine ⟨first, hs.list, ⟨s.q.taken - first, ?_, ?_⟩, hpopper, hs.popped, hsettled⟩
      · rw [hs.list.head, ← hs.list.head_eq]
      · rw [← hs.list.head_eq]
  | erase hp hnodes =>
      rw [hp] at hpusher
      obtain ⟨i, rfl, hi⟩ := hpusher
      obtain ⟨nodes, heq, hlist⟩ := hs.list.eraseBefore hi
      cases heq.symm.trans hnodes
      exact ⟨first + i, hlist, trivial, hpopper, hs.popped, hsettled⟩
  | eraseFault hp hnodes =>
      rw [hp] at hpusher
      obtain ⟨i, rfl, hi⟩ := hpusher
      obtain ⟨nodes, heq, -⟩ := hs.list.eraseBefore hi
      cases heq.symm.trans hnodes
  | fits hp hsize => exact ⟨first, hs.list, hsize, hpopper, hs.popped, hsettled⟩
  | @link data hp =>
      rw [hp] at hpusher
      exact ⟨first, hs.list.pushBack hpusher data, trivial, hpopper.pushBack data,
        hs.popped.trans (List.prefix_append _ _), hsettled⟩
  | storeTail hp =>
      exact ⟨first, { hs.list with tail := rfl }, trivial, hpopper, hs.popped, hsettled⟩
  | pop hp =>
      rw [hp] at hsettled
      exact ⟨first, hs.list, hpusher, trivial, hs.popped, hsettled⟩
  | popReadHead hp =>
      rw [hp] at hsettled
      exact ⟨first, hs.list, hpusher, hs.list.head, hs.popped, hsettled⟩
  | @advance it next hp hnext =>
      rw [hp] at hsettled hpopper
      rw [show it = some s.q.taken from hpopper, hs.list.advance] at hnext
      refine ⟨first, hs.list, hpusher, ?_, hs.popped, hsettled⟩
      split at hnext
      · rename_i hlt; cases hnext; exact Or.inr ⟨rfl, hlt⟩
      · cases hnext; exact Or.inl rfl
  | @advanceFault it hp hnext =>
      rw [hp] at hpopper
      rw [show it = some s.q.taken from hpopper, hs.list.advance] at hnext
      cases hnext
  | ahead hp hnext =>
      rw [hp] at hsettled hpopper
      rw [hs.list.tail] at hnext
      exact ⟨first, hs.list, hpusher, hpopper.resolve_left hnext, hs.popped, hsettled⟩
  | empty hp hnext =>
      rw [hp] at hsettled
      exact ⟨first, hs.list, hpusher, trivial, hs.popped, hsettled⟩
  | storeHead hp =>
      rw [hp] at hsettled hpopper
      obtain ⟨rfl, hlt⟩ := hpopper
      exact ⟨first, hs.list.storeHead hlt, hpusher.storeHead _, trivial, hs.popped,
        congrArg (· + 1) hsettled⟩
  | copy hp hdata =>
      rw [hp] at hsettled
      rw [hs.list.deref hsettled.symm] at hdata
      refine ⟨first, hs.list, hpusher, trivial, ?_, ?_⟩
      · exact prefix_concat hs.popped hdata
      · rw [List.length_append]
        exact hsettled
  | copyFault hp hdata =>
      rw [hp] at hsettled
      rw [hs.list.deref hsettled.symm, List.getElem?_eq_none_iff] at hdata
      have := hs.list.taken_le
      have : s.popped.length + 1 = s.q.taken := hsettled
      omega

theorem inv_exec [Inhabited α] {s s' : XLLFQThreads α} {ls : List (LFQStep α)} (hs : Inv s)
    (h : exec next s ls = some s') : Inv s' :=
  exec_invariant (fun _ _ _ hu hstep => (moves_of_next hstep).inv hu) hs h

/-! ### The two threads are a bounded buffer

The two threads need no lock: each change that the other one can see is one step, and between those
steps the list stands for the same buffer.
-/

/-- The buffer the list stands for. -/
def toFifo (q : LinkedXLLFQ α) : Fifo α := { items := q.pending, capacity := q.maxSize }

theorem pending_pushBack {q : LinkedXLLFQ α} (h : q.taken ≤ q.linked.length) (data : α) :
    (q.pushBack data).pending = q.pending ++ [data] := by
  show (q.linked ++ [data]).drop q.taken = _
  rw [List.drop_append_of_le_length h]
  rfl

/-- Linking a node is an offer that finds room, storing `mHead` a poll; no other step shows. -/
theorem fifo_step [Inhabited α] {s s' : XLLFQThreads α} {l : LFQStep α} (hs : Inv s)
    (h : s.next l = some s') :
    toFifo s'.q = toFifo s.q ∨ ∃ op, Fifo.next (toFifo s.q) op = some (toFifo s'.q) := by
  obtain ⟨first, hs⟩ := hs
  have hpusher := hs.pusher
  have hpopper := hs.popper
  cases moves_of_next h with
  | push | pushReadHead | erase | eraseFault | full | fits | storeTail | pop | popReadHead
  | advance | advanceFault | ahead | empty | copy | copyFault => exact Or.inl rfl
  | @link data hp =>
      rw [hp] at hpusher
      have hsize : s.q.nodes.length ≤ s.q.maxSize := hpusher
      have hpending := hs.list.pending_length
      have hroom : (toFifo s.q).HasRoom := by
        show s.q.pending.length < s.q.maxSize
        omega
      refine Or.inr ⟨.offer data, ?_⟩
      rw [Fifo.next, Fifo.offer_room hroom]
      simp only [toFifo, pending_pushBack hs.list.taken_le]
      rfl
  | storeHead hp =>
      rw [hp] at hpopper
      obtain ⟨rfl, hlt⟩ := hpopper
      refine Or.inr ⟨.poll, ?_⟩
      have hpending : s.q.pending = s.q.linked[s.q.taken] :: s.q.linked.drop (s.q.taken + 1) :=
        List.drop_eq_getElem_cons hlt
      simp only [Fifo.next, Fifo.poll, toFifo, hpending, Option.map_some]
      rfl

/-- Every interleaving of the two threads is a history of that buffer. -/
theorem fifo_exec [Inhabited α] {s s' : XLLFQThreads α} {ls : List (LFQStep α)} (hs : Inv s)
    (h : exec next s ls = some s') :
    ∃ ops, exec Fifo.next (toFifo s.q) ops = some (toFifo s'.q) := by
  have hstep : ∀ (u : XLLFQThreads α) (f : Fifo α) (l : LFQStep α) (u' : XLLFQThreads α),
      (Inv u ∧ toFifo u.q = f) → next u l = some u' →
      ∃ ks f', exec Fifo.next f ks = some f' ∧ Inv u' ∧ toFifo u'.q = f' := by
    rintro u f l u' ⟨hu, rfl⟩ hl
    rcases fifo_step hu hl with hsame | ⟨op, hop⟩
    · exact ⟨[], _, rfl, (moves_of_next hl).inv hu, hsame⟩
    · exact ⟨[op], _, exec_single hop, (moves_of_next hl).inv hu, rfl⟩
  obtain ⟨ops, f, hops, -, rfl⟩ := exec_simulation hstep ⟨hs, rfl⟩ h
  exact ⟨ops, hops⟩

/-! ### One thread alone -/

/-- The same queue, its nodes by their place in the list. -/
structure Represents (first : Nat) (q : LinkedXLLFQ α) (r : XLLFQ α) : Prop where
  nodes : r.nodes = q.nodes.map Node.data
  head : q.taken = first + r.head
  maxSize : r.maxSize = q.maxSize

theorem represents_new [Inhabited α] (maxSize : Nat) :
    Represents 0 (.new maxSize : LinkedXLLFQ α) { XLLFQ.new with maxSize := maxSize } :=
  ⟨rfl, rfl, rfl⟩

/-- `push` with no step of the other thread in between. -/
theorem exec_push [Inhabited α] {s : XLLFQThreads α} {first : Nat} (hs : From first s)
    (hidle : s.pusher = .idle) {r : XLLFQ α} (hr : Represents first s.q r) (data : α) :
    ∃ ls q first', exec next s ls = some { s with q := q } ∧
      Represents first' q (r.push data).1 ∧
      q.linked = s.q.linked ++ (if (r.push data).2 then [data] else []) := by
  obtain ⟨nodes, hnodes, hlist⟩ := hs.list.eraseBefore (Nat.le_of_eq hr.head.symm)
  have hdata : r.nodes.drop r.head = nodes.map Node.data := by
    have hold := hs.list.data
    rw [← hr.nodes] at hold
    rw [hlist.data, hold, List.drop_drop]
  have hlength : (r.nodes.drop r.head).length = nodes.length := by rw [hdata, List.length_map]
  have hread : exec next s [.push data, .pushReadHead, .erase] =
      some { s with q := { s.q with nodes := nodes }, pusher := .erased data } := by
    simp only [exec_cons, next, hidle, Option.bind_some, hs.list.head, hr.head, hnodes, exec_nil]
  by_cases hsize : s.q.maxSize < nodes.length
  · have hpush : r.push data = ({ r with
        nodes := r.nodes.drop r.head, head := 0, head_lt := _ }, false) :=
      if_pos (by rw [hr.maxSize]; dsimp only; rw [hlength]; exact hsize)
    refine ⟨_, { s.q with nodes := nodes }, first + r.head, exec_append_some hread
      (exec_single (l := LFQStep.compareSize) ?_), ?_, ?_⟩
    · simp only [next, hsize, if_true, ← hidle]
    · rw [hpush]
      exact ⟨hdata, hr.head, hr.maxSize⟩
    · rw [hpush]
      simp
  · have hpush : r.push data = ({ r with
        nodes := r.nodes.drop r.head ++ [data], head := 0, head_lt := _ }, true) :=
      if_neg (by rw [hr.maxSize]; dsimp only; rw [hlength]; exact hsize)
    refine ⟨_, { s.q with nodes := nodes }.pushBack data, first + r.head,
      exec_append_some hread (show exec _ _ [.compareSize, .link, .storeTail] = _ from ?_), ?_, ?_⟩
    · simp only [exec_cons, next, hsize, if_false, Option.bind_some, exec_nil,
        LinkedXLLFQ.pushBack, hs.list.tail, ← hidle]
    · rw [hpush]
      refine ⟨?_, hr.head, hr.maxSize⟩
      simp [LinkedXLLFQ.pushBack, hdata]
    · rw [hpush]
      rfl

/-- `pop` with no step of the other thread in between. -/
theorem exec_pop [Inhabited α] {s : XLLFQThreads α} {first : Nat} (hs : From first s)
    (hidle : s.popper = .idle) {r : XLLFQ α} (hr : Represents first s.q r) :
    ∃ ls, match r.pop with
      | some (r', data) => ∃ q, exec next s ls =
          some { s with q := q, popped := s.popped ++ [data] } ∧ Represents first q r'
      | none => exec next s ls = some s := by
  have hread : exec next s [.pop, .popReadHead, .advance] = some { s with
      popper := .advanced
        (if s.q.taken < s.q.linked.length then some (s.q.taken + 1) else none) } := by
    simp only [exec_cons, next, hidle, Option.bind_some, hs.list.head, hs.list.advance, exec_nil]
  have hlength : r.nodes.length = s.q.linked.length + 1 - first := by
    rw [hr.nodes, List.length_map, hs.list.length]
  have hhead := hr.head
  have htaken := hs.list.taken_le
  unfold XLLFQ.pop
  by_cases hlt : s.q.taken < s.q.linked.length
  · have hnext : r.head + 1 < r.nodes.length := by omega
    rw [if_pos hlt] at hread
    have hq := hs.list.storeHead hlt
    have hdata : s.q.linked[s.q.taken]? = some r.nodes[r.head + 1] := by
      rw [← List.getElem?_eq_getElem hnext, hr.nodes, hs.list.data, List.getElem?_drop,
        ← Nat.add_assoc, ← hhead, List.getElem?_cons_succ]
    have hderef := hq.deref rfl
    dsimp only at hderef
    rw [hdata] at hderef
    refine ⟨[.pop, .popReadHead, .advance] ++ [.compareTail, .storeHead, .copy], ?_⟩
    simp only [hnext, dite_true]
    refine ⟨{ s.q with head := some (s.q.taken + 1), taken := s.q.taken + 1 },
      exec_append_some hread ?_, ?_⟩
    · simp only [exec_cons, next, hs.list.tail, ne_eq, reduceCtorEq, not_false_eq_true, if_true,
        Option.bind_some, hderef, exec_nil, ← hidle]
    · exact ⟨hr.nodes, congrArg (· + 1) hhead, hr.maxSize⟩
  · have hnext : ¬ r.head + 1 < r.nodes.length := by omega
    rw [if_neg hlt] at hread
    refine ⟨[.pop, .popReadHead, .advance] ++ [.compareTail], ?_⟩
    simp only [hnext, dite_false]
    refine exec_append_some hread (exec_single (l := LFQStep.compareTail) ?_)
    simp only [next, hs.list.tail, ne_eq, not_true_eq_false, if_false, ← hidle]

/-! ### Any interleaving -/

theorem maxSize_exec {s s' : XLLFQThreads α} {ls : List (LFQStep α)}
    (h : exec next s ls = some s') : s'.q.maxSize = s.q.maxSize := by
  refine exec_invariant (I := fun u => u.q.maxSize = s.q.maxSize) (fun u l u' hu hstep => ?_) rfl h
  rw [← hu]
  cases moves_of_next hstep <;> rfl

/--
No iterator of the popping thread is ever to an erased node, what `pop` returns is what `push`
linked, in order, and of what is linked at most `mMaxSize` values are ahead of `mHead`.
-/
theorem one_pusher_one_popper [Inhabited α] (maxSize : Nat) {ls : List (LFQStep α)}
    {s : XLLFQThreads α} (hrun : exec next (start maxSize) ls = some s) :
    s.q.fault = false ∧ s.popped <+: s.q.linked ∧
      s.q.linked.length ≤ s.q.taken + maxSize ∧
      s.popped.length + s.popper.beforeCopy = s.q.taken := by
  obtain ⟨first, hs⟩ := inv_exec (inv_start maxSize) hrun
  refine ⟨hs.list.fault, hs.popped, ?_, hs.settled⟩
  have hmax : s.q.maxSize = maxSize := maxSize_exec hrun
  have hpending := hs.list.pending_length
  have hbounded := hs.list.bounded
  have hlength : s.q.pending.length = s.q.linked.length - s.q.taken := List.length_drop
  omega

/-- A queue for one event: a `pop` looks at the list while the nodes before `mHead` go. -/
def overtaken : List (LFQStep Nat) :=
  [.push 7, .pushReadHead, .erase, .compareSize, .link, .pop, .popReadHead, .advance, .storeTail,
    .compareTail, .storeHead, .push 8, .pushReadHead, .erase, .compareSize, .copy, .pop,
    .popReadHead, .link, .advance, .compareTail]

theorem one_pusher_one_popper_overtaken :
    ∃ s : XLLFQThreads Nat, exec next (start 1) overtaken = some s ∧
      s.q.fault = false ∧ s.popped <+: s.q.linked ∧ s.q.linked.length ≤ s.q.taken + 1 ∧
      s.popped.length + s.popper.beforeCopy = s.q.taken := by
  obtain ⟨s, hs⟩ := Option.isSome_iff_exists.mp
    (show (exec next (start 1 : XLLFQThreads Nat) overtaken).isSome = true by decide)
  exact ⟨s, hs, one_pusher_one_popper 1 hs⟩

end XLLFQThreads

end ServClient
