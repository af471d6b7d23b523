/-
The linked queue is a bounded first-in first-out buffer of its pending events.

`mQ` has one node more than there are events and loses the spent nodes only at the
next `push`; none of this shows from outside.
-/
import ServClient.LockFreeQueue
import ServClient.Lib.Fifo

namespace ServClient.XLLFQ

variable {α : Type}

/-- The buffer the queue stands for. -/
def toFifo (q : XLLFQ α) : Fifo α := { items := q.pending, capacity := q.maxSize }

@[simp] theorem toFifo_items (q : XLLFQ α) : q.toFifo.items = q.pending := rfl

theorem hasRoom_iff (q : XLLFQ α) : q.toFifo.HasRoom ↔ q.pending.length < q.maxSize := Iff.rfl

theorem push_toFifo (q : XLLFQ α) (data : α) :
    ((q.push data).1.toFifo, (q.push data).2) = q.toFifo.offer data := by
  have hlt := q.head_lt
  have hlen : (q.nodes.drop q.head).length = q.pending.length + 1 := by
    simp only [pending, List.length_drop]
    omega
  have hdrop : (q.nodes.drop q.head).drop 1 = q.pending := by rw [List.drop_drop, pending]
  unfold push Fifo.offer
  simp only [hasRoom_iff]
  by_cases hroom : q.pending.length < q.maxSize
  · rw [if_neg (by omega), if_pos hroom]
    simp only [toFifo, Prod.mk.injEq, Fifo.mk.injEq, and_true]
    show (q.nodes.drop q.head ++ [data]).drop 1 = q.pending ++ [data]
    rw [List.drop_append_of_le_length (by omega), hdrop]
  · rw [if_pos (by omega), if_neg hroom]
    simp only [toFifo, Prod.mk.injEq, Fifo.mk.injEq, and_true]
    exact hdrop

theorem pop_toFifo (q : XLLFQ α) :
    q.pop.map (fun r => (r.1.toFifo, r.2)) = q.toFifo.poll := by
  unfold pop Fifo.poll
  simp only [toFifo_items, pending]
  split
  · rename_i h
    rw [List.drop_eq_getElem_cons h]
    rfl
  · rename_i h
    rw [List.drop_eq_nil_of_le (by omega)]
    rfl

/-- The same call of a buffer: it is refused when there is no room or nothing to take. -/
def fifoCall (f : Fifo α) : QueueCall α → Fifo α × Bool × α
  | .push data => ((f.offer data).1, (f.offer data).2, data)
  | .pop data =>
      match f.poll with
      | some (f, value) => (f, true, value)
      | none => (f, false, data)

theorem call_toFifo (q : XLLFQ α) (c : QueueCall α) :
    ((q.call c).1.toFifo, (q.call c).2) = fifoCall q.toFifo c := by
  cases c with
  | push data =>
      have hpush := q.push_toFifo data
      rw [Prod.mk.injEq] at hpush
      rw [call, fifoCall, hpush.1, hpush.2]
  | pop data =>
      have hpop := q.pop_toFifo
      rw [call, fifoCall, ← hpop]
      cases q.pop with
      | none => rfl
      | some r => rfl

/--
A new queue answers every sequence of calls as an empty buffer does that has room for as many
values as `mMaxSize` says, and what is pending is what the buffer holds.
-/
theorem bounded_fifo [Inhabited α] (size : Int) (calls : List (QueueCall α)) :
    let start := (new : XLLFQ α).setMaxSize size
    let q := Runs.callAll call start calls
    let f := Runs.callAll fifoCall { items := [], capacity := start.maxSize } calls
    q.2 = f.2 ∧ q.1.pending = f.1.items := by
  intro start q f
  have hstep : ∀ (q : XLLFQ α) (f : Fifo α) (c : QueueCall α), q.toFifo = f →
      (q.call c).1.toFifo = (fifoCall f c).1 ∧ (q.call c).2 = (fifoCall f c).2 := by
    rintro q _ c rfl
    exact Prod.ext_iff.mp (q.call_toFifo c)
  obtain ⟨hlast, hanswers⟩ :=
    Runs.callAll_simulation (R := fun q f => q.toFifo = f) hstep (s := start) calls rfl
  exact ⟨hanswers, congrArg Fifo.items hlast⟩

/-! ### What the rest of the development uses -/

theorem push_room {q : XLLFQ α} (h : q.pending.length < q.maxSize) (data : α) :
    (q.push data).2 = true ∧ (q.push data).1.pending = q.pending ++ [data] := by
  have hpush := q.push_toFifo data
  rw [Fifo.offer_room (q.hasRoom_iff.mpr h), Prod.mk.injEq] at hpush
  exact ⟨hpush.2, congrArg Fifo.items hpush.1⟩

theorem push_full {q : XLLFQ α} (h : ¬ q.pending.length < q.maxSize) (data : α) :
    (q.push data).2 = false ∧ (q.push data).1.pending = q.pending := by
  have hpush := q.push_toFifo data
  rw [Fifo.offer_full (fun hc => h (q.hasRoom_iff.mp hc)), Prod.mk.injEq] at hpush
  exact ⟨hpush.2, congrArg Fifo.items hpush.1⟩

@[simp] theorem push_maxSize (q : XLLFQ α) (data : α) : (q.push data).1.maxSize = q.maxSize := by
  unfold push
  simp only
  split <;> rfl

theorem pop_maxSize {q q' : XLLFQ α} {data : α} (h : q.pop = some (q', data)) :
    q'.maxSize = q.maxSize := by
  simp only [pop] at h
  split at h
  · cases h; rfl
  · cases h

theorem pop_nodes {q q' : XLLFQ α} {data : α} (h : q.pop = some (q', data)) :
    q'.nodes = q.nodes ∧ data ∈ q.nodes := by
  simp only [pop] at h
  split at h
  · cases h
    exact ⟨rfl, List.getElem_mem _⟩
  · cases h

theorem pop_eq_some {q q' : XLLFQ α} {data : α} (h : q.pop = some (q', data)) :
    q.pending = data :: q'.pending := by
  have hpop := q.pop_toFifo
  rw [h, Option.map_some] at hpop
  exact (Fifo.poll_eq_some.mp hpop.symm).1

theorem pop_eq_none {q : XLLFQ α} : q.pop = none ↔ q.pending = [] := by
  rw [← toFifo_items, ← Fifo.poll_eq_none, ← pop_toFifo, Option.map_eq_none_iff]

/-! ### No more than the bound -/

theorem push_fits {q : XLLFQ α} (h : q.pending.length ≤ q.maxSize) (data : α) :
    (q.push data).1.pending.length ≤ (q.push data).1.maxSize := by
  rw [push_maxSize]
  by_cases hroom : q.pending.length < q.maxSize
  · rw [(push_room hroom data).2, List.length_append, List.length_singleton]
    omega
  · rw [(push_full hroom data).2]
    exact h

theorem pop_fits {q q' : XLLFQ α} {data : α} (h : q.pop = some (q', data))
    (hfits : q.pending.length ≤ q.maxSize) : q'.pending.length ≤ q'.maxSize := by
  rw [pop_eq_some h, List.length_cons] at hfits
  rw [pop_maxSize h]
  omega

end ServClient.XLLFQ
