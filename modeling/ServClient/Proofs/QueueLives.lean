/-
The queue of an event thread from one life to the next.

`XLEventQueue::Destroy` and `Create` make new mutexes and a new semaphore, and leave the
events.  So a queue may hold more than its permits say (`Stocked`), and while it is not
created it turns every `Put` away (`Down`).
-/
import ServClient.EventThread
import ServClient.Proofs.EventQueue

namespace ServClient

namespace QueueRun

variable {α : Type}

/-- Not created: no call is in progress and none gets anywhere. -/
structure Down (q : QueueRun α) : Prop where
  created : q.queue.created = false
  writers : q.queue.mut1.created = false
  sem : q.queue.sem.created = false
  puts : ∀ (i : Nat) (c : PutCall α), q.puts[i]? = some c → ∃ b, c.pc = .returned b
  gets : ∀ (j : Nat) (g : GetCall α), q.gets[j]? = some g → ∃ b, g.pc = .returned b

/-- What holds of the queue of an event thread over all its lives. -/
structure Kept (q : QueueRun α) : Prop where
  exclusive : Exclusive q
  ordered : Ordered q
  phase : (Live q ∧ Stocked q) ∨ Down q

namespace Kept

variable {q q' : QueueRun α} {l : QueueStep α}

theorem live (h : Kept q) (hc : q.queue.created = true) : Live q ∧ Stocked q := by
  rcases h.phase with hlive | hdown
  · exact hlive
  · rw [hdown.created] at hc
    cases hc

theorem down (h : Kept q) (hc : q.queue.created = false) : Down q := by
  rcases h.phase with hlive | hdown
  · rw [hlive.1.created] at hc
    cases hc
  · exact hdown

theorem ofQueue [Inhabited α] (maxSize : Int) : Kept (QueueRun.ofQueue (XLEventQueue.new maxSize) :
    QueueRun α) where
  exclusive := exclusive_ofQueue _
  ordered := ⟨rfl, Calls.Logged.nil _ _ (by simp [QueueRun.ofQueue]),
    Calls.Logged.nil _ _ (by simp [QueueRun.ofQueue])⟩
  phase := Or.inr ⟨rfl, rfl, rfl, fun i c hi => by simp [QueueRun.ofQueue] at hi,
    fun i c hi => by simp [QueueRun.ofQueue] at hi⟩

/-- A queue that is not created turns every `Put` away. -/
theorem next_down (h : Down q) (hl : l ≠ .get) (hq : q.next l = some q') :
    ∃ e, q' = { q with puts := q.puts ++ [⟨e, .returned false⟩] } := by
  by_cases hinside : l.inside = true
  · rw [next_eq_none hinside h.puts h.gets] at hq
    cases hq
  · cases l with
    | put e =>
        refine ⟨e, ?_⟩
        simpa [next, callPut, h.created] using hq.symm
    | get => exact absurd rfl hl
    | putLock | putCopy | putPush | putUnlock | putGive | getTake | getLock | getPop | getUnlock =>
        exact absurd rfl hinside

theorem step (h : Kept q) (hl : l ≠ .get) (hq : q.next l = some q') : Kept q' := by
  rcases h.phase with ⟨hlive, hstock⟩ | hdown
  · have hmoves := moves_of_next hlive hq
    have hacts := acts_of_next hq
    exact ⟨hmoves.exclusive h.exclusive,
      hacts.ordered (h.exclusive.pushesOwn l) hstock h.ordered,
      Or.inl ⟨hmoves.live hlive, hacts.stocked (fun _ => hlive.sem) hstock⟩⟩
  · obtain ⟨e, rfl⟩ := next_down hdown hl hq
    refine ⟨⟨Calls.forall_concat (fun hc => by cases hc) h.exclusive.owner,
      Calls.forall_concat (fun hc => by cases hc) h.exclusive.copied⟩,
      ⟨h.ordered.order, h.ordered.puts.concat rfl, h.ordered.gets⟩, Or.inr
      ⟨hdown.created, hdown.writers, hdown.sem, Calls.forall_concat ⟨false, rfl⟩ hdown.puts,
        hdown.gets⟩⟩

theorem callGet (h : Kept q) (hc : q.queue.created = true) : Kept q.callGet := by
  obtain ⟨hlive, hstock⟩ := h.live hc
  have hstep : q.next .get = some q.callGet := rfl
  have hmoves := moves_of_next hlive hstep
  have hacts := acts_of_next hstep
  exact ⟨hmoves.exclusive h.exclusive,
    hacts.ordered (h.exclusive.pushesOwn .get) hstock h.ordered,
    Or.inl ⟨hmoves.live hlive, hacts.stocked (fun _ => hlive.sem) hstock⟩⟩

end Kept

theorem surplus_of_quiet {q : QueueRun α}
    (hputs : ∀ (i : Nat) (c : PutCall α), q.puts[i]? = some c → c.pc.beforeGive = false)
    (hgets : ∀ (j : Nat) (g : GetCall α), q.gets[j]? = some g → g.pc.pastTake = false) :
    q.surplus = q.queue.q.pending.length - q.queue.sem.permits.available := by
  have hput : q.puts.countP (fun c => c.pc.beforeGive) = 0 := Calls.countP_eq_zero hputs
  have hget : q.gets.countP (fun g => g.pc.pastTake) = 0 := Calls.countP_eq_zero hgets
  rw [surplus, hput, hget]
  omega

theorem surplus_of_returned {q : QueueRun α}
    (hputs : ∀ (i : Nat) (c : PutCall α), q.puts[i]? = some c → ∃ b, c.pc = .returned b)
    (hgets : ∀ (j : Nat) (g : GetCall α), q.gets[j]? = some g → ∃ b, g.pc = .returned b) :
    q.surplus = q.queue.q.pending.length - q.queue.sem.permits.available := by
  refine surplus_of_quiet (fun i c hi => ?_) fun j g hj => ?_
  · obtain ⟨b, hb⟩ := hputs i c hi
    rw [hb]
    rfl
  · obtain ⟨b, hb⟩ := hgets j g hj
    rw [hb]
    rfl

theorem mutexCreate_eq (m : XLMutex) : m.create = { m with created := true } := by
  unfold XLMutex.create
  split
  · rename_i h
    rw [← h]
  · rfl

/-- `XLEventQueue::Create` on a queue that is not created: what it still holds has no permit. -/
theorem create_down {q : QueueRun α} (h : Down q) (properties : Nat) :
    q.queue.create properties = ({ q.queue with
      mut0 := { q.queue.mut0 with created := true }
      mut1 := { q.queue.mut1 with created := true }
      sem := { semCount := 0, maxCount := 0, created := true }
      q := q.queue.q.setMaxSize q.queue.maxSize
      properties := properties
      created := true }, true) := by
  simp [XLEventQueue.create, h.created, mutexCreate_eq, XLSemaPhore.createCount, h.sem]

/-- A queue that was not created, and `Create`. -/
def created (q : QueueRun α) (properties : Nat) : QueueRun α :=
  { q with queue := (q.queue.create properties).1 }

theorem created_surplus {q : QueueRun α} (h : Down q) (properties : Nat) :
    (q.created properties).surplus = q.queue.q.pending.length := by
  rw [surplus_of_returned (q := q.created properties) h.puts h.gets]
  simp only [created, create_down h, XLLFQ.setMaxSize, XLLFQ.pending, XLSemaPhore.permits]
  omega

theorem Kept.created {q : QueueRun α} (h : Kept q) (hdown : Down q) {properties : Nat}
    (hp : properties &&& XLEventQueue.multiWriter ≠ 0) : Kept (q.created properties) := by
  have hsurplus := created_surplus hdown properties
  have hstock : Stocked (q.created properties) := by
    refine ⟨?_, by rw [hsurplus]; omega⟩
    simp [QueueRun.created, create_down hdown, XLSemaPhore.permits]
  have hlive : Live (q.created properties) := by
    simp only [QueueRun.created, create_down hdown]
    exact ⟨rfl, rfl, rfl, hp⟩
  refine ⟨?_, ?_, Or.inl ⟨hlive, hstock⟩⟩
  · simp only [QueueRun.created, create_down hdown]
    exact ⟨h.exclusive.owner, h.exclusive.copied⟩
  · simp only [QueueRun.created, create_down hdown]
    exact ⟨h.ordered.order, h.ordered.puts, h.ordered.gets⟩

/-- `XLEventQueue::Destroy` once every call has returned. -/
theorem Kept.destroyed {q : QueueRun α} (h : Kept q)
    (hputs : ∀ (i : Nat) (c : PutCall α), q.puts[i]? = some c → ∃ b, c.pc = .returned b)
    (hgets : ∀ (j : Nat) (g : GetCall α), q.gets[j]? = some g → ∃ b, g.pc = .returned b) :
    Kept { q with queue := q.queue.destroy } := by
  rcases h.phase with ⟨hlive, -⟩ | hdown
  · have hdestroy : q.queue.destroy = { q.queue with
        mut0 := q.queue.mut0.destroy
        mut1 := { q.queue.mut1 with created := false }
        sem := { semCount := 0, maxCount := 0, created := false }
        created := false } := by
      simp [XLEventQueue.destroy, hlive.created, XLMutex.destroy, hlive.writers,
        XLSemaPhore.destroy, hlive.sem]
    rw [hdestroy]
    exact ⟨⟨h.exclusive.owner, h.exclusive.copied⟩,
      ⟨h.ordered.order, h.ordered.puts, h.ordered.gets⟩, Or.inr ⟨rfl, rfl, rfl, hputs, hgets⟩⟩
  · rw [XLEventQueue.destroy, hdown.created]
    exact h

/-! ### What a step does to the calls of `Get` -/

/-- What a step other than the beginning of a `Get` does to the calls of `Get`: nothing, or one
goes on, with or without popping. -/
inductive GetMoves (q q' : QueueRun α) : Prop
  | same (hgets : q'.gets = q.gets) (hpopped : q'.popped = q.popped)
  | move (i : Nat) (g g' : GetCall α) (hi : q.gets[i]? = some g) (hpc : ∀ b, g.pc ≠ .returned b)
      (hgets : q'.gets = q.gets.set i g') (hpc' : g'.pc ≠ .returned false)
      (hdone : g'.pc.done = g.pc.done) (hout : g'.out = g.out) (hpopped : q'.popped = q.popped)
  | pop (i : Nat) (g g' : GetCall α) (e : α) (hi : q.gets[i]? = some g)
      (hpc : ∀ b, g.pc ≠ .returned b) (hgets : q'.gets = q.gets.set i g')
      (hpc' : g'.pc ≠ .returned false) (hdone : g.pc.done = false) (hdone' : g'.pc.done = true)
      (hout : g'.out = some e) (hpopped : q'.popped = q.popped ++ [(i, some e)])

theorem Kept.getMoves {q q' : QueueRun α} {l : QueueStep α} (h : Kept q) (hl : l ≠ .get)
    (hq : q.next l = some q') : GetMoves q q' := by
  rcases h.phase with ⟨hlive, hstock⟩ | hdown
  · cases moves_of_next hlive hq with
    | put | putLock | putCopy | accept | refuse | putUnlock | putFail | putGive =>
        exact .same rfl rfl
    | get => exact absurd rfl hl
    | getTake hi hpass =>
        exact .move _ _ _ hi (by simp) rfl (by simp) rfl rfl rfl
    | getLock hi => exact .move _ _ _ hi (by simp) rfl (by simp) rfl rfl rfl
    | getPop hi hpop => exact .pop _ _ _ _ hi (by simp) rfl (by simp) rfl rfl rfl rfl
    | getMiss hi hpop =>
        exact absurd (XLLFQ.pop_eq_none.mp hpop) (hstock.pending_ne_nil hi rfl)
    | getUnlock hi => exact .move _ _ _ hi (by simp) rfl (by simp) rfl rfl rfl
  · obtain ⟨e, rfl⟩ := Kept.next_down hdown hl hq
    exact .same rfl rfl

theorem created_next {q q' : QueueRun α} {l : QueueStep α} (h : Kept q) (hl : l ≠ .get)
    (hq : q.next l = some q') : q'.queue.created = q.queue.created := by
  rcases h.phase with ⟨hlive, -⟩ | hdown
  · cases moves_of_next hlive hq <;> rfl
  · obtain ⟨e, rfl⟩ := Kept.next_down hdown hl hq
    rfl

end QueueRun

end ServClient
