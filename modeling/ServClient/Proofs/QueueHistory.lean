/-
What `Create` and `Destroy` do to the events of a queue.

`Destroy` leaves the pending events where they are, and `Create` makes a semaphore with no
permit, so a life is its own exactly if it finds nothing pending.  And `Get` does not look at what
`pop` returns: it reports an event it did not get exactly if it pops where nothing is pending, to
which it comes through a semaphore that is destroyed.
-/
import ServClient.QueueHistory
import ServClient.Proofs.QueueLives

namespace ServClient

open Runs

variable {α : Type}

theorem PutPc.isReturned_iff {pc : PutPc} : pc.isReturned = true ↔ ∃ b, pc = .returned b := by
  cases pc with
  | returned b => exact iff_of_true rfl ⟨b, rfl⟩
  | entered | locked | copied | pushed | refused | unlocked => simp [isReturned]

theorem GetPc.isReturned_iff {pc : GetPc} : pc.isReturned = true ↔ ∃ b, pc = .returned b := by
  cases pc with
  | returned b => exact iff_of_true rfl ⟨b, rfl⟩
  | entered | taken | locked | popped => simp [isReturned]

theorem QueueRun.quiet_iff {s : QueueRun α} : s.quiet = true ↔
    (∀ (i : Nat) (c : PutCall α), s.puts[i]? = some c → ∃ b, c.pc = .returned b) ∧
      ∀ (j : Nat) (g : GetCall α), s.gets[j]? = some g → ∃ b, g.pc = .returned b := by
  simp only [quiet, Bool.and_eq_true, List.all_eq_true, PutPc.isReturned_iff,
    GetPc.isReturned_iff]
  constructor
  · rintro ⟨hputs, hgets⟩
    exact ⟨fun i c hi => hputs c (List.mem_of_getElem? hi),
      fun j g hj => hgets g (List.mem_of_getElem? hj)⟩
  · rintro ⟨hputs, hgets⟩
    refine ⟨fun c hc => ?_, fun g hg => ?_⟩
    · obtain ⟨i, hi⟩ := List.mem_iff_getElem?.mp hc
      exact hputs i c hi
    · obtain ⟨j, hj⟩ := List.mem_iff_getElem?.mp hg
      exact hgets j g hj

namespace QueueHistory

/-! ### What a life gives out -/

/-- The last life gives out its own events, and its permits are for them. -/
structure Fresh (s : QueueHistory α) : Prop where
  /-- What was popped in this life is what was pushed first. -/
  inOrder : (s.run.popped.drop s.poppedBefore).map Prod.snd =
    ((s.run.pushed.drop s.pushedBefore).take (s.run.popped.length - s.poppedBefore)).map
      fun r => some r.2
  /-- What was pushed is the event of the call that pushed it. -/
  accepted : ∀ i a, (i, a) ∈ s.run.pushed → ∃ c, s.run.puts[i]? = some c ∧ c.event = a
  /-- A `Get` that returned true was given what it popped, and no other popped that. -/
  returned : ∀ (j : Nat) (g : GetCall α), s.run.gets[j]? = some g → g.pc = .returned true →
    ∃ a, g.out = some a ∧ (j, some a) ∈ s.run.popped
  once : (s.run.popped.map Prod.fst).Nodup
  permits : s.run.quiet = true →
    s.run.queue.sem.permits.available = (s.couldReturn.length : Int)

/-- If this step begins a life, nothing is pending. -/
def BeginsEmpty (s : QueueHistory α) : HistoryStep α → Prop
  | .create _ => s.run.queue.created = false → s.run.queue.q.pending = []
  | .destroy | .call _ => True

/-- If this step pushes an event, it is the one of the call. -/
def PushesOwn (s : QueueHistory α) : HistoryStep α → Prop
  | .create _ | .destroy => True
  | .call l => s.run.PushesOwn l

/-- Not created, and no permit is left. -/
structure Closed (s : QueueHistory α) : Prop where
  down : s.run.Down
  available : s.run.queue.sem.permits.available = 0

/-- What every step keeps of a queue whose lives begin empty. -/
structure Inv (s : QueueHistory α) : Prop where
  phase : (s.run.queue.created = true ∧ s.run.queue.sem.created = true ∧ s.run.Counted) ∨ Closed s
  ordered : s.run.Ordered
  marks : s.pushedBefore = s.poppedBefore
  marked : s.poppedBefore ≤ s.run.popped.length

theorem inv_new [Inhabited α] (maxSize : Int) : Inv (new maxSize : QueueHistory α) where
  phase := Or.inr ⟨(QueueRun.Kept.ofQueue maxSize).down rfl, rfl⟩
  ordered := (QueueRun.Kept.ofQueue maxSize).ordered
  marks := rfl
  marked := Nat.le_refl 0

theorem Inv.closed {s : QueueHistory α} (h : Inv s) (hc : s.run.queue.created = false) :
    Closed s := by
  rcases h.phase with ⟨htrue, -⟩ | hclosed
  · rw [hc] at htrue
    cases htrue
  · exact hclosed

theorem Inv.fresh {s : QueueHistory α} (h : Inv s) : Fresh s := by
  refine ⟨?_, fun i a hmem => ?_, fun j g hj hg => ?_, h.ordered.gets.once, fun hquiet => ?_⟩
  · have horder := congrArg (fun l => (l.drop s.poppedBefore).take
      (s.run.popped.length - s.poppedBefore)) h.ordered.order
    have hlen : ((s.run.popped.map Prod.snd).drop s.poppedBefore).length =
        s.run.popped.length - s.poppedBefore := by
      rw [List.length_drop, List.length_map]
    rw [List.drop_append_of_le_length (by rw [List.length_map]; exact h.marked),
      List.take_left' hlen] at horder
    rw [h.marks, List.map_take, List.map_drop, List.map_drop]
    exact horder
  · have hi := h.ordered.puts.inRange i a hmem
    have hget := List.getElem?_eq_getElem hi
    have hentry := (h.ordered.puts.mem_iff i _ hget a).mp hmem
    refine ⟨_, hget, ?_⟩
    simp only [QueueRun.putEntry, Option.ite_none_right_eq_some, Option.some.injEq] at hentry
    exact hentry.2
  · obtain ⟨a, ha⟩ := h.ordered.out_some hj (by rw [hg]; rfl)
    refine ⟨a, ha, ?_⟩
    rw [← ha]
    exact (h.ordered.gets.mem_iff j g hj g.out).mpr (by simp [QueueRun.getEntry, hg, GetPc.done])
  · rcases h.phase with ⟨hc, -, hcounted⟩ | hclosed
    · obtain ⟨hputs, hgets⟩ := QueueRun.quiet_iff.mp hquiet
      have hsurplus := QueueRun.surplus_of_returned hputs hgets
      rw [hcounted.surplus] at hsurplus
      rw [couldReturn, if_pos hc]
      omega
    · rw [hclosed.available, couldReturn, hclosed.down.created]
      rfl

/-! ### Each step

A `Create` begins a life and a `Destroy` ends it, and the calls go on in between.  Only a life that
begins with nothing pending has a permit for every event it is to give out.
-/

theorem counted_created {q : QueueRun α} (h : q.Down) (hempty : q.queue.q.pending = [])
    (properties : Nat) : (q.created properties).Counted := by
  have hsurplus := QueueRun.created_surplus h properties
  rw [hempty, QueueRun.surplus, List.length_nil] at hsurplus
  refine ⟨?_, by omega⟩
  rw [QueueRun.created, QueueRun.create_down h]
  exact Int.le_refl 0

theorem Inv.create {s s' : QueueHistory α} {properties : Nat} (h : Inv s)
    (hempty : s.run.queue.created = false → s.run.queue.q.pending = [])
    (hs : s.next (.create properties) = some s') : Inv s' := by
  cases hc : s.run.queue.created with
  | true =>
      have hcreate : s.run.queue.create properties = (s.run.queue, false) := by
        rw [XLEventQueue.create, if_pos hc]
      simp only [next, hcreate] at hs
      cases hs
      exact h
  | false =>
      have hclosed := h.closed hc
      have hcreate := QueueRun.create_down hclosed.down properties
      have hcounted := counted_created hclosed.down (hempty hc) properties
      have horder := congrArg List.length h.ordered.order
      rw [hempty hc, List.length_append, List.length_map, List.length_map, List.length_map]
        at horder
      rw [QueueRun.created] at hcounted
      simp only [next, hcreate] at hs hcounted
      cases hs
      exact ⟨Or.inl ⟨rfl, rfl, hcounted⟩,
        ⟨h.ordered.order, h.ordered.puts, h.ordered.gets⟩, horder.symm, Nat.le_refl _⟩

theorem Inv.destroy {s s' : QueueHistory α} (h : Inv s) (hs : s.next .destroy = some s') :
    Inv s' := by
  simp only [next] at hs
  split at hs
  · rename_i hquiet
    cases hs
    rcases h.phase with ⟨hc, hsem, -⟩ | hclosed
    · obtain ⟨hputs, hgets⟩ := QueueRun.quiet_iff.mp hquiet
      have hdown : ∀ m : XLMutex, m.destroy.created = false := fun m => by
        cases hm : m.created <;> simp [XLMutex.destroy, hm]
      have hdestroy : s.run.queue.sem.destroy = XLSemaPhore.new := by
        rw [XLSemaPhore.destroy, if_pos hsem]
        rfl
      rw [XLEventQueue.destroy, if_pos hc, hdestroy]
      exact ⟨Or.inr ⟨⟨rfl, hdown _, rfl, hputs, hgets⟩, rfl⟩,
        ⟨h.ordered.order, h.ordered.puts, h.ordered.gets⟩, h.marks, h.marked⟩
    · rw [XLEventQueue.destroy, hclosed.down.created]
      exact h
  · cases hs

theorem popped_length_le {q q' : QueueRun α} {l : QueueStep α} (h : q.Acts l q') :
    q.popped.length ≤ q'.popped.length := by
  cases h with
  | getPop | getMiss =>
      rw [List.length_append]
      omega
  | put | putLock | putCopy | accept | refuse | putUnlock | putFail | putGive | get | getTake
  | getLock | getUnlock => exact Nat.le_refl _

/-- A call does not create or destroy. -/
theorem created_acts {q q' : QueueRun α} {l : QueueStep α} (h : q.Acts l q') :
    q'.queue.created = q.queue.created ∧ q'.queue.sem.created = q.queue.sem.created := by
  cases h with
  | putGive hi =>
      refine ⟨rfl, ?_⟩
      dsimp only
      unfold XLSemaPhore.give
      split <;> rfl
  | getTake hi htake =>
      refine ⟨rfl, ?_⟩
      unfold XLSemaPhore.take at htake
      split at htake
      · split at htake
        · cases htake; rfl
        · cases htake
      · cases htake; rfl
  | put | putLock | putCopy | accept | refuse | putUnlock | putFail | get | getLock | getPop
  | getMiss | getUnlock => exact ⟨rfl, rfl⟩

theorem Closed.stocked {s : QueueHistory α} (h : Closed s) : s.run.Stocked := by
  refine ⟨Int.le_of_eq h.available.symm, ?_⟩
  rw [QueueRun.surplus_of_returned h.down.puts h.down.gets, h.available]
  omega

/-- No call gets into a queue that is closed. -/
theorem Closed.call {s : QueueHistory α} (h : Closed s) {l : QueueStep α} {run : QueueRun α}
    (hs : s.run.next l = some run) : Closed { s with run := run } := by
  by_cases hinside : l.inside = true
  · rw [QueueRun.next_eq_none hinside h.down.puts h.down.gets] at hs
    cases hs
  · cases l with
    | put e =>
        cases hs
        refine ⟨⟨h.down.created, h.down.writers, h.down.sem, ?_, h.down.gets⟩, h.available⟩
        exact Calls.forall_concat ⟨false, by rw [h.down.created]; rfl⟩ h.down.puts
    | get =>
        cases hs
        refine ⟨⟨h.down.created, h.down.writers, h.down.sem, h.down.puts, ?_⟩, h.available⟩
        exact Calls.forall_concat ⟨false, by rw [h.down.created]; rfl⟩ h.down.gets
    | putLock | putCopy | putPush | putUnlock | putGive | getTake | getLock | getPop | getUnlock =>
        exact absurd rfl hinside

theorem Inv.call {s s' : QueueHistory α} {l : QueueStep α} (h : Inv s)
    (hown : s.run.PushesOwn l) (hs : s.next (.call l) = some s') : Inv s' := by
  obtain ⟨run, hrun, rfl⟩ := Option.map_eq_some_iff.mp hs
  have hacts := QueueRun.acts_of_next hrun
  have hmarked := Nat.le_trans h.marked (popped_length_le hacts)
  rcases h.phase with ⟨hc, hsem, hcounted⟩ | hclosed
  · obtain ⟨hcreated, hsem'⟩ := created_acts hacts
    exact ⟨Or.inl ⟨hcreated.trans hc, hsem'.trans hsem, hacts.counted hsem hcounted⟩,
      hacts.ordered hown hcounted.stocked h.ordered, h.marks, hmarked⟩
  · exact ⟨Or.inr (hclosed.call hrun), hacts.ordered hown hclosed.stocked h.ordered, h.marks,
      hmarked⟩

theorem Inv.step {s s' : QueueHistory α} {l : HistoryStep α} (h : Inv s)
    (hempty : BeginsEmpty s l) (hown : PushesOwn s l) (hs : s.next l = some s') : Inv s' := by
  cases l with
  | create properties => exact h.create hempty hs
  | destroy => exact h.destroy hs
  | call l => exact h.call hown hs

/-- A life that begins with an event pending has no permit for it. -/
theorem Inv.create_stale {s s' : QueueHistory α} {properties : Nat} (h : Inv s)
    (hstale : ¬BeginsEmpty s (.create properties)) (hs : s.next (.create properties) = some s') :
    ¬Fresh s' := by
  intro hfresh
  simp only [BeginsEmpty, Classical.not_imp] at hstale
  obtain ⟨hc, hpending⟩ := hstale
  have hclosed := h.closed hc
  have hcreate := QueueRun.create_down hclosed.down properties
  simp only [next, hcreate] at hs
  cases hs
  have hpermits := hfresh.permits (QueueRun.quiet_iff.mpr ⟨hclosed.down.puts, hclosed.down.gets⟩)
  have hnone := List.length_eq_zero_iff.mp (Int.ofNat.inj hpermits.symm)
  exact hpending hnone

/-- An event that is not the one of the call that pushes it. -/
theorem call_foreign {s s' : QueueHistory α} {l : QueueStep α} (hown : ¬s.run.PushesOwn l)
    (hs : s.next (.call l) = some s') : ¬Fresh s' := by
  intro hfresh
  obtain ⟨run, hrun, rfl⟩ := Option.map_eq_some_iff.mp hs
  cases QueueRun.acts_of_next hrun with
  | @accept i e hi hroom =>
      refine hown fun c hc _ _ => ?_
      cases hi.symm.trans hc
      obtain ⟨c, hset, hevent⟩ := hfresh.accepted i s.run.queue.event
        (List.mem_append_right _ (List.mem_singleton_self _))
      rw [List.getElem?_set_self (Calls.lt_of_getElem?_eq_some hi)] at hset
      cases hset
      exact hevent.symm
  | refuse hi hfull => exact hown fun c _ _ hroom => absurd hroom hfull
  | put | putLock | putCopy | putUnlock | putFail | putGive | get | getTake | getLock | getPop
  | getMiss | getUnlock => exact hown trivial

/--
However the lives of a queue go, each gives out its own events in order, and its permits are for
what is pending, if and only if each begins with nothing pending and every call pushes its own
event.
-/
theorem fresh_iff [Inhabited α] (maxSize : Int) {ls : List (HistoryStep α)}
    {s : QueueHistory α} (hrun : exec next (new maxSize) ls = some s) :
    Throughout next Fresh (new maxSize) ls ↔
      Along next (fun u l => BeginsEmpty u l ∧ PushesOwn u l) (new maxSize) ls := by
  refine throughout_iff_along (fun u hu => hu.fresh)
    (fun u l v hu hl hstep => hu.step hl.1 hl.2 hstep) (fun u l v hu hl hstep => ?_)
    (inv_new maxSize) hrun
  cases l with
  | create properties => exact hu.create_stale (fun hempty => hl ⟨hempty, trivial⟩) hstep
  | destroy => exact absurd ⟨trivial, trivial⟩ hl
  | call l => exact call_foreign (fun hown => hl ⟨trivial, hown⟩) hstep

/-- A queue of one life, with one event in it. -/
def oneEvent : List (HistoryStep Nat) :=
  [.create 9, .call (.put 7), .call (.putLock 0), .call (.putCopy 0), .call (.putPush 0),
    .call (.putUnlock 0), .call (.putGive 0)]

/-- Two lives, in each of which the event that is put in is taken out. -/
def twoLives : List (HistoryStep Nat) :=
  oneEvent ++ [.call .get, .call (.getTake 0), .call (.getLock 0), .call (.getPop 0),
    .call (.getUnlock 0), .destroy, .create 9, .call (.put 8), .call (.putLock 1),
    .call (.putCopy 1), .call (.putPush 1), .call (.putUnlock 1), .call (.putGive 1), .call .get,
    .call (.getTake 1), .call (.getLock 1), .call (.getPop 1), .call (.getUnlock 1)]

theorem fresh_iff_twoLives :
    ∃ s : QueueHistory Nat, exec next (new 256) twoLives = some s ∧
      s.run.popped = [(0, some 7), (1, some 8)] ∧
      (Throughout next Fresh (new 256) twoLives ↔
        Along next (fun u l => BeginsEmpty u l ∧ PushesOwn u l) (new 256) twoLives) := by
  obtain ⟨s, hs, hpopped⟩ := (Option.any_eq_true _ _).mp
    (show (exec next (new 256) twoLives).any
      (fun s : QueueHistory Nat => decide (s.run.popped = [(0, some 7), (1, some 8)])) = true by
      decide)
  exact ⟨s, hs, of_decide_eq_true hpopped, fresh_iff 256 hs⟩

/-- The event is not taken out before `Destroy`, and the next life gets it in place of its own. -/
def staleEvent : List (HistoryStep Nat) :=
  oneEvent ++ [.destroy, .create 9, .call (.put 8), .call (.putLock 1), .call (.putCopy 1),
    .call (.putPush 1), .call (.putUnlock 1), .call (.putGive 1), .call .get, .call (.getTake 0),
    .call (.getLock 0), .call (.getPop 0), .call (.getUnlock 0)]

theorem stale_event_returned :
    ∃ s : QueueHistory Nat, exec next (new 256) staleEvent = some s ∧
      s.run.popped = [(0, some 7)] ∧ s.run.pushed.drop s.pushedBefore = [(1, 8)] ∧ ¬Fresh s := by
  have hends : (exec next (new 256) staleEvent).map (fun s : QueueHistory Nat =>
      (s.run.popped, s.poppedBefore, s.run.pushed.drop s.pushedBefore)) =
        some ([(0, some 7)], 0, [(1, 8)]) := by decide
  obtain ⟨s, hs, heq⟩ := Option.map_eq_some_iff.mp hends
  simp only [Prod.mk.injEq] at heq
  obtain ⟨hpopped, hbefore, hpushed⟩ := heq
  refine ⟨s, hs, hpopped, hpushed, fun hfresh => ?_⟩
  have horder := hfresh.inOrder
  rw [hpopped, hbefore, hpushed] at horder
  exact absurd horder (by decide)

/-! ### Where the writers always take turns -/

/-- A queue that is not created turns a `Get` away. -/
theorem kept_get_down {q : QueueRun α} (h : q.Kept) (hdown : q.Down) : q.callGet.Kept := by
  refine ⟨⟨h.exclusive.owner, h.exclusive.copied⟩,
    ⟨h.ordered.order, h.ordered.puts, h.ordered.gets.concat ?_⟩,
    Or.inr ⟨hdown.created, hdown.writers, hdown.sem, hdown.puts, ?_⟩⟩
  · rw [hdown.created]
    rfl
  · exact Calls.forall_concat ⟨false, by rw [hdown.created]; rfl⟩ hdown.gets

theorem kept_next {s s' : QueueHistory α} {l : HistoryStep α} (h : s.run.Kept)
    (hp : ∀ properties, l = .create properties → properties &&& XLEventQueue.multiWriter ≠ 0)
    (hs : s.next l = some s') : s'.run.Kept := by
  cases l with
  | create properties =>
      cases hc : s.run.queue.created with
      | true =>
          have hcreate : s.run.queue.create properties = (s.run.queue, false) := by
            rw [XLEventQueue.create, if_pos hc]
          simp only [next, hcreate] at hs
          cases hs
          exact h
      | false =>
          have hkept := h.created (h.down hc) (hp properties rfl)
          rw [QueueRun.created, QueueRun.create_down (h.down hc)] at hkept
          simp only [next, QueueRun.create_down (h.down hc)] at hs
          cases hs
          exact hkept
  | destroy =>
      simp only [next] at hs
      split at hs
      · rename_i hquiet
        obtain ⟨hputs, hgets⟩ := QueueRun.quiet_iff.mp hquiet
        cases hs
        exact h.destroyed hputs hgets
      · cases hs
  | call l =>
      obtain ⟨run, hrun, rfl⟩ := Option.map_eq_some_iff.mp hs
      by_cases hget : l = .get
      · subst hget
        cases hrun
        cases hc : s.run.queue.created with
        | true => exact h.callGet hc
        | false => exact kept_get_down h (h.down hc)
      · exact h.step hget hrun

/-- Where every `Create` asks for the writers' lock, all that matters is how the lives begin. -/
theorem fresh_iff_beginsEmpty [Inhabited α] (maxSize : Int) {ls : List (HistoryStep α)}
    {s : QueueHistory α} (hrun : exec next (new maxSize) ls = some s)
    (hwriters : ∀ properties, .create properties ∈ ls →
      properties &&& XLEventQueue.multiWriter ≠ 0) :
    Throughout next Fresh (new maxSize) ls ↔ Along next BeginsEmpty (new maxSize) ls := by
  have hasks : Along next (fun _ l => ∀ properties, l = .create properties →
      properties &&& XLEventQueue.multiWriter ≠ 0) (new maxSize) ls :=
    along_of_forall fun l hl _ properties heq => hwriters properties (heq ▸ hl)
  have hown : Along next PushesOwn (new maxSize) ls :=
    Along.of_invariant (I := fun u => u.run.Kept)
      (fun u l v hu hp hstep => kept_next hu hp hstep)
      (fun u l hu _ => by
        cases l with
        | create | destroy => trivial
        | call l => exact hu.exclusive.pushesOwn l)
      (QueueRun.Kept.ofQueue maxSize) hasks
  rw [fresh_iff maxSize hrun]
  exact ⟨fun h => h.mono fun _ _ => And.left, fun h => h.and hown⟩

end QueueHistory

end ServClient
