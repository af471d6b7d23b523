/-
What a `Get` reports while the queue is destroyed under it.

`Get` returns true whatever `pop` returned.  So what it reports is right exactly if it pops
where an event is pending.  The permit it has taken sees to that, and a `Take` of a destroyed
semaphore takes none.
-/
import ServClient.Proofs.QueueHistory

namespace ServClient

open Runs

variable {α : Type}

theorem GetPc.eq_of_done {pc : GetPc} (h : pc.done = true) :
    pc = .popped ∨ pc = .returned true := by
  cases pc with
  | popped => exact Or.inl rfl
  | returned b =>
      cases b with
      | true => exact Or.inr rfl
      | false => cases h
  | entered | taken | locked => cases h

namespace QueueRun

/-! ### What every `Get` has got

`Get` discards what `pop` says.  So what it reports is true if `pop` finds an event whenever it is
called, and a call that misses reports one that it has not.
-/

/-- What is pending, and what each `Get` has got, given what was pending at first. -/
structure Gotten (before : List α) (q : QueueRun α) : Prop where
  order : q.popped.filterMap Prod.snd ++ q.queue.q.pending = before ++ q.pushed.map Prod.snd
  gets : Calls.Logged getEntry q.gets q.popped
  empty : ∀ (j : Nat) (g : GetCall α), q.gets[j]? = some g → g.pc.done = false → g.out = none

theorem gotten_ofQueue (queue : XLEventQueue α) : Gotten queue.q.pending (ofQueue queue) :=
  ⟨by simp [ofQueue], Calls.Logged.nil _ _ (by simp [ofQueue]), fun j g hj => by cases hj⟩

theorem Acts.gotten {q q' : QueueRun α} {l : QueueStep α} {before : List α} (h : q.Acts l q')
    (hs : Gotten before q) : Gotten before q' := by
  cases h with
  | put | putLock | putCopy | putUnlock | putFail | putGive =>
      exact ⟨hs.order, hs.gets, hs.empty⟩
  | accept hi hroom =>
      refine ⟨?_, hs.gets, hs.empty⟩
      dsimp only
      rw [(XLLFQ.push_room hroom _).2, ← List.append_assoc, hs.order, List.map_append,
        List.append_assoc]
      rfl
  | refuse hi hfull =>
      refine ⟨?_, hs.gets, hs.empty⟩
      dsimp only
      rw [(XLLFQ.push_full hfull _).2]
      exact hs.order
  | get =>
      exact ⟨hs.order, hs.gets.concat (by simp only [getEntry]; split <;> rfl),
        Calls.forall_concat (fun _ => rfl) hs.empty⟩
  | @getTake i out sem hi =>
      have hout : out = none := hs.empty i _ hi rfl
      exact ⟨hs.order, hs.gets.move hi rfl,
        Calls.forall_set hi (fun _ => hout) fun j g _ hj => hs.empty j g hj⟩
  | @getLock i out mut0 hi =>
      have hout : out = none := hs.empty i _ hi rfl
      exact ⟨hs.order, hs.gets.move hi rfl,
        Calls.forall_set hi (fun _ => hout) fun j g _ hj => hs.empty j g hj⟩
  | getUnlock hi =>
      exact ⟨hs.order, hs.gets.move hi rfl,
        Calls.forall_set hi (fun hc => by cases hc) fun j g _ hj => hs.empty j g hj⟩
  | @getPop i out q e hi hpop =>
      refine ⟨?_, hs.gets.record hi rfl rfl,
        Calls.forall_set hi (fun hc => by cases hc) fun j g _ hj => hs.empty j g hj⟩
      have horder := hs.order
      rw [XLLFQ.pop_eq_some hpop] at horder
      simpa using horder
  | @getMiss i out hi hpop =>
      have hout : out = none := hs.empty i _ hi rfl
      subst hout
      refine ⟨?_, hs.gets.record hi rfl rfl,
        Calls.forall_set hi (fun hc => by cases hc) fun j g _ hj => hs.empty j g hj⟩
      simpa using hs.order

/-- What is popped stays on record. -/
theorem Acts.popped_grows {q q' : QueueRun α} {l : QueueStep α} (h : q.Acts l q') :
    q.popped <+: q'.popped := by
  cases h with
  | getPop | getMiss => exact List.prefix_append _ _
  | put | putLock | putCopy | accept | refuse | putUnlock | putFail | putGive | get | getTake
  | getLock | getUnlock => exact List.prefix_rfl

end QueueRun

namespace DestroyRun

open QueueRun

variable {s s' : DestroyRun α} {before : List α}

/-- `Destroy` leaves the events and the calls alone. -/
theorem destroy_frame (h : s.destroy = some s') :
    ∃ queue, s'.run = { s.run with queue := queue } ∧ queue.q = s.run.queue.q ∧
      (queue.sem = s.run.queue.sem ∨ queue.sem = s.run.queue.sem.destroy) := by
  unfold destroy at h
  split at h
  · cases h; exact ⟨_, rfl, rfl, Or.inl rfl⟩
  · cases h; exact ⟨_, rfl, rfl, Or.inl rfl⟩
  · cases h; exact ⟨_, rfl, rfl, Or.inl rfl⟩
  · cases h; exact ⟨_, rfl, rfl, Or.inr rfl⟩
  · cases h; exact ⟨_, rfl, rfl, Or.inl rfl⟩
  · cases h

/-- Every `Get` reports what it did: true with the one event it removed, false with none. -/
structure Reports (before : List α) (s : DestroyRun α) : Prop where
  /-- What was popped is gone from what is pending. -/
  removed : s.run.popped.filterMap Prod.snd ++ s.run.queue.q.pending =
    before ++ s.run.pushed.map Prod.snd
  /-- No `Get` pops twice. -/
  once : (s.run.popped.map Prod.fst).Nodup
  getTrue : ∀ (j : Nat) (g : GetCall α), s.run.gets[j]? = some g → g.pc = .returned true →
    ∃ a, g.out = some a ∧ (j, some a) ∈ s.run.popped
  getFalse : ∀ (j : Nat) (g : GetCall α), s.run.gets[j]? = some g → g.pc = .returned false →
    g.out = none ∧ ∀ o, (j, o) ∉ s.run.popped

/-- If this step pops, it finds an event. -/
def PopFinds (s : DestroyRun α) : DestroyStep α → Prop
  | .call (.getPop i) => ∀ g ∈ s.run.gets[i]?, g.pc = .locked → s.run.queue.q.pending ≠ []
  | _ => True

/-- Nobody has popped nothing. -/
def NoMiss (s : DestroyRun α) : Prop := ∀ r ∈ s.run.popped, r.2 ≠ none

theorem gotten_next (hs : Gotten before s.run) {l : DestroyStep α} (h : s.next l = some s') :
    Gotten before s'.run := by
  cases l with
  | destroy =>
      obtain ⟨queue, hrun, hq, -⟩ := destroy_frame h
      rw [hrun]
      exact ⟨by rw [← hs.order, hq], hs.gets, hs.empty⟩
  | call l =>
      obtain ⟨run, hrun, rfl⟩ := Option.map_eq_some_iff.mp h
      exact (acts_of_next hrun).gotten hs

theorem popped_next {l : DestroyStep α} (h : s.next l = some s') :
    s.run.popped <+: s'.run.popped := by
  cases l with
  | destroy =>
      obtain ⟨queue, hrun, -⟩ := destroy_frame h
      have hsame : s'.run.popped = s.run.popped := by rw [hrun]
      exact hsame ▸ List.prefix_rfl
  | call l =>
      obtain ⟨run, hrun, rfl⟩ := Option.map_eq_some_iff.mp h
      exact (acts_of_next hrun).popped_grows

theorem noMiss_next (hs : NoMiss s) {l : DestroyStep α} (hfinds : PopFinds s l)
    (h : s.next l = some s') : NoMiss s' := by
  cases l with
  | destroy =>
      obtain ⟨queue, hrun, -⟩ := destroy_frame h
      intro r hr
      rw [hrun] at hr
      exact hs r hr
  | call l =>
      obtain ⟨run, hrun, rfl⟩ := Option.map_eq_some_iff.mp h
      cases acts_of_next hrun with
      | getPop hi hpop =>
          intro r hr
          rcases List.mem_append.mp hr with hold | hlast
          · exact hs r hold
          · rw [List.mem_singleton.mp hlast]
            exact Option.some_ne_none _
      | getMiss hi hpop => exact absurd (XLLFQ.pop_eq_none.mp hpop) (hfinds _ hi rfl)
      | put | putLock | putCopy | accept | refuse | putUnlock | putFail | putGive | get | getTake
      | getLock | getUnlock => exact hs

theorem reports_of_noMiss (hs : Gotten before s.run) (hmiss : NoMiss s) : Reports before s := by
  refine ⟨hs.order, hs.gets.once, fun j g hj hg => ?_, fun j g hj hg => ⟨?_, fun o hmem => ?_⟩⟩
  · have hmem := (hs.gets.mem_iff j g hj g.out).mpr (by rw [getEntry, hg]; rfl)
    obtain ⟨a, ha⟩ := Option.ne_none_iff_exists'.mp (hmiss _ hmem)
    exact ⟨a, ha, ha ▸ hmem⟩
  · exact hs.empty j g hj (by rw [hg]; rfl)
  · have hentry := (hs.gets.mem_iff j g hj o).mp hmem
    rw [getEntry, hg] at hentry
    cases hentry

/-- A step that misses pops nothing. -/
theorem miss_popped {l : DestroyStep α} (hmiss : ¬PopFinds s l) (h : s.next l = some s') :
    ∃ j, (j, none) ∈ s'.run.popped := by
  cases l with
  | destroy => exact absurd trivial hmiss
  | call l =>
      obtain ⟨run, hrun, rfl⟩ := Option.map_eq_some_iff.mp h
      cases acts_of_next hrun with
      | @getMiss i out hi hpop =>
          exact ⟨i, List.mem_append_right _ (List.mem_singleton_self _)⟩
      | getPop hi hpop =>
          refine absurd (fun g hg hpc hnil => ?_) hmiss
          rw [XLLFQ.pop_eq_none.mpr hnil] at hpop
          cases hpop
      | put | putLock | putCopy | accept | refuse | putUnlock | putFail | putGive | get | getTake
      | getLock | getUnlock => exact absurd trivial hmiss

/-- A `Get` that popped nothing and has returned has returned true. -/
theorem not_reports_of_miss (hs : Gotten before s.run) {j : Nat} (hmem : (j, none) ∈ s.run.popped)
    (hdone : ∀ g ∈ s.run.gets, g.pc ≠ .popped) : ¬Reports before s := by
  intro hreports
  have hj := List.getElem?_eq_getElem (hs.gets.inRange j none hmem)
  have hentry := (hs.gets.mem_iff j _ hj none).mp hmem
  simp only [getEntry, Option.ite_none_right_eq_some, Option.some.injEq] at hentry
  obtain ⟨hpc, hout⟩ := hentry
  have hreturned := (GetPc.eq_of_done hpc).resolve_left (hdone _ (List.mem_of_getElem? hj))
  obtain ⟨a, ha, -⟩ := hreports.getTrue j _ hj hreturned
  rw [hout] at ha
  cases ha

/--
While `Destroy` and any number of calls take turns, every `Get` reports what it did as long as
each that pops finds an event; and once none is between `pop` and its return, only then.
-/
theorem reports_iff (queue : XLEventQueue α) {ls : List (DestroyStep α)} {s : DestroyRun α}
    (hrun : exec next (ofQueue queue) ls = some s) :
    (Along next PopFinds (ofQueue queue) ls →
        Throughout next (Reports queue.q.pending) (ofQueue queue) ls) ∧
      ((∀ g ∈ s.run.gets, g.pc ≠ .popped) →
        Throughout next (Reports queue.q.pending) (ofQueue queue) ls →
          Along next PopFinds (ofQueue queue) ls) := by
  have hstart : Gotten queue.q.pending (ofQueue queue).run := gotten_ofQueue queue
  constructor
  · exact throughout_of_along
      (I := fun u => Gotten queue.q.pending u.run ∧ NoMiss u)
      (fun u l v hu hl hstep => ⟨gotten_next hu.1 hstep, noMiss_next hu.2 hl hstep⟩)
      (fun u hu => reports_of_noMiss hu.1 hu.2)
      ⟨hstart, fun r hr => absurd hr List.not_mem_nil⟩
  · intro hdone hreports
    by_contra hmiss
    obtain ⟨before, l, after, u, v, rfl, hbefore, hnot, hstep, hafter⟩ := exists_miss hrun hmiss
    -- The miss stays on record to the end.
    obtain ⟨j, hj⟩ := miss_popped hnot hstep
    have hlog : (j, none) ∈ s.run.popped := by
      have hkept := exec_invariant (I := fun w => (j, none) ∈ w.run.popped)
        (fun w l w' hw hl => (popped_next hl).subset hw) hj hafter
      exact hkept
    have hend := exec_invariant (I := fun w => Gotten queue.q.pending w.run)
      (fun w l w' hw hl => gotten_next hw hl) hstart hrun
    exact not_reports_of_miss hend hlog hdone (hreports.last hrun)

/-- A queue after `Create`. -/
def createdQueue : XLEventQueue Nat := ((XLEventQueue.new 256).create 9).1

/-- A `Get` that gets its event, and `Destroy` behind it. -/
def getThenDestroy : List (DestroyStep Nat) :=
  [.call (.put 7), .call (.putLock 0), .call (.putCopy 0), .call (.putPush 0),
    .call (.putUnlock 0), .call (.putGive 0), .call .get, .call (.getTake 0), .destroy, .destroy,
    .call (.getLock 0), .destroy, .call (.getPop 0), .destroy, .call (.getUnlock 0), .destroy]

theorem reports_iff_getThenDestroy :
    ∃ s, exec next (ofQueue createdQueue) getThenDestroy = some s ∧
      (Along next PopFinds (ofQueue createdQueue) getThenDestroy →
        Throughout next (Reports createdQueue.q.pending) (ofQueue createdQueue) getThenDestroy) ∧
      ((∀ g ∈ s.run.gets, g.pc ≠ .popped) →
        Throughout next (Reports createdQueue.q.pending) (ofQueue createdQueue) getThenDestroy →
          Along next PopFinds (ofQueue createdQueue) getThenDestroy) := by
  obtain ⟨s, hs⟩ := Option.isSome_iff_exists.mp
    (show (exec next (ofQueue createdQueue) getThenDestroy).isSome = true by decide)
  exact ⟨s, hs, reports_iff createdQueue hs⟩

/-- `Destroy` runs between the test of `IsCreated` and `Take`, on an empty queue. -/
def destroyThenTake : List (DestroyStep Nat) :=
  .call .get :: List.replicate 5 .destroy ++
    [.call (.getTake 0), .call (.getLock 0), .call (.getPop 0), .call (.getUnlock 0)]

theorem get_returns_nothing :
    ∃ s : DestroyRun Nat, exec next (ofQueue createdQueue) destroyThenTake = some s ∧
      ¬Reports createdQueue.q.pending s := by
  have hends : (exec next (ofQueue createdQueue) destroyThenTake).map (fun s : DestroyRun Nat =>
      s.run.gets.map fun g => (g.pc, g.out)) = some [(.returned true, none)] := by decide
  obtain ⟨s, hs, hgets⟩ := Option.map_eq_some_iff.mp hends
  refine ⟨s, hs, fun hreports => ?_⟩
  obtain ⟨g, hg, heq⟩ := List.map_eq_singleton_iff.mp hgets
  simp only [Prod.mk.injEq] at heq
  obtain ⟨a, ha, -⟩ := hreports.getTrue 0 g (by rw [hg]; rfl) heq.1
  rw [heq.2] at ha
  cases ha

/-! ### Permits that are real -/

/-- If this step is a `Take`, the semaphore is there. -/
def TakesCreated (s : DestroyRun α) : DestroyStep α → Prop
  | .call (.getTake _) => s.run.queue.sem.created = true
  | _ => True

theorem stocked_next (hs : s.run.Stocked) {l : DestroyStep α} (htake : TakesCreated s l)
    (h : s.next l = some s') : s'.run.Stocked := by
  cases l with
  | destroy =>
      obtain ⟨queue, hrun, hq, hsem⟩ := destroy_frame h
      have hsurplus := hs.surplus
      have hnonneg := hs.nonneg
      have havailable : 0 ≤ queue.sem.permits.available ∧
          queue.sem.permits.available ≤ s.run.queue.sem.permits.available := by
        rcases hsem with heq | heq
        · rw [heq]
          exact ⟨hnonneg, Int.le_refl _⟩
        · rw [heq, XLSemaPhore.destroy]
          split
          · exact ⟨Int.le_refl 0, hnonneg⟩
          · exact ⟨hnonneg, Int.le_refl _⟩
      rw [hrun]
      refine ⟨havailable.1, ?_⟩
      simp only [surplus] at hsurplus ⊢
      rw [hq]
      omega
  | call l =>
      obtain ⟨run, hrun, rfl⟩ := Option.map_eq_some_iff.mp h
      have hacts := acts_of_next hrun
      by_cases hc : s.run.queue.sem.created = true
      · exact hacts.stocked (fun _ => hc) hs
      · by_cases huses : l.usesSem = true
        · cases hacts with
          | @putGive i e hi =>
              -- The permit is not there, and the event stays without one.
              have hleave := Calls.countP_set_leave (p := fun c : PutCall α => c.pc.beforeGive)
                (b := ⟨e, .returned true⟩) hi rfl rfl
              have hsurplus := hs.surplus
              have hgive : s.run.queue.sem.give = s.run.queue.sem := if_neg hc
              rw [hgive]
              refine ⟨hs.nonneg, ?_⟩
              simp only [surplus] at hsurplus ⊢
              omega
          | getTake hi => exact absurd htake hc
          | put | putLock | putCopy | accept | refuse | putUnlock | putFail | get | getLock
          | getPop | getMiss | getUnlock => cases huses
        · exact hacts.stocked (fun huse => absurd huse huses) hs

/-- Where the events cover the permits and no `Take` finds the semaphore gone, `pop` finds an
event. -/
theorem popFinds_of_takesCreated {queue : XLEventQueue α}
    (hnonneg : 0 ≤ queue.sem.permits.available)
    (hcovered : queue.sem.permits.available ≤ (queue.q.pending.length : Int))
    {ls : List (DestroyStep α)} (htakes : Along next TakesCreated (ofQueue queue) ls) :
    Along next PopFinds (ofQueue queue) ls := by
  refine Along.of_invariant (I := fun u => u.run.Stocked)
    (fun u l v hu hl hstep => stocked_next hu hl hstep) (fun u l hu _ => ?_)
    ⟨hnonneg, ?_⟩ htakes
  · cases l with
    | destroy => trivial
    | call l =>
        cases l with
        | getPop i => exact fun g hg hpc => hu.pending_ne_nil hg (by rw [hpc]; rfl)
        | put | putLock | putCopy | putPush | putUnlock | putGive | get | getTake | getLock
        | getUnlock => trivial
  · simp only [surplus, ofQueue, QueueRun.ofQueue, List.countP_nil]
    omega

end DestroyRun

end ServClient
