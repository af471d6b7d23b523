/-
Exactly once and in order: what any interleaving of `Put` and `Get` leaves of a queue.

Three groups of facts are kept by every step.

  * The writers' lock: of the calls between `WriterLock` and `WriterUnlock` there is one,
    so what is pushed is the event of the call that pushes.
  * The count: a pending event is a permit, or belongs to a `Get` that has taken its
    permit and not popped, or to a `Put` that has pushed and not given.
  * The logs: what was popped followed by what is pending is what was pushed.

The second says that `pop` never finds the queue empty, and with the third the k-th event
popped is the k-th event pushed.
-/
import ServClient.EventQueue
import ServClient.Proofs.SemaPhore
import ServClient.Proofs.LockFreeQueue

namespace ServClient

open Runs

variable {α : Type}

/-- Between `WriterLock` and `WriterUnlock`. -/
def PutPc.holds : PutPc → Bool
  | locked | copied | pushed | refused => true
  | _ => false

/-- Its event was pushed. -/
def PutPc.accepted : PutPc → Bool
  | pushed | unlocked | returned true => true
  | _ => false

/-- It has pushed and not yet given. -/
def PutPc.beforeGive : PutPc → Bool
  | pushed | unlocked => true
  | _ => false

/-- It is past `Take` and has not yet popped. -/
def GetPc.pastTake : GetPc → Bool
  | taken | locked => true
  | _ => false

/-- It is a `Take` or a `Give`. -/
def QueueStep.usesSem : QueueStep α → Bool
  | putGive _ | getTake _ => true
  | put _ | putLock _ | putCopy _ | putPush _ | putUnlock _ | get | getLock _ | getPop _
  | getUnlock _ => false

/-- It has popped. -/
def GetPc.done : GetPc → Bool
  | popped | returned true => true
  | _ => false

namespace QueueRun

/-! ### What one step can do

Two case analyses of a step.  `Acts` is for a queue in any state, created or not; `Moves` is for a
created one whose writers take turns, and says more.
-/

/-- The steps of a queue in any state. -/
inductive Acts (s : QueueRun α) : QueueStep α → QueueRun α → Prop
  | put (e) : Acts s (.put e) (s.callPut e)
  | putLock {i e mut1} (hi : s.puts[i]? = some ⟨e, .entered⟩)
      (hlock : s.queue.writerLock i = some { s.queue with mut1 := mut1 }) :
      Acts s (.putLock i) { s with
        queue := { s.queue with mut1 := mut1 }, puts := s.puts.set i ⟨e, .locked⟩ }
  | putCopy {i e} (hi : s.puts[i]? = some ⟨e, .locked⟩) :
      Acts s (.putCopy i) { s with
        queue := { s.queue with event := e }, puts := s.puts.set i ⟨e, .copied⟩ }
  | accept {i e} (hi : s.puts[i]? = some ⟨e, .copied⟩)
      (hroom : s.queue.q.pending.length < s.queue.q.maxSize) :
      Acts s (.putPush i) { s with
        queue := { s.queue with q := (s.queue.q.push s.queue.event).1 }
        puts := s.puts.set i ⟨e, .pushed⟩
        pushed := s.pushed ++ [(i, s.queue.event)] }
  | refuse {i e} (hi : s.puts[i]? = some ⟨e, .copied⟩)
      (hfull : ¬ s.queue.q.pending.length < s.queue.q.maxSize) :
      Acts s (.putPush i) { s with
        queue := { s.queue with q := (s.queue.q.push s.queue.event).1 }
        puts := s.puts.set i ⟨e, .refused⟩ }
  | putUnlock {i e mut1} (hi : s.puts[i]? = some ⟨e, .pushed⟩)
      (hunlock : s.queue.writerUnlock = { s.queue with mut1 := mut1 }) :
      Acts s (.putUnlock i) { s with
        queue := { s.queue with mut1 := mut1 }, puts := s.puts.set i ⟨e, .unlocked⟩ }
  | putFail {i e mut1} (hi : s.puts[i]? = some ⟨e, .refused⟩)
      (hunlock : s.queue.writerUnlock = { s.queue with mut1 := mut1 }) :
      Acts s (.putUnlock i) { s with
        queue := { s.queue with mut1 := mut1 }, puts := s.puts.set i ⟨e, .returned false⟩ }
  | putGive {i e} (hi : s.puts[i]? = some ⟨e, .unlocked⟩) :
      Acts s (.putGive i) { s with
        queue := { s.queue with sem := s.queue.sem.give }
        puts := s.puts.set i ⟨e, .returned true⟩ }
  | get : Acts s .get s.callGet
  | getTake {i out sem} (hi : s.gets[i]? = some ⟨.entered, out⟩)
      (htake : s.queue.sem.take = some sem) :
      Acts s (.getTake i) { s with
        queue := { s.queue with sem := sem }, gets := s.gets.set i ⟨.taken, out⟩ }
  | getLock {i out mut0} (hi : s.gets[i]? = some ⟨.taken, out⟩) :
      Acts s (.getLock i) { s with
        queue := { s.queue with mut0 := mut0 }, gets := s.gets.set i ⟨.locked, out⟩ }
  | getPop {i out q e} (hi : s.gets[i]? = some ⟨.locked, out⟩)
      (hpop : s.queue.q.pop = some (q, e)) :
      Acts s (.getPop i) { s with
        queue := { s.queue with q := q }
        gets := s.gets.set i ⟨.popped, some e⟩
        popped := s.popped ++ [(i, some e)] }
  | getMiss {i out} (hi : s.gets[i]? = some ⟨.locked, out⟩) (hpop : s.queue.q.pop = none) :
      Acts s (.getPop i) { s with
        gets := s.gets.set i ⟨.popped, out⟩, popped := s.popped ++ [(i, none)] }
  | getUnlock {i out mut0} (hi : s.gets[i]? = some ⟨.popped, out⟩) :
      Acts s (.getUnlock i) { s with
        queue := { s.queue with mut0 := mut0 }, gets := s.gets.set i ⟨.returned true, out⟩ }

theorem readerLock_eq {queue queue' : XLEventQueue α} {i : Nat}
    (h : queue.readerLock i = some queue') : ∃ m, queue' = { queue with mut0 := m } := by
  unfold XLEventQueue.readerLock at h
  split at h
  · obtain ⟨m, -, rfl⟩ := Option.map_eq_some_iff.mp h
    exact ⟨m, rfl⟩
  · cases h; exact ⟨_, rfl⟩

theorem readerUnlock_eq (queue : XLEventQueue α) :
    ∃ m, queue.readerUnlock = { queue with mut0 := m } := by
  unfold XLEventQueue.readerUnlock
  split
  · exact ⟨_, rfl⟩
  · exact ⟨_, rfl⟩

theorem writerLock_mut1 {queue queue' : XLEventQueue α} {i : Nat}
    (h : queue.writerLock i = some queue') : ∃ m, queue' = { queue with mut1 := m } := by
  unfold XLEventQueue.writerLock at h
  split at h
  · obtain ⟨m, -, rfl⟩ := Option.map_eq_some_iff.mp h
    exact ⟨m, rfl⟩
  · cases h; exact ⟨_, rfl⟩

theorem writerUnlock_mut1 (queue : XLEventQueue α) :
    ∃ m, queue.writerUnlock = { queue with mut1 := m } := by
  unfold XLEventQueue.writerUnlock
  split
  · exact ⟨_, rfl⟩
  · exact ⟨_, rfl⟩

theorem acts_of_next {s s' : QueueRun α} {l : QueueStep α} (h : s.next l = some s') :
    Acts s l s' := by
  cases l with
  | put e => cases h; exact .put e
  | putLock i =>
      simp only [next] at h
      split at h
      · rename_i e hi
        obtain ⟨queue, hlock, rfl⟩ := Option.map_eq_some_iff.mp h
        obtain ⟨m, rfl⟩ := writerLock_mut1 hlock
        exact .putLock hi hlock
      · cases h
  | putCopy i =>
      simp only [next] at h
      split at h
      · rename_i e hi; cases h; exact .putCopy hi
      · cases h
  | putPush i =>
      simp only [next] at h
      split at h
      · rename_i e hi
        by_cases hroom : s.queue.q.pending.length < s.queue.q.maxSize
        · rw [if_pos (XLLFQ.push_room hroom _).1] at h
          cases h
          exact .accept hi hroom
        · rw [if_neg (by rw [(XLLFQ.push_full hroom _).1]; decide)] at h
          cases h
          exact .refuse hi hroom
      · cases h
  | putUnlock i =>
      obtain ⟨m, hm⟩ := writerUnlock_mut1 s.queue
      simp only [next, hm] at h
      split at h
      · rename_i e hi; cases h; exact .putUnlock hi hm
      · rename_i e hi; cases h; exact .putFail hi hm
      · cases h
  | putGive i =>
      simp only [next] at h
      split at h
      · rename_i e hi; cases h; exact .putGive hi
      · cases h
  | get => cases h; exact .get
  | getTake i =>
      simp only [next] at h
      split at h
      · rename_i out hi
        obtain ⟨sem, htake, rfl⟩ := Option.map_eq_some_iff.mp h
        exact .getTake hi htake
      · cases h
  | getLock i =>
      simp only [next] at h
      split at h
      · rename_i out hi
        obtain ⟨queue, hlock, rfl⟩ := Option.map_eq_some_iff.mp h
        obtain ⟨m, rfl⟩ := readerLock_eq hlock
        exact .getLock hi
      · cases h
  | getPop i =>
      simp only [next] at h
      split at h
      · rename_i out hi
        split at h
        · rename_i q e hpop; cases h; exact .getPop hi hpop
        · rename_i hpop; cases h; exact .getMiss hi hpop
      · cases h
  | getUnlock i =>
      obtain ⟨m, hm⟩ := readerUnlock_eq s.queue
      simp only [next, hm] at h
      split at h
      · rename_i out hi; cases h; exact .getUnlock hi
      · cases h

/-- The steps of a created queue whose writers take turns. -/
inductive Moves (s : QueueRun α) : QueueStep α → QueueRun α → Prop
  | put (e) : Moves s (.put e) { s with puts := s.puts ++ [⟨e, .entered⟩] }
  | putLock {i e} (hi : s.puts[i]? = some ⟨e, .entered⟩) (hfree : s.queue.mut1.owner = none) :
      Moves s (.putLock i) { s with
        queue := { s.queue with mut1 := { s.queue.mut1 with owner := some i } }
        puts := s.puts.set i ⟨e, .locked⟩ }
  | putCopy {i e} (hi : s.puts[i]? = some ⟨e, .locked⟩) :
      Moves s (.putCopy i) { s with
        queue := { s.queue with event := e }, puts := s.puts.set i ⟨e, .copied⟩ }
  | accept {i e} (hi : s.puts[i]? = some ⟨e, .copied⟩)
      (hroom : s.queue.q.pending.length < s.queue.q.maxSize) :
      Moves s (.putPush i) { s with
        queue := { s.queue with q := (s.queue.q.push s.queue.event).1 }
        puts := s.puts.set i ⟨e, .pushed⟩
        pushed := s.pushed ++ [(i, s.queue.event)] }
  | refuse {i e} (hi : s.puts[i]? = some ⟨e, .copied⟩)
      (hfull : ¬ s.queue.q.pending.length < s.queue.q.maxSize) :
      Moves s (.putPush i) { s with
        queue := { s.queue with q := (s.queue.q.push s.queue.event).1 }
        puts := s.puts.set i ⟨e, .refused⟩ }
  | putUnlock {i e} (hi : s.puts[i]? = some ⟨e, .pushed⟩) :
      Moves s (.putUnlock i) { s with
        queue := { s.queue with mut1 := { s.queue.mut1 with owner := none } }
        puts := s.puts.set i ⟨e, .unlocked⟩ }
  | putFail {i e} (hi : s.puts[i]? = some ⟨e, .refused⟩) :
      Moves s (.putUnlock i) { s with
        queue := { s.queue with mut1 := { s.queue.mut1 with owner := none } }
        puts := s.puts.set i ⟨e, .returned false⟩ }
  | putGive {i e} (hi : s.puts[i]? = some ⟨e, .unlocked⟩) :
      Moves s (.putGive i) { s with
        queue := { s.queue with sem := s.queue.sem.lower }
        puts := s.puts.set i ⟨e, .returned true⟩ }
  | get : Moves s .get { s with gets := s.gets ++ [⟨.entered, none⟩] }
  | getTake {i out} (hi : s.gets[i]? = some ⟨.entered, out⟩) (hpass : s.queue.sem.Passes) :
      Moves s (.getTake i) { s with
        queue := { s.queue with sem := s.queue.sem.raise }, gets := s.gets.set i ⟨.taken, out⟩ }
  | getLock {i out mut0} (hi : s.gets[i]? = some ⟨.taken, out⟩) :
      Moves s (.getLock i) { s with
        queue := { s.queue with mut0 := mut0 }, gets := s.gets.set i ⟨.locked, out⟩ }
  | getPop {i out q e} (hi : s.gets[i]? = some ⟨.locked, out⟩)
      (hpop : s.queue.q.pop = some (q, e)) :
      Moves s (.getPop i) { s with
        queue := { s.queue with q := q }
        gets := s.gets.set i ⟨.popped, some e⟩
        popped := s.popped ++ [(i, some e)] }
  | getMiss {i out} (hi : s.gets[i]? = some ⟨.locked, out⟩) (hpop : s.queue.q.pop = none) :
      Moves s (.getPop i) { s with
        gets := s.gets.set i ⟨.popped, out⟩, popped := s.popped ++ [(i, none)] }
  | getUnlock {i out mut0} (hi : s.gets[i]? = some ⟨.popped, out⟩) :
      Moves s (.getUnlock i) { s with
        queue := { s.queue with mut0 := mut0 }, gets := s.gets.set i ⟨.returned true, out⟩ }

/-- A created queue whose writers take turns. -/
structure Live (s : QueueRun α) : Prop where
  created : s.queue.created = true
  sem : s.queue.sem.created = true
  writers : s.queue.mut1.created = true
  multiWriter : s.queue.properties &&& XLEventQueue.multiWriter ≠ 0

theorem live_start [Inhabited α] (maxSize : Int) {properties : Nat}
    (h : properties &&& XLEventQueue.multiWriter ≠ 0) :
    Live (start maxSize properties : QueueRun α) := ⟨rfl, rfl, rfl, h⟩

theorem writerLock_eq {s : QueueRun α} (hs : Live s) {queue : XLEventQueue α} {i : Nat}
    (h : s.queue.writerLock i = some queue) : s.queue.mut1.owner = none ∧
      queue = { s.queue with mut1 := { s.queue.mut1 with owner := some i } } := by
  rw [XLEventQueue.writerLock, if_pos hs.multiWriter, XLMutex.lock, if_pos hs.writers] at h
  split at h
  · rename_i hfree
    cases h
    exact ⟨hfree, rfl⟩
  · cases h

theorem writerUnlock_eq {s : QueueRun α} (hs : Live s) :
    s.queue.writerUnlock = { s.queue with mut1 := { s.queue.mut1 with owner := none } } := by
  rw [XLEventQueue.writerUnlock, if_pos hs.multiWriter, XLMutex.unlock, if_pos hs.writers]

theorem moves_of_next {s s' : QueueRun α} {l : QueueStep α} (hs : Live s)
    (h : s.next l = some s') : Moves s l s' := by
  cases acts_of_next h with
  | put e =>
      rw [callPut, if_pos hs.created]
      exact .put e
  | putLock hi hlock =>
      obtain ⟨hfree, hqueue⟩ := writerLock_eq hs hlock
      rw [hqueue]
      exact .putLock hi hfree
  | putCopy hi => exact .putCopy hi
  | accept hi hroom => exact .accept hi hroom
  | refuse hi hfull => exact .refuse hi hfull
  | putUnlock hi hunlock =>
      rw [← hunlock, writerUnlock_eq hs]
      exact .putUnlock hi
  | putFail hi hunlock =>
      rw [← hunlock, writerUnlock_eq hs]
      exact .putFail hi
  | putGive hi =>
      rw [XLSemaPhore.give, if_pos hs.sem]
      exact .putGive hi
  | get =>
      rw [callGet, if_pos hs.created]
      exact .get
  | getTake hi htake =>
      obtain ⟨hpass, rfl⟩ := XLSemaPhore.take_created hs.sem htake
      exact .getTake hi hpass
  | getLock hi => exact .getLock hi
  | getPop hi hpop => exact .getPop hi hpop
  | getMiss hi hpop => exact .getMiss hi hpop
  | getUnlock hi => exact .getUnlock hi

theorem Moves.live {s s' : QueueRun α} {l : QueueStep α} (h : Moves s l s') (hs : Live s) :
    Live s' := by
  cases h <;> exact ⟨hs.created, hs.sem, hs.writers, hs.multiWriter⟩

/-! ### The writers' lock

`mEvent` is shared by all calls of `Put`.  What makes it safe to copy through is that only the call
that has the lock writes to it.
-/

/-- The writers' lock keeps `mEvent` for the call that has it. -/
structure Exclusive (s : QueueRun α) : Prop where
  owner : ∀ (i : Nat) (c : PutCall α), s.puts[i]? = some c → c.pc.holds = true →
    s.queue.mut1.owner = some i
  copied : ∀ (i : Nat) (c : PutCall α), s.puts[i]? = some c → c.pc = .copied →
    s.queue.event = c.event

theorem exclusive_ofQueue (queue : XLEventQueue α) : Exclusive (ofQueue queue) :=
  ⟨fun i c h => by simp [ofQueue] at h, fun i c h => by simp [ofQueue] at h⟩

/-- Call `i` holds the lock, so no other call does. -/
theorem Exclusive.other {s : QueueRun α} (hs : Exclusive s) {i j : Nat} {c d : PutCall α}
    (hi : s.puts[i]? = some c) (hc : c.pc.holds = true) (hne : j ≠ i) (hj : s.puts[j]? = some d) :
    d.pc.holds = false := by
  by_contra hd
  rw [Bool.not_eq_false] at hd
  have := (hs.owner i c hi hc).symm.trans (hs.owner j d hj hd)
  exact hne (Option.some.inj this).symm

theorem Moves.exclusive {s s' : QueueRun α} {l : QueueStep α} (h : Moves s l s')
    (hs : Exclusive s) : Exclusive s' := by
  cases h with
  | put e =>
      exact ⟨Calls.forall_concat (fun hc => (by cases hc)) hs.owner,
        Calls.forall_concat (fun hc => (by cases hc)) hs.copied⟩
  | putLock hi hfree =>
      refine ⟨Calls.forall_set hi (fun _ => rfl) fun j c _ hj hc => ?_,
        Calls.forall_set hi (fun hc => by cases hc) fun j c _ hj hc => hs.copied j c hj hc⟩
      rw [hs.owner j c hj hc] at hfree
      cases hfree
  | putCopy hi =>
      refine ⟨Calls.forall_set hi (fun _ => hs.owner _ _ hi rfl) fun j c _ hj hc =>
        hs.owner j c hj hc, Calls.forall_set hi (fun _ => rfl) fun j c hne hj hc => ?_⟩
      have := hs.other hi rfl hne hj
      rw [hc] at this
      cases this
  | accept hi hroom =>
      exact ⟨Calls.forall_set hi (fun _ => hs.owner _ _ hi rfl) fun j c _ hj hc =>
        hs.owner j c hj hc, Calls.forall_set hi (fun hc => by cases hc) fun j c _ hj hc =>
        hs.copied j c hj hc⟩
  | refuse hi hfull =>
      exact ⟨Calls.forall_set hi (fun _ => hs.owner _ _ hi rfl) fun j c _ hj hc =>
        hs.owner j c hj hc, Calls.forall_set hi (fun hc => by cases hc) fun j c _ hj hc =>
        hs.copied j c hj hc⟩
  | putUnlock hi =>
      refine ⟨Calls.forall_set hi (fun hc => by cases hc) fun j c hne hj hc => ?_,
        Calls.forall_set hi (fun hc => by cases hc) fun j c _ hj hc => hs.copied j c hj hc⟩
      rw [hs.other hi rfl hne hj] at hc
      cases hc
  | putFail hi =>
      refine ⟨Calls.forall_set hi (fun hc => by cases hc) fun j c hne hj hc => ?_,
        Calls.forall_set hi (fun hc => by cases hc) fun j c _ hj hc => hs.copied j c hj hc⟩
      rw [hs.other hi rfl hne hj] at hc
      cases hc
  | putGive hi =>
      exact ⟨Calls.forall_set hi (fun hc => by cases hc) fun j c _ hj hc => hs.owner j c hj hc,
        Calls.forall_set hi (fun hc => by cases hc) fun j c _ hj hc => hs.copied j c hj hc⟩
  | get | getTake hi hpass | getLock hi | getPop hi hpop | getMiss hi hpop | getUnlock hi =>
      exact ⟨hs.owner, hs.copied⟩

/-! ### The count

A `Put` pushes and then gives, a `Get` takes and then pops.  In between there is an event without a
permit, and the call that stands there makes up the difference.
-/

/-- The pending events no permit and no call in progress accounts for. -/
def surplus (s : QueueRun α) : Int :=
  s.queue.q.pending.length - s.queue.sem.permits.available -
    s.gets.countP (fun g => g.pc.pastTake) - s.puts.countP (fun c => c.pc.beforeGive)

/-- What there is accounts for the permits and for the calls in progress. -/
structure Stocked (s : QueueRun α) : Prop where
  nonneg : 0 ≤ s.queue.sem.permits.available
  surplus : 0 ≤ s.surplus

/-- A `Get` that is about to pop finds an event. -/
theorem Stocked.pending_ne_nil {s : QueueRun α} (hs : Stocked s) {i : Nat} {g : GetCall α}
    (hi : s.gets[i]? = some g) (hg : g.pc.pastTake = true) : s.queue.q.pending ≠ [] := by
  intro hnil
  have hpos := Calls.countP_pos (p := fun g : GetCall α => g.pc.pastTake) hi hg
  have hsurplus := hs.surplus
  have hnonneg := hs.nonneg
  rw [QueueRun.surplus, hnil, List.length_nil] at hsurplus
  omega

/-- An event, a permit or a call in progress turns into another. -/
theorem Acts.balance {s s' : QueueRun α} {l : QueueStep α} (h : Acts s l s')
    (hsem : l.usesSem = true → s.queue.sem.created = true) (hs : Stocked s) :
    0 ≤ s'.queue.sem.permits.available ∧ s'.surplus = s.surplus := by
  have hnonneg := hs.nonneg
  cases h with
  | put e =>
      refine ⟨hnonneg, ?_⟩
      have hpc : PutPc.beforeGive (if s.queue.created then .entered else .returned false) =
          false := by split <;> rfl
      simp [surplus, callPut, hpc]
  | putLock hi | putCopy hi | putUnlock hi | putFail hi =>
      refine ⟨hnonneg, ?_⟩
      simp only [surplus]
      rw [Calls.countP_set_same hi]
      rfl
  | accept hi hroom =>
      refine ⟨hnonneg, ?_⟩
      simp only [surplus]
      rw [Calls.countP_set_enter hi rfl rfl, (XLLFQ.push_room hroom _).2, List.length_append,
        List.length_singleton]
      omega
  | refuse hi hfull =>
      refine ⟨hnonneg, ?_⟩
      simp only [surplus]
      rw [Calls.countP_set_same hi, (XLLFQ.push_full hfull _).2]
      rfl
  | @putGive i e hi =>
      -- The call's event turns into a permit.
      have hleave := Calls.countP_set_leave (p := fun c : PutCall α => c.pc.beforeGive)
        (b := ⟨e, .returned true⟩) hi rfl rfl
      refine ⟨?_, ?_⟩ <;> simp only [surplus] <;>
        rw [XLSemaPhore.give, if_pos (hsem rfl), XLSemaPhore.permits_lower] <;> dsimp only <;> omega
  | get =>
      refine ⟨hnonneg, ?_⟩
      have hpc : GetPc.pastTake (if s.queue.created then .entered else .returned false) =
          false := by split <;> rfl
      simp [surplus, callGet, hpc]
  | getTake hi htake =>
      -- A permit turns into the event the call will pop.
      obtain ⟨hpass, rfl⟩ := XLSemaPhore.take_created (hsem rfl) htake
      rw [XLSemaPhore.passes_iff] at hpass
      refine ⟨?_, ?_⟩
      · dsimp only
        rw [XLSemaPhore.permits_raise]
        dsimp only
        omega
      · simp only [surplus]
        rw [XLSemaPhore.permits_raise, Calls.countP_set_enter hi rfl rfl]
        dsimp only
        omega
  | getLock hi | getUnlock hi =>
      refine ⟨hnonneg, ?_⟩
      simp only [surplus]
      rw [Calls.countP_set_same hi]
      rfl
  | @getPop i out q e hi hpop =>
      have hleave := Calls.countP_set_leave (p := fun g : GetCall α => g.pc.pastTake)
        (b := ⟨.popped, some e⟩) hi rfl rfl
      refine ⟨hnonneg, ?_⟩
      simp only [surplus, XLLFQ.pop_eq_some hpop, List.length_cons]
      omega
  | getMiss hi hpop =>
      exact absurd (XLLFQ.pop_eq_none.mp hpop) (hs.pending_ne_nil hi rfl)

theorem Acts.stocked {s s' : QueueRun α} {l : QueueStep α} (h : Acts s l s')
    (hsem : l.usesSem = true → s.queue.sem.created = true) (hs : Stocked s) : Stocked s' := by
  obtain ⟨hnonneg, hsurplus⟩ := h.balance hsem hs
  exact ⟨hnonneg, hsurplus ▸ hs.surplus⟩

/-- Every pending event has its permit, or a call that is between the two. -/
structure Counted (s : QueueRun α) : Prop where
  nonneg : 0 ≤ s.queue.sem.permits.available
  count : (s.queue.q.pending.length : Int) = s.queue.sem.permits.available +
    s.gets.countP (fun g => g.pc.pastTake) + s.puts.countP (fun c => c.pc.beforeGive)

theorem counted_start [Inhabited α] (maxSize : Int) (properties : Nat) :
    Counted (start maxSize properties : QueueRun α) :=
  ⟨Int.le_refl 0, rfl⟩

theorem Counted.surplus {s : QueueRun α} (hs : Counted s) : s.surplus = 0 := by
  have := hs.count
  rw [QueueRun.surplus]
  omega

theorem Counted.stocked {s : QueueRun α} (hs : Counted s) : Stocked s :=
  ⟨hs.nonneg, Int.le_of_eq hs.surplus.symm⟩

theorem Counted.pending_ne_nil {s : QueueRun α} (hs : Counted s) {i : Nat} {g : GetCall α}
    (hi : s.gets[i]? = some g) (hg : g.pc.pastTake = true) : s.queue.q.pending ≠ [] :=
  hs.stocked.pending_ne_nil hi hg

theorem Acts.counted {s s' : QueueRun α} {l : QueueStep α} (h : Acts s l s')
    (hsem : s.queue.sem.created = true) (hs : Counted s) : Counted s' := by
  obtain ⟨hnonneg, hsurplus⟩ := h.balance (fun _ => hsem) hs.stocked
  rw [hs.surplus, surplus] at hsurplus
  exact ⟨hnonneg, by omega⟩

/-! ### The logs

Pushes and pops are logged with the call that makes them.  That a log is a prefix of the other is
what order means for a queue.
-/

/-- What a `Put` has pushed so far. -/
def putEntry (c : PutCall α) : Option α := if c.pc.accepted then some c.event else none

/-- What a `Get` has popped so far. -/
def getEntry (g : GetCall α) : Option (Option α) := if g.pc.done then some g.out else none

/-- What is popped is what was pushed, in order, and the two logs are those of the calls. -/
structure Ordered (s : QueueRun α) : Prop where
  order : s.popped.map Prod.snd ++ s.queue.q.pending.map some = s.pushed.map fun r => some r.2
  puts : Calls.Logged putEntry s.puts s.pushed
  gets : Calls.Logged getEntry s.gets s.popped

theorem ordered_start [Inhabited α] (maxSize : Int) (properties : Nat) :
    Ordered (start maxSize properties : QueueRun α) :=
  ⟨rfl, Calls.Logged.nil _ _ (by simp [start, ofQueue]),
    Calls.Logged.nil _ _ (by simp [start, ofQueue])⟩

/-- What is pushed in this step is the event of the call that pushes it. -/
def PushesOwn (s : QueueRun α) : QueueStep α → Prop
  | .putPush i => ∀ c ∈ s.puts[i]?, c.pc = .copied →
      s.queue.q.pending.length < s.queue.q.maxSize → s.queue.event = c.event
  | _ => True

theorem Exclusive.pushesOwn {s : QueueRun α} (hs : Exclusive s) (l : QueueStep α) :
    PushesOwn s l := by
  cases l with
  | putPush i => exact fun c hi hc _ => hs.copied i c hi hc
  | put | putLock | putCopy | putUnlock | putGive | get | getTake | getLock | getPop
  | getUnlock => trivial

theorem Acts.ordered {s s' : QueueRun α} {l : QueueStep α} (h : Acts s l s')
    (hown : PushesOwn s l) (hcount : Stocked s) (hs : Ordered s) : Ordered s' := by
  cases h with
  | put e => exact ⟨hs.order, hs.puts.concat (by simp only [putEntry]; split <;> rfl), hs.gets⟩
  | putLock hi | putCopy hi | putUnlock hi | putFail hi | putGive hi =>
      exact ⟨hs.order, hs.puts.move hi rfl, hs.gets⟩
  | @accept i e hi hroom =>
      have hevent : s.queue.event = e := hown _ hi rfl hroom
      refine ⟨?_, hs.puts.record hi rfl (by rw [hevent]; rfl), hs.gets⟩
      dsimp only
      rw [(XLLFQ.push_room hroom _).2, List.map_append, ← List.append_assoc, hs.order,
        List.map_append]
      rfl
  | refuse hi hfull =>
      refine ⟨?_, hs.puts.move hi rfl, hs.gets⟩
      dsimp only
      rw [(XLLFQ.push_full hfull _).2]
      exact hs.order
  | get => exact ⟨hs.order, hs.puts, hs.gets.concat (by simp only [getEntry]; split <;> rfl)⟩
  | getTake hi htake => exact ⟨hs.order, hs.puts, hs.gets.move hi rfl⟩
  | getLock hi | getUnlock hi => exact ⟨hs.order, hs.puts, hs.gets.move hi rfl⟩
  | getPop hi hpop =>
      refine ⟨?_, hs.puts, hs.gets.record hi rfl rfl⟩
      have horder := hs.order
      rw [XLLFQ.pop_eq_some hpop] at horder
      simpa using horder
  | getMiss hi hpop =>
      exact absurd (XLLFQ.pop_eq_none.mp hpop) (hcount.pending_ne_nil hi rfl)

/-! ### Whole runs -/

/-- What every step of a queue with a writers' lock keeps. -/
structure Inv (s : QueueRun α) : Prop where
  live : Live s
  exclusive : Exclusive s
  counted : Counted s
  ordered : Ordered s

theorem inv_start [Inhabited α] (maxSize : Int) {properties : Nat}
    (h : properties &&& XLEventQueue.multiWriter ≠ 0) :
    Inv (start maxSize properties : QueueRun α) :=
  ⟨live_start maxSize h, exclusive_ofQueue _, counted_start maxSize properties,
    ordered_start maxSize properties⟩

theorem inv_step {s s' : QueueRun α} {l : QueueStep α} (hs : Inv s) (h : s.next l = some s') :
    Inv s' := by
  have hmoves := moves_of_next hs.live h
  have hacts := acts_of_next h
  exact ⟨hmoves.live hs.live, hmoves.exclusive hs.exclusive,
    hacts.counted hs.live.sem hs.counted,
    hacts.ordered (hs.exclusive.pushesOwn l) hs.counted.stocked hs.ordered⟩

theorem inv_exec {s s' : QueueRun α} {ls : List (QueueStep α)} (hs : Inv s)
    (h : exec next s ls = some s') : Inv s' :=
  exec_invariant (I := Inv) (fun _ _ _ hu hstep => inv_step hu hstep) hs h

/-! ### What a refused `Put` leaves behind

A `Put` that returns false has pushed nothing.  Its steps touch `mEvent` and the lock, and neither
the events nor the permits nor the logs.
-/

/-- A step of a call that has not been accepted changes neither the events nor the permits. -/
theorem Moves.untouched {s s' : QueueRun α} {l : QueueStep α} (h : Moves s l s') {i : Nat}
    {c : PutCall α} (hl : l.ofPut = some i) (hc : s'.puts[i]? = some c)
    (hn : c.pc.accepted = false) :
    s'.queue.q.pending = s.queue.q.pending ∧ s'.queue.sem = s.queue.sem ∧
      s'.pushed = s.pushed ∧ s'.popped = s.popped := by
  cases h with
  | putLock hi hfree | putCopy hi | putFail hi => exact ⟨rfl, rfl, rfl, rfl⟩
  | refuse hi hfull => exact ⟨(XLLFQ.push_full hfull _).2, rfl, rfl, rfl⟩
  | accept hi hroom | putUnlock hi | putGive hi =>
      cases hl
      rw [List.getElem?_set_self (Calls.lt_of_getElem?_eq_some hi)] at hc
      cases hc
      cases hn
  | put | get | getTake hi hpass | getLock hi | getPop hi hpop | getMiss hi hpop | getUnlock hi =>
      cases hl

/-- An accepted call stays accepted. -/
def Accepted (i : Nat) (s : QueueRun α) : Prop :=
  ∃ c, s.puts[i]? = some c ∧ c.pc.accepted = true

theorem Moves.accepted {s s' : QueueRun α} {l : QueueStep α} (h : Moves s l s') {i : Nat}
    (hs : Accepted i s) : Accepted i s' := by
  cases h with
  | put e => exact Calls.exists_concat _ hs
  | putLock hi hfree | putCopy hi | accept hi hroom | refuse hi hfull | putUnlock hi
  | putFail hi | putGive hi =>
      exact Calls.exists_set hi (by simp [PutPc.accepted]) hs
  | get | getTake hi hpass | getLock hi | getPop hi hpop | getMiss hi hpop | getUnlock hi =>
      exact hs

theorem accepted_exec {s s' : QueueRun α} {ls : List (QueueStep α)} {i : Nat} (hs : Inv s)
    (h : exec next s ls = some s') (hi : Accepted i s) : Accepted i s' :=
  (exec_invariant (I := fun u => Inv u ∧ Accepted i u)
    (fun _ _ _ hu hstep => ⟨inv_step hu.1 hstep, (moves_of_next hu.1.live hstep).accepted hu.2⟩)
    ⟨hs, hi⟩ h).2

/-- No step of a call that returned false has changed the events, the permits or the logs. -/
theorem refused_untouched {s₀ u v s : QueueRun α} {l : QueueStep α} {ls ms : List (QueueStep α)}
    {i : Nat} {c : PutCall α} (hs₀ : Inv s₀) (hbefore : exec next s₀ ls = some u)
    (hstep : u.next l = some v) (hafter : exec next v ms = some s) (hl : l.ofPut = some i)
    (hi : s.puts[i]? = some c) (hc : c.pc = .returned false) :
    v.queue.q.pending = u.queue.q.pending ∧ v.queue.sem = u.queue.sem ∧
      v.pushed = u.pushed ∧ v.popped = u.popped := by
  have hu := inv_exec hs₀ hbefore
  have hmoves := moves_of_next hu.live hstep
  have hnot : ¬ Accepted i v := by
    intro hacc
    obtain ⟨d, hd, hda⟩ := accepted_exec (inv_step hu hstep) hafter hacc
    cases hi.symm.trans hd
    rw [hc] at hda
    cases hda
  -- The step is one of call `i`, so the call is there after it.
  obtain ⟨d, hd⟩ : ∃ d, v.puts[i]? = some d := by
    cases hmoves with
    | putLock hi | putCopy hi | accept hi | refuse hi | putUnlock hi | putFail hi | putGive hi =>
        cases hl
        exact ⟨_, List.getElem?_set_self (Calls.lt_of_getElem?_eq_some hi)⟩
    | put | get | getTake | getLock | getPop | getMiss | getUnlock => cases hl
  refine hmoves.untouched hl hd ?_
  by_contra hacc
  exact hnot ⟨d, hd, by simpa using hacc⟩

theorem getElem?_fst {β : Type} {log : List (Nat × β)} {k i : Nat} {b : β}
    (h : log[k]? = some (i, b)) : (log.map Prod.fst)[k]? = some i := by
  rw [List.getElem?_map, h]
  rfl

/-- Two places of a log that name the same call are one place. -/
theorem place_unique {β : Type} {log : List (Nat × β)} (hlog : (log.map Prod.fst).Nodup)
    {k k' i : Nat} {b b' : β} (h : log[k]? = some (i, b)) (h' : log[k']? = some (i, b')) :
    k = k' :=
  (List.getElem?_inj (by rw [List.length_map]; exact Calls.lt_of_getElem?_eq_some h) hlog).mp
    ((getElem?_fst h).trans (getElem?_fst h').symm)

theorem Ordered.length_le {s : QueueRun α} (hs : Ordered s) :
    s.popped.length ≤ s.pushed.length := by
  have := congrArg List.length hs.order
  simp only [List.length_append, List.length_map] at this
  omega

theorem Ordered.prefix {s : QueueRun α} (hs : Ordered s) :
    s.popped.map Prod.snd = (s.pushed.take s.popped.length).map fun r => some r.2 := by
  have := congrArg (List.take s.popped.length) hs.order
  rwa [List.take_left' (by simp), ← List.map_take] at this

/-- The two logs side by side: what was popped at a place was pushed there. -/
theorem Ordered.place {s : QueueRun α} (hs : Ordered s) {k : Nat} {r : Nat × α}
    (hk : k < s.popped.length) (hr : s.pushed[k]? = some r) :
    ∃ j, s.popped[k]? = some (j, some r.2) := by
  have hout := congrArg (fun l => l[k]?) hs.prefix
  simp only [List.getElem?_map, List.getElem?_eq_getElem hk, List.getElem?_take_of_lt hk, hr,
    Option.map_some, Option.some.injEq] at hout
  exact ⟨s.popped[k].1, by rw [List.getElem?_eq_getElem hk, ← hout]⟩

theorem Ordered.source {s : QueueRun α} (hs : Ordered s) {k : Nat} {r : Nat × Option α}
    (hk : s.popped[k]? = some r) : ∃ i a, s.pushed[k]? = some (i, a) ∧ r.2 = some a := by
  have hlt := Calls.lt_of_getElem?_eq_some hk
  have hle := hs.length_le
  obtain ⟨⟨i, a⟩, hr⟩ : ∃ q, s.pushed[k]? = some q :=
    ⟨_, List.getElem?_eq_getElem (by omega)⟩
  obtain ⟨j, hj⟩ := hs.place hlt hr
  rw [hk, Option.some.injEq] at hj
  exact ⟨i, a, hr, by rw [hj]⟩

/-- A `Get` that has popped has got an event. -/
theorem Ordered.out_some {s : QueueRun α} (hs : Ordered s) {j : Nat} {g : GetCall α}
    (hj : s.gets[j]? = some g) (hg : g.pc.done = true) : ∃ a, g.out = some a := by
  have hmem := (hs.gets.mem_iff j g hj g.out).mpr (by simp [getEntry, hg])
  obtain ⟨k, hk⟩ := List.mem_iff_getElem?.mp hmem
  obtain ⟨i, a, -, ho⟩ := hs.source hk
  exact ⟨a, ho⟩

/-- Where every call has returned no call goes on. -/
theorem next_eq_none {s : QueueRun α} {l : QueueStep α} (hl : l.inside = true)
    (hputs : ∀ (i : Nat) (c : PutCall α), s.puts[i]? = some c → ∃ b, c.pc = .returned b)
    (hgets : ∀ (j : Nat) (g : GetCall α), s.gets[j]? = some g → ∃ b, g.pc = .returned b) :
    s.next l = none := by
  cases l with
  | put | get => cases hl
  | putLock i | putCopy i | putPush i | putUnlock i | putGive i =>
      cases hi : s.puts[i]? with
      | none => simp [next, hi]
      | some c =>
          obtain ⟨e, pc⟩ := c
          obtain ⟨b, rfl⟩ := hputs i _ hi
          simp [next, hi]
  | getTake j | getLock j | getPop j | getUnlock j =>
      cases hj : s.gets[j]? with
      | none => simp [next, hj]
      | some g =>
          obtain ⟨pc, out⟩ := g
          obtain ⟨b, rfl⟩ := hgets j _ hj
          simp [next, hj]

/-! ### What a step of the calls in progress leaves alone -/

/-- No call begins, a call that has returned stays as it is, and what is pushed is the event of a
call that has not returned. -/
structure Continues (s s' : QueueRun α) : Prop where
  puts : ∀ (i : Nat) (c' : PutCall α), s'.puts[i]? = some c' →
    ∃ c, s.puts[i]? = some c ∧ c'.event = c.event ∧ ∀ b, c.pc = .returned b → c' = c
  putsLength : s'.puts.length = s.puts.length
  gets : ∀ (j : Nat) (g' : GetCall α), s'.gets[j]? = some g' → g'.pc = .returned false →
    s.gets[j]? = some g'
  getsReturned : ∀ (j : Nat) (g : GetCall α) b, s.gets[j]? = some g → g.pc = .returned b →
    s'.gets[j]? = some g
  getsLength : s'.gets.length = s.gets.length
  pushed : s'.pushed = s.pushed ∨ ∃ i c, s.puts[i]? = some c ∧ (∀ b, c.pc ≠ .returned b) ∧
    s'.pushed = s.pushed ++ [(i, c.event)]
  maxSize : s'.queue.q.maxSize = s.queue.q.maxSize

theorem puts_set {puts : List (PutCall α)} {i : Nat} {a b : PutCall α} (hi : puts[i]? = some a)
    (hevent : b.event = a.event) (hpc : ∀ r, a.pc ≠ .returned r) :
    ∀ (j : Nat) (c' : PutCall α), (puts.set i b)[j]? = some c' →
      ∃ c, puts[j]? = some c ∧ c'.event = c.event ∧ ∀ r, c.pc = .returned r → c' = c :=
  Calls.forall_set hi ⟨a, hi, hevent, fun r hr => absurd hr (hpc r)⟩
    fun _ c _ hj => ⟨c, hj, rfl, fun _ _ => rfl⟩

theorem gets_set {gets : List (GetCall α)} {i : Nat} {a : GetCall α} (b : GetCall α)
    (hi : gets[i]? = some a) (hpc : ∀ r, a.pc ≠ .returned r) {j : Nat} {g : GetCall α} {r : Bool}
    (hj : gets[j]? = some g) (hg : g.pc = .returned r) : (gets.set i b)[j]? = some g := by
  have hne : i ≠ j := by
    rintro rfl
    rw [hi, Option.some.injEq] at hj
    subst hj
    exact hpc r hg
  rw [List.getElem?_set_ne hne, hj]

theorem Moves.continues {s s' : QueueRun α} {l : QueueStep α} (h : Moves s l s')
    (hex : Exclusive s) (hl : l.inside = true) : Continues s s' := by
  cases h with
  | put | get => cases hl
  | putLock hi hfree | putCopy hi | putUnlock hi | putFail hi | putGive hi =>
      exact ⟨puts_set hi rfl (by simp), List.length_set, fun _ _ hj _ => hj,
        fun _ _ _ hj _ => hj, rfl, Or.inl rfl, rfl⟩
  | refuse hi hfull =>
      exact ⟨puts_set hi rfl (by simp), List.length_set, fun _ _ hj _ => hj,
        fun _ _ _ hj _ => hj, rfl, Or.inl rfl, XLLFQ.push_maxSize _ _⟩
  | @accept i e hi hroom =>
      have hevent : s.queue.event = e := hex.copied i _ hi rfl
      exact ⟨puts_set hi rfl (by simp), List.length_set, fun _ _ hj _ => hj,
        fun _ _ _ hj _ => hj, rfl, Or.inr ⟨i, _, hi, by simp, by rw [hevent]⟩,
        XLLFQ.push_maxSize _ _⟩
  | getTake hi hpass | getLock hi | getMiss hi hpop | getUnlock hi =>
      exact ⟨fun _ c hj => ⟨c, hj, rfl, fun _ _ => rfl⟩, rfl,
        Calls.forall_set hi (by simp) fun _ _ _ hj _ => hj,
        fun _ _ _ hj hg => gets_set _ hi (by simp) hj hg, List.length_set, Or.inl rfl, rfl⟩
  | getPop hi hpop =>
      exact ⟨fun _ c hj => ⟨c, hj, rfl, fun _ _ => rfl⟩, rfl,
        Calls.forall_set hi (by simp) fun _ _ _ hj _ => hj,
        fun _ _ _ hj hg => gets_set _ hi (by simp) hj hg, List.length_set, Or.inl rfl,
        XLLFQ.pop_maxSize hpop⟩

theorem continues_next {s s' : QueueRun α} {l : QueueStep α} (hs : Inv s)
    (h : s.next l = some s') (hl : l.inside = true) : Continues s s' :=
  (moves_of_next hs.live h).continues hs.exclusive hl

/-! ### One call alone -/

/-- A `Put` that finds room, with no other step in between. -/
theorem exec_put {s : QueueRun α} (hs : Live s) (hfree : s.queue.mut1.owner = none)
    (hroom : s.queue.q.pending.length < s.queue.q.maxSize) (e : α) :
    exec next (s.callPut e) [.putLock s.puts.length, .putCopy s.puts.length,
        .putPush s.puts.length, .putUnlock s.puts.length, .putGive s.puts.length] =
      some { s with
        queue := { s.queue with
          event := e, q := (s.queue.q.push e).1, sem := s.queue.sem.lower }
        puts := s.puts ++ [⟨e, .returned true⟩]
        pushed := s.pushed ++ [(s.puts.length, e)] } := by
  have hmut : s.queue.mut1 = ⟨true, none⟩ := by
    rw [← hs.writers, ← hfree]
  simp [exec_cons, next, callPut, hs.created, XLEventQueue.writerLock, XLEventQueue.writerUnlock,
    hs.multiWriter, XLMutex.lock, XLMutex.unlock, hmut, (XLLFQ.push_room hroom e).1,
    XLSemaPhore.give, hs.sem]

/-- A `Put` that finds none. -/
theorem exec_put_full {s : QueueRun α} (hs : Live s) (hfree : s.queue.mut1.owner = none)
    (hfull : ¬ s.queue.q.pending.length < s.queue.q.maxSize) (e : α) :
    exec next (s.callPut e) [.putLock s.puts.length, .putCopy s.puts.length,
        .putPush s.puts.length, .putUnlock s.puts.length] =
      some { s with
        queue := { s.queue with event := e, q := (s.queue.q.push e).1 }
        puts := s.puts ++ [⟨e, .returned false⟩] } := by
  have hmut : s.queue.mut1 = ⟨true, none⟩ := by
    rw [← hs.writers, ← hfree]
  simp [exec_cons, next, callPut, hs.created, XLEventQueue.writerLock, XLEventQueue.writerUnlock,
    hs.multiWriter, XLMutex.lock, XLMutex.unlock, hmut, (XLLFQ.push_full hfull e).1]

/-- Some threads call `Put` with the same event, one after the other; call `i` is the first. -/
def putAll (e : α) (i n : Nat) : List (QueueStep α) :=
  (List.range' i n).flatMap fun k =>
    [.put e, .putLock k, .putCopy k, .putPush k, .putUnlock k, .putGive k]

theorem exec_putAll (e : α) {n : Nat} {s : QueueRun α} (hs : Live s)
    (hfree : s.queue.mut1.owner = none)
    (hroom : s.queue.q.pending.length + n ≤ s.queue.q.maxSize) :
    ∃ s', exec next s (putAll e s.puts.length n) = some s' ∧ Live s' ∧
      s'.queue.mut1.owner = none ∧ s'.queue.q.maxSize = s.queue.q.maxSize ∧
      s'.queue.q.pending = s.queue.q.pending ++ List.replicate n e ∧
      s'.puts = s.puts ++ List.replicate n ⟨e, .returned true⟩ := by
  induction n generalizing s with
  | zero => exact ⟨s, rfl, hs, hfree, rfl, by simp, by simp⟩
  | succ n ih =>
      have hput := exec_put hs hfree (by omega) e
      have hpush := XLLFQ.push_room (q := s.queue.q) (by omega) e
      obtain ⟨s', hs', hlive, hfree', hmax, hpending, hputs⟩ := ih
        (s := { s with
          queue := { s.queue with
            event := e, q := (s.queue.q.push e).1, sem := s.queue.sem.lower }
          puts := s.puts ++ [⟨e, .returned true⟩]
          pushed := s.pushed ++ [(s.puts.length, e)] })
        ⟨hs.created, hs.sem, hs.writers, hs.multiWriter⟩ hfree (by
          simp only [hpush.2, List.length_append, List.length_singleton, XLLFQ.push_maxSize]
          omega)
      refine ⟨s', ?_, hlive, hfree', hmax.trans (XLLFQ.push_maxSize _ _), ?_, ?_⟩
      · have hsteps : putAll e s.puts.length (n + 1) =
            .put e :: ([.putLock s.puts.length, .putCopy s.puts.length, .putPush s.puts.length,
              .putUnlock s.puts.length, .putGive s.puts.length] ++
              putAll e (s.puts.length + 1) n) := by
          rw [putAll, List.range'_succ]
          rfl
        rw [List.length_append] at hs'
        rw [hsteps]
        exact exec_cons_eq_some.mpr ⟨_, rfl, exec_append_some hput hs'⟩
      · rw [hpending]
        simp [hpush.2, List.replicate_succ]
      · rw [hputs]
        simp [List.replicate_succ]

/-- A `Get` that finds a permit and an event. -/
theorem exec_get {s : QueueRun α} (hs : Live s) (hfree : s.queue.mut0.owner = none)
    (hpass : s.queue.sem.Passes) {q : XLLFQ α} {e : α} (hpop : s.queue.q.pop = some (q, e)) :
    exec next s.callGet [.getTake s.gets.length, .getLock s.gets.length, .getPop s.gets.length,
        .getUnlock s.gets.length] =
      some { s with
        queue := { s.queue with q := q, sem := s.queue.sem.raise }
        gets := s.gets ++ [⟨.returned true, some e⟩]
        popped := s.popped ++ [(s.gets.length, some e)] } := by
  by_cases hread : s.queue.properties &&& XLEventQueue.multiReader = 0
  · simp [exec_cons, next, callGet, hs.created, XLSemaPhore.take, hs.sem, hpass, hpop,
      XLEventQueue.readerLock, XLEventQueue.readerUnlock, hread]
  · cases hcreated : s.queue.mut0.created with
    | false =>
        simp [exec_cons, next, callGet, hs.created, XLSemaPhore.take, hs.sem, hpass, hpop,
          XLEventQueue.readerLock, XLEventQueue.readerUnlock, hread, XLMutex.lock, XLMutex.unlock,
          hcreated]
    | true =>
        have hmut : s.queue.mut0 = ⟨true, none⟩ := by rw [← hcreated, ← hfree]
        simp [exec_cons, next, callGet, hs.created, XLSemaPhore.take, hs.sem, hpass, hpop,
          XLEventQueue.readerLock, XLEventQueue.readerUnlock, hread, XLMutex.lock, XLMutex.unlock,
          hmut]

/-! ### The queue is a bounded buffer

What others need of the queue is that it is a bounded buffer: seen from outside a step offers an
event, polls one, or does nothing.
-/

/-- A step leaves the pending events alone, appends one where there is room, or takes the oldest. -/
theorem fifo_step {s s' : QueueRun α} {l : QueueStep α} (hs : Inv s) (h : s.next l = some s') :
    s'.queue.q.toFifo = s.queue.q.toFifo ∨
      ∃ op, Fifo.next s.queue.q.toFifo op = some s'.queue.q.toFifo := by
  cases moves_of_next hs.live h with
  | put | putLock | putCopy | putUnlock | putFail | putGive | get | getTake | getLock | getUnlock =>
      exact Or.inl rfl
  | accept hi hroom | refuse hi hfull =>
      refine Or.inr ⟨.offer s.queue.event, ?_⟩
      rw [Fifo.next, ← XLLFQ.push_toFifo]
  | getPop hi hpop =>
      refine Or.inr ⟨.poll, ?_⟩
      rw [Fifo.next, ← XLLFQ.pop_toFifo, hpop]
      rfl
  | getMiss hi hpop =>
      exact absurd (XLLFQ.pop_eq_none.mp hpop) (hs.counted.pending_ne_nil hi rfl)

/-- Every run of `Put` and `Get` calls is a history of that buffer. -/
theorem fifo_exec {s s' : QueueRun α} {ls : List (QueueStep α)} (hs : Inv s)
    (h : exec next s ls = some s') :
    ∃ ops, exec Fifo.next s.queue.q.toFifo ops = some s'.queue.q.toFifo := by
  have hstep : ∀ (u : QueueRun α) (f : Fifo α) (l : QueueStep α) (u' : QueueRun α),
      (Inv u ∧ u.queue.q.toFifo = f) → next u l = some u' →
      ∃ ks f', exec Fifo.next f ks = some f' ∧ Inv u' ∧ u'.queue.q.toFifo = f' := by
    rintro u f l u' ⟨hu, rfl⟩ hl
    rcases fifo_step hu hl with hsame | ⟨op, hop⟩
    · exact ⟨[], _, rfl, inv_step hu hl, hsame⟩
    · exact ⟨[op], _, exec_single hop, inv_step hu hl, rfl⟩
  obtain ⟨ops, f, hops, -, rfl⟩ := exec_simulation hstep ⟨hs, rfl⟩ h
  exact ⟨ops, hops⟩

/-! ### Exactly once, in order -/

/-- The event `a` of `Put` call `i` was popped by `Get` call `j`: the two have the same place in
the two logs. -/
def ReturnedTo (s : QueueRun α) (i : Nat) (a : α) (j : Nat) : Prop :=
  ∃ k : Nat, s.pushed[k]? = some (i, a) ∧ s.popped[k]? = some (j, some a)

/-- Every event is popped once, in the order of the pushes, and every permit finds one. -/
structure ExactlyOnce (s : QueueRun α) : Prop where
  count : (s.queue.q.pending.length : Int) = s.queue.sem.permits.available +
    s.gets.countP (fun g => g.pc.pastTake) + s.puts.countP (fun c => c.pc.beforeGive)
  /-- `pop` finds an event. -/
  nonempty : ∀ (j : Nat) (g : GetCall α), s.gets[j]? = some g → g.pc = .locked →
    s.queue.q.pending ≠ []
  order : s.popped.map Prod.snd = (s.pushed.take s.popped.length).map fun r => some r.2
  /-- What `Put` returns says whether its event was pushed, and it is pushed once. -/
  putTrue : ∀ (i : Nat) (c : PutCall α), s.puts[i]? = some c → c.pc = .returned true →
    (i, c.event) ∈ s.pushed
  putFalse : ∀ (i : Nat) (c : PutCall α), s.puts[i]? = some c → c.pc = .returned false →
    ∀ a, (i, a) ∉ s.pushed
  pushedOnce : (s.pushed.map Prod.fst).Nodup
  /-- Every `Get` returns the event of one `Put`, and no two return that of the same. -/
  getTrue : ∀ (j : Nat) (g : GetCall α), s.gets[j]? = some g → g.pc = .returned true →
    ∃ i a, g.out = some a ∧ s.ReturnedTo i a j
  once : ∀ i a b j j', s.ReturnedTo i a j → s.ReturnedTo i b j' → j = j'

theorem Inv.exactlyOnce {s : QueueRun α} (hs : Inv s) : ExactlyOnce s := by
  refine ⟨hs.counted.count, fun j g hj hg => hs.counted.pending_ne_nil hj (by rw [hg]; rfl),
    hs.ordered.prefix, fun i c hi hc => ?_, fun i c hi hc a hmem => ?_, hs.ordered.puts.once,
    fun j g hj hg => ?_, ?_⟩
  · exact (hs.ordered.puts.mem_iff i c hi c.event).mpr (by simp [putEntry, hc, PutPc.accepted])
  · have := (hs.ordered.puts.mem_iff i c hi a).mp hmem
    simp [putEntry, hc, PutPc.accepted] at this
  · have hmem := (hs.ordered.gets.mem_iff j g hj g.out).mpr (by simp [getEntry, hg, GetPc.done])
    obtain ⟨k, hk⟩ := List.mem_iff_getElem?.mp hmem
    obtain ⟨i, a, hi, ho⟩ := hs.ordered.source hk
    exact ⟨i, a, ho, k, hi, by rw [hk, show g.out = some a from ho]⟩
  · rintro i a b j j' ⟨k, hi, hj⟩ ⟨k', hi', hj'⟩
    obtain rfl := place_unique hs.ordered.puts.once hi hi'
    rw [hj, Option.some.injEq, Prod.mk.injEq] at hj'
    exact hj'.1

/--
Any number of `Put` and `Get` calls on a new queue whose writers take turns, in any interleaving:
events pass exactly once and in order, and a `Put` that returned false has left no trace.
-/
theorem events_pass_once [Inhabited α] (maxSize : Int) {properties : Nat}
    (hp : properties &&& XLEventQueue.multiWriter ≠ 0) {ls : List (QueueStep α)} {s : QueueRun α}
    (hrun : exec next (start maxSize properties) ls = some s) :
    s.ExactlyOnce ∧
      ∀ ls₁ l ls₂ u v i c, ls = ls₁ ++ l :: ls₂ →
        exec next (start maxSize properties) ls₁ = some u → u.next l = some v →
        l.ofPut = some i → s.puts[i]? = some c → c.pc = .returned false →
        v.queue.q.pending = u.queue.q.pending ∧ v.queue.sem = u.queue.sem ∧
          v.pushed = u.pushed ∧ v.popped = u.popped := by
  have hstart := inv_start (α := α) maxSize hp
  refine ⟨(inv_exec hstart hrun).exactlyOnce, ?_⟩
  rintro ls₁ l ls₂ u v i c rfl hbefore hstep hl hi hc
  obtain ⟨u', hu', hrest⟩ := Option.bind_eq_some_iff.mp ((exec_append _ _ _ _).symm.trans hrun)
  cases hbefore.symm.trans hu'
  obtain ⟨v', hv', hafter⟩ := exec_cons_eq_some.mp hrest
  cases hstep.symm.trans hv'
  exact refused_untouched hstart hbefore hstep hafter hl hi hc

/-- A queue for one event, offered two: the second `Put` overlaps the `Get` of the first event. -/
def overlapping : List (QueueStep Nat) :=
  [.put 7, .putLock 0, .putCopy 0, .putPush 0, .putUnlock 0, .put 8, .get, .putLock 1, .putCopy 1,
    .putPush 1, .putGive 0, .getTake 0, .getLock 0, .putUnlock 1, .getPop 0, .getUnlock 0]

theorem events_pass_once_overlapping :
    ∃ s : QueueRun Nat, exec next (start 1 10) overlapping = some s ∧ s.ExactlyOnce := by
  obtain ⟨s, hs⟩ := Option.isSome_iff_exists.mp
    (show (exec next (start 1 10 : QueueRun Nat) overlapping).isSome = true by decide)
  exact ⟨s, hs, (events_pass_once 1 (by decide) hs).1⟩

end QueueRun

end ServClient
