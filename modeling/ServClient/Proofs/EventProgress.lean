/-
An event thread and its queue in their first life, and what brings them to rest.

`Create` has found the queue empty, so every pending event has its permit, or belongs to a call
in progress (`Settled`).  Then a call that has begun can go on, unless it is a `Put` that waits
for the lock of another, or a `Get` with nothing pending; and so can the loop of a thread that
is not stopped (`Lively`).  The load is what there is to do: each step on the way of an event
through the queue and to its handler makes it less.
-/
import ServClient.Proofs.EventLoop
import ServClient.Proofs.PostedEvents

namespace ServClient

namespace QueueRun

variable {α : Type} {p : α → Bool} {q q' : QueueRun α} {l : QueueStep α}

/-! ### The first life

A queue of one reader that begins empty keeps permits and events together.  This is the account of
the queue for one life of a thread; the next sections add the thread.
-/

/-- A queue that was empty when it was created, for one reader. -/
structure Settled (q : QueueRun α) : Prop where
  sized : q.Sized
  single : q.queue.created = true → q.queue.properties &&& XLEventQueue.multiReader = 0
  counted : q.surplus = 0
  empty : q.queue.created = false → q.queue.q.pending = []
  /-- Who has the lock is in its critical section. -/
  held : ∀ i, q.queue.mut1.owner = some i → ∃ c, q.puts[i]? = some c ∧ c.pc.holds = true

theorem settled_ofQueue [Inhabited α] :
    Settled (ofQueue (XLEventQueue.new eventQueueConfigMaxSize) : QueueRun α) where
  sized := ⟨rfl, (fun hc => by cases hc), Nat.zero_le 256⟩
  single := fun hc => by cases hc
  counted := rfl
  empty := fun _ => rfl
  held := fun i hi => by cases hi

theorem Moves.sized (h : Moves q l q') (hlive : Live q) (hs : q.Sized) : q'.Sized := by
  have hbound := hs.bound hlive.created
  have hpending := h.pending_le (Nat.le_of_eq hbound) hs.pending
  cases h with
  | put | putLock | putCopy | putUnlock | putFail | putGive | get | getTake | getLock | getMiss
  | getUnlock => exact ⟨hs.config, hs.bound, hs.pending⟩
  | accept | refuse => exact ⟨hs.config, fun _ => (XLLFQ.push_maxSize _ _).trans hbound, hpending⟩
  | getPop hi hpop =>
      exact ⟨hs.config, fun _ => (XLLFQ.pop_maxSize hpop).trans hbound, hpending⟩

/-- Whoever gets the lock enters its critical section, and gives it back where it leaves. -/
theorem Moves.held (h : Moves q l q')
    (hs : ∀ i, q.queue.mut1.owner = some i → ∃ c, q.puts[i]? = some c ∧ c.pc.holds = true) :
    ∀ i, q'.queue.mut1.owner = some i → ∃ c, q'.puts[i]? = some c ∧ c.pc.holds = true := by
  cases h with
  | put e => exact fun i hi => Calls.exists_concat _ (hs i hi)
  | putLock hi hfree =>
      rintro j hj
      cases hj
      exact ⟨_, List.getElem?_set_self (Calls.lt_of_getElem?_eq_some hi), rfl⟩
  | putCopy hi | accept hi | refuse hi =>
      exact fun j hj => Calls.exists_set hi (fun _ => rfl) (hs j hj)
  | putUnlock hi | putFail hi => exact fun j hj => by cases hj
  | @putGive i e hi => exact fun j hj => Calls.exists_set hi (fun hc => by cases hc) (hs j hj)
  | get | getTake | getLock | getPop | getMiss | getUnlock => exact hs

theorem Settled.moves (hs : Settled q) (h : Moves q l q') (hlive : Live q)
    (hbalance : q'.surplus = q.surplus) : Settled q' where
  sized := h.sized hlive hs.sized
  single := fun _ => by
    have hsingle := hs.single hlive.created
    cases h <;> exact hsingle
  counted := hbalance.trans hs.counted
  empty := fun hc => by
    rw [(h.live hlive).created] at hc
    cases hc
  held := h.held hs.held

/-- A call of `Put` begins, or a call goes on. -/
theorem Settled.next (hs : Settled q) (hk : Kept q) (hl : l ≠ .get) (hq : q.next l = some q') :
    Settled q' := by
  rcases hk.phase with ⟨hlive, hstock⟩ | hdown
  · have hbalance := (acts_of_next hq).balance (fun _ => hlive.sem) hstock
    exact hs.moves (moves_of_next hlive hq) hlive hbalance.2
  · obtain ⟨e, rfl⟩ := Kept.next_down hdown hl hq
    have hsurplus : surplus { q with puts := q.puts ++ [⟨e, .returned false⟩] } = q.surplus := by
      simp [surplus, PutPc.beforeGive]
    exact ⟨⟨hs.sized.config, hs.sized.bound, hs.sized.pending⟩, hs.single,
      hsurplus.trans hs.counted, hs.empty, fun i hi => Calls.exists_concat _ (hs.held i hi)⟩

theorem Settled.callGet (hs : Settled q) (hk : Kept q) (hc : q.queue.created = true) :
    Settled q.callGet := by
  obtain ⟨hlive, hstock⟩ := hk.live hc
  have hstep : q.next .get = some q.callGet := rfl
  have hbalance := (acts_of_next hstep).balance (fun _ => hlive.sem) hstock
  exact hs.moves (moves_of_next hlive hstep) hlive hbalance.2

theorem Settled.created (hs : Settled q) (hdown : Down q) :
    Settled (q.created eventQueueProperties) := by
  have hsurplus := created_surplus hdown eventQueueProperties
  rw [hs.empty hdown.created] at hsurplus
  have hcreate := create_down hdown eventQueueProperties
  refine ⟨?_, fun _ => ?_, hsurplus, fun hc => ?_, ?_⟩
  · simp only [QueueRun.created, hcreate]
    refine ⟨hs.sized.config, fun _ => ?_, hs.sized.pending⟩
    rw [XLLFQ.setMaxSize, hs.sized.config]
    rfl
  · simp only [QueueRun.created, hcreate]
    decide
  · simp only [QueueRun.created, hcreate] at hc
    cases hc
  · simp only [QueueRun.created, hcreate]
    exact hs.held

/-! ### What there is to do

A measure on the calls and on the pending events.  A call that can go on lowers it, and where events
find room some call can go on until all have returned or wait for an event.
-/

end QueueRun

/-- The steps a call of `Put` has before it, and those its event has. -/
def PutPc.load : PutPc → Nat
  | entered => 26
  | locked => 25
  | copied => 24
  | pushed | refused => 2
  | unlocked => 1
  | returned _ => 0

/-- The same for the loop's call of `Get`, and for the event it has popped. -/
def GetPc.load : GetPc → Nat
  | popped => 12
  | returned _ => 11
  | entered => 3
  | taken => 2
  | locked => 1

namespace QueueRun

variable {α : Type} {p : α → Bool} {q q' : QueueRun α} {l : QueueStep α}

/-- The calls of `Put` and the pending events. -/
def load (q : QueueRun α) : Nat :=
  (q.puts.map fun c => c.pc.load).sum + 20 * q.queue.q.pending.length

theorem load_put (q : QueueRun α) (e : α) (pc : PutPc) :
    load { q with puts := q.puts ++ [⟨e, pc⟩] } = q.load + pc.load := by
  simp only [load, List.map_append, List.map_singleton, List.sum_append, List.sum_singleton]
  omega

/-- One call of `Put` goes on. -/
theorem load_lt {i : Nat} {c c' : PutCall α} (hi : q.puts[i]? = some c)
    (hputs : q'.puts = q.puts.set i c')
    (hless : c'.pc.load + 20 * q'.queue.q.pending.length <
      c.pc.load + 20 * q.queue.q.pending.length) : q'.load < q.load := by
  have hsum := Calls.sum_set c' (fun c => c.pc.load) hi
  rw [load, load, hputs]
  omega

/-- A `Put` goes on, where the lock is free and an event that needs room has it. -/
theorem put_goesOn (p : α → Bool) (hlive : Live q) {i : Nat} {c : PutCall α}
    (hi : q.puts[i]? = some c) (hpc : ∀ b, c.pc ≠ .returned b)
    (hfree : c.pc = .entered → q.queue.mut1.owner = none)
    (hroom : c.pc = .copied → q.HasRoomFor p (.putPush i)) :
    ∃ l q', l.inside = true ∧ q.next l = some q' ∧ q.HasRoomFor p l ∧ q'.gets = q.gets ∧
      q'.load < q.load := by
  obtain ⟨e, pc⟩ := c
  have hunlock := writerUnlock_eq hlive
  cases pc with
  | entered =>
      have hlock : q.queue.writerLock i =
          some { q.queue with mut1 := { q.queue.mut1 with owner := some i } } := by
        rw [XLEventQueue.writerLock, if_pos hlive.multiWriter, XLMutex.lock, if_pos hlive.writers,
          if_pos (hfree rfl)]
        rfl
      have hnext : q.next (.putLock i) = some { q with
          queue := { q.queue with mut1 := { q.queue.mut1 with owner := some i } }
          puts := q.puts.set i ⟨e, .locked⟩ } := by
        simp only [next, hi, hlock, Option.map_some]
      exact ⟨_, _, rfl, hnext, trivial, rfl, load_lt hi rfl (by simp [PutPc.load])⟩
  | locked =>
      have hnext : q.next (.putCopy i) = some { q with
          queue := { q.queue with event := e }, puts := q.puts.set i ⟨e, .copied⟩ } := by
        simp only [next, hi]
      exact ⟨_, _, rfl, hnext, trivial, rfl, load_lt hi rfl (by simp [PutPc.load])⟩
  | copied =>
      by_cases hfits : q.queue.q.pending.length < q.queue.q.maxSize
      · have hpush := XLLFQ.push_room hfits q.queue.event
        have hnext : q.next (.putPush i) = some { q with
            queue := { q.queue with q := (q.queue.q.push q.queue.event).1 }
            puts := q.puts.set i ⟨e, .pushed⟩
            pushed := q.pushed ++ [(i, q.queue.event)] } := by
          simp only [next, hi, hpush.1, if_true]
        refine ⟨_, _, rfl, hnext, hroom rfl, rfl, load_lt hi rfl ?_⟩
        simp only [PutPc.load, hpush.2, List.length_append, List.length_singleton]
        omega
      · have hpush := XLLFQ.push_full hfits q.queue.event
        have hnext : q.next (.putPush i) = some { q with
            queue := { q.queue with q := (q.queue.q.push q.queue.event).1 }
            puts := q.puts.set i ⟨e, .refused⟩ } := by
          simp only [next, hi, hpush.1, Bool.false_eq_true, if_false]
        refine ⟨_, _, rfl, hnext, hroom rfl, rfl, load_lt hi rfl ?_⟩
        simp only [PutPc.load, hpush.2]
        omega
  | pushed =>
      have hnext : q.next (.putUnlock i) = some { q with
          queue := { q.queue with mut1 := { q.queue.mut1 with owner := none } }
          puts := q.puts.set i ⟨e, .unlocked⟩ } := by
        simp only [next, hi, hunlock]
      exact ⟨_, _, rfl, hnext, trivial, rfl, load_lt hi rfl (by simp [PutPc.load])⟩
  | refused =>
      have hnext : q.next (.putUnlock i) = some { q with
          queue := { q.queue with mut1 := { q.queue.mut1 with owner := none } }
          puts := q.puts.set i ⟨e, .returned false⟩ } := by
        simp only [next, hi, hunlock]
      exact ⟨_, _, rfl, hnext, trivial, rfl, load_lt hi rfl (by simp [PutPc.load])⟩
  | unlocked =>
      have hnext : q.next (.putGive i) = some { q with
          queue := { q.queue with sem := q.queue.sem.give }
          puts := q.puts.set i ⟨e, .returned true⟩ } := by
        simp only [next, hi]
      exact ⟨_, _, rfl, hnext, trivial, rfl, load_lt hi rfl (by simp [PutPc.load])⟩
  | returned b => exact absurd rfl (hpc b)

/-- A `Get` goes on, where there is a permit. -/
theorem get_goesOn (p : α → Bool) (hs : Settled q) (hlive : Live q) (hstock : Stocked q) {j : Nat}
    {g : GetCall α} (hj : q.gets[j]? = some g) (hpc : ∀ b, g.pc ≠ .returned b)
    (hpass : g.pc = .entered → q.queue.sem.Passes) :
    ∃ l q' g', l.inside = true ∧ q.next l = some q' ∧ q.HasRoomFor p l ∧
      q'.gets[j]? = some g' ∧ q'.load + g'.pc.load < q.load + g.pc.load := by
  obtain ⟨pc, out⟩ := g
  have hset (g' : GetCall α) : (q.gets.set j g')[j]? = some g' :=
    List.getElem?_set_self (Calls.lt_of_getElem?_eq_some hj)
  have hsingle := hs.single hlive.created
  have hlock : q.queue.readerLock j = some q.queue := by
    rw [XLEventQueue.readerLock, if_neg (not_not_intro hsingle)]
  have hunlock : q.queue.readerUnlock = q.queue := by
    rw [XLEventQueue.readerUnlock, if_neg (not_not_intro hsingle)]
  cases pc with
  | entered =>
      have htake : q.queue.sem.take = some q.queue.sem.raise := by
        rw [XLSemaPhore.take, if_pos hlive.sem, if_pos (hpass rfl)]
      have hnext : q.next (.getTake j) = some { q with
          queue := { q.queue with sem := q.queue.sem.raise }
          gets := q.gets.set j ⟨.taken, out⟩ } := by
        simp only [next, hj, htake, Option.map_some]
      exact ⟨_, _, _, rfl, hnext, trivial, hset _, Nat.lt_succ_self _⟩
  | taken =>
      have hnext : q.next (.getLock j) = some { q with gets := q.gets.set j ⟨.locked, out⟩ } := by
        simp only [next, hj, hlock, Option.map_some]
      exact ⟨_, _, _, rfl, hnext, trivial, hset _, Nat.lt_succ_self _⟩
  | locked =>
      cases hpop : q.queue.q.pop with
      | none => exact absurd (XLLFQ.pop_eq_none.mp hpop) (hstock.pending_ne_nil hj rfl)
      | some r =>
          obtain ⟨queue, e⟩ := r
          have hnext : q.next (.getPop j) = some { q with
              queue := { q.queue with q := queue }
              gets := q.gets.set j ⟨.popped, some e⟩
              popped := q.popped ++ [(j, some e)] } := by
            simp only [next, hj, hpop]
          refine ⟨_, _, _, rfl, hnext, trivial, hset _, ?_⟩
          simp only [load, XLLFQ.pop_eq_some hpop, GetPc.load, List.length_cons]
          omega
  | popped =>
      have hnext : q.next (.getUnlock j) =
          some { q with gets := q.gets.set j ⟨.returned true, out⟩ } := by
        simp only [next, hj, hunlock]
      exact ⟨_, _, _, rfl, hnext, trivial, hset _, Nat.lt_succ_self _⟩
  | returned b => exact absurd rfl (hpc b)

/-- Some call of `Put` goes on while one has not returned, where events that need room have it. -/
theorem some_put_goesOn (p : α → Bool) (hs : Settled q) (hlive : Live q)
    (hroom : ∀ k, q.HasRoomFor p (.putPush k)) {i : Nat} {c : PutCall α}
    (hi : q.puts[i]? = some c) (hpc : ∀ b, c.pc ≠ .returned b) :
    ∃ l q', l.inside = true ∧ q.next l = some q' ∧ q.HasRoomFor p l ∧ q'.gets = q.gets ∧
      q'.load < q.load := by
  cases howner : q.queue.mut1.owner with
  | none => exact put_goesOn p hlive hi hpc (fun _ => howner) fun _ => hroom i
  | some k =>
      obtain ⟨d, hk, hd⟩ := hs.held k howner
      refine put_goesOn p hlive hk ?_ ?_ fun _ => hroom k
      · intro b hb
        rw [hb] at hd
        cases hd
      · intro hb
        rw [hb] at hd
        cases hd

/-- A `Get` waits in vain only where nothing is pending, or where some call of `Put` is about to
give. -/
theorem pending_of_blocked (hs : Settled q) (hstock : Stocked q)
    (hblocked : ¬ q.queue.sem.Passes)
    (hgets : ∀ (j : Nat) (g : GetCall α), q.gets[j]? = some g → g.pc.pastTake = false)
    (hputs : ∀ (i : Nat) (c : PutCall α), q.puts[i]? = some c → c.pc.beforeGive = false) :
    q.queue.q.pending = [] := by
  have hsurplus := surplus_of_quiet hputs hgets
  have hnonneg := hstock.nonneg
  rw [XLSemaPhore.passes_iff] at hblocked
  rw [hs.counted] at hsurplus
  exact List.length_eq_zero_iff.mp (by omega)

end QueueRun

/-! ### The thread -/

namespace XLEventThread

variable {σ : Type} {tOnEvent : σ → XLThreadEvent → σ} {s s' : XLEventThread σ}
  {l : EventThreadStep}

/-- A thread that has not been stopped, from before `Create`. -/
structure Lively (s : XLEventThread σ) : Prop where
  inv : s.Inv
  up : s.Up
  settled : s.queue.Settled
  stays : s.exit = false ∧ s.loop ≠ .leaving ∧ s.loop ≠ .ended
  unborn : s.owner = .idle → s.created = false → s.sync1.created = false
  sync1 : s.loop = .started ∨ s.loop = .taking → s.sync1.created = true ∧ s.sync1.Passes

theorem lively_new (self : σ) : Lively (new self) where
  inv := inv_new self
  up := by simp [new, Up]
  settled := QueueRun.settled_ofQueue
  stays := by simp [new]
  unborn := fun _ _ => rfl
  sync1 := by simp [new]

theorem Lively.setSelf (h : Lively s) (self : σ) : Lively { s with self := self } where
  inv := h.inv.setSelf self
  up := h.up
  settled := h.settled
  stays := h.stays
  unborn := h.unborn
  sync1 := h.sync1

/-- Some thread calls `Put`. -/
theorem Lively.put (h : Lively s) (e : XLThreadEvent) :
    Lively { s with queue := s.queue.callPut e } := by
  have hstep : s.next (fun self _ => self) (.queue (.put e)) =
      some { s with queue := s.queue.callPut e } := rfl
  exact ⟨inv_step h.inv hstep, h.up, h.settled.next (l := .put e) h.inv.kept (by simp) rfl, h.stays,
    h.unborn, h.sync1⟩

/-- The loop goes on, has not looked at `m_handle` or at `mCreated` too early, and handles no
`Exit`. -/
theorem Lively.next (h : Lively s) (hstep : s.next tOnEvent l = some s')
    (hkind : l = .create ∨ l = .owner ∨ l = .loop ∨ ∃ ql, l = .queue ql ∧ ql.inside = true)
    (hlate : l = .loop → (s.loop = .synced → s.handle = true) ∧
      (s.loop = .running → s.created = true))
    (hevent : l = .loop → s.loop = .handling → s.event.iType ≠ eventThreadEventTypeExit) :
    Lively s' := by
  have hinv := inv_step h.inv hstep
  have howned := h.inv.owned
  unfold Owned at howned
  cases moves_of_next hstep with
  | destroy | destroyBare | destroyNone | stop | stopNone => simp at hkind
  | create ho hc =>
      have hsync : s.sync1.create 0 1 = { semCount := 0, maxCount := 1, created := true } := by
        simp [XLSemaPhore.create, h.unborn ho hc]
      refine ⟨hinv, by simp [Up], h.settled, ⟨h.stays.1, by simp, by simp⟩,
        (fun hidle => by cases hidle), fun _ => ?_⟩
      dsimp only
      rw [hsync]
      decide
  | createTwice => exact h
  | spawned ho =>
      exact ⟨hinv, by simp [Up], h.settled, h.stays, (fun hidle => by cases hidle), h.sync1⟩
  | handled ho =>
      refine ⟨hinv, by simp [Up], h.settled, h.stays, (fun hidle => by cases hidle), fun hl => ?_⟩
      obtain ⟨hc, hpass⟩ := h.sync1 hl
      dsimp only
      rw [XLSemaPhore.give, if_pos hc]
      refine ⟨hc, ?_⟩
      simp only [XLSemaPhore.Passes, XLSemaPhore.lower] at hpass ⊢
      omega
  | given ho hq =>
      rw [ho] at howned
      exact ⟨hinv, by simp [Up], h.settled.created (h.inv.kept.down howned.2.2.1), h.stays,
        (fun hidle => by cases hidle), h.sync1⟩
  | undo ho hq =>
      rw [ho] at howned
      rw [QueueRun.create_down (h.inv.kept.down howned.2.2.1)] at hq
      cases hq
  | queued ho =>
      exact ⟨hinv, by simp [Up], h.settled, h.stays, (fun _ hc => by cases hc), h.sync1⟩
  | taking ho => exact absurd ho (h.up.1 _).1
  | joining ho => exact absurd ho (h.up.1 _).2
  | joined ho => exact absurd ho h.up.2
  | tested hl =>
      exact ⟨hinv, h.up, h.settled, ⟨h.stays.1, by simp, by simp⟩, h.unborn,
        fun _ => h.sync1 (Or.inl hl)⟩
  | ungated hl hs =>
      rw [(h.sync1 (Or.inl hl)).1] at hs
      cases hs
  | taken hl =>
      refine ⟨hinv, h.up, h.settled, ⟨h.stays.1, by simp, by simp⟩, fun ho hc => ?_, by simp⟩
      -- There is no thread yet where the owner is idle.
      have hidle : s.owner = .idle := ho
      have hnone : s.created = false := hc
      rw [hidle, hnone] at howned
      have hgone : s.loop.gone = true := howned.2
      rw [hl] at hgone
      cases hgone
  | synced hl =>
      have hhandle := (hlate rfl).1 hl
      refine ⟨hinv, h.up, h.settled, ⟨h.stays.1, ?_, ?_⟩, h.unborn, ?_⟩ <;> simp [hhandle]
  | enter hl hc =>
      exact ⟨hinv, h.up, h.settled, ⟨h.stays.1, by simp, by simp⟩, h.unborn, by simp⟩
  | early hl hc =>
      rw [(hlate rfl).2 hl] at hc
      cases hc
  | stopped hl he =>
      rw [h.stays.1] at he
      cases he
  | get hl he =>
      have hcreated := h.inv.owned.live (by rw [hl]; rfl)
      exact ⟨hinv, h.up, h.settled.callGet h.inv.kept hcreated, ⟨h.stays.1, by simp, by simp⟩,
        h.unborn, by simp⟩
  | got hl hj =>
      exact ⟨hinv, h.up, h.settled, ⟨h.stays.1, by simp, by simp⟩, h.unborn, by simp⟩
  | gotNone hl hj =>
      obtain ⟨g, hown, hne⟩ := h.inv.getting.own _ hl
      cases hown.symm.trans hj
      exact absurd rfl hne
  | exitEvent hl he => exact absurd he (hevent rfl hl)
  | dispatch hl he =>
      exact ⟨hinv, h.up, h.settled, ⟨h.stays.1, by simp, by simp⟩, h.unborn, by simp⟩
  | leave hl => exact absurd hl h.stays.2.1
  | @queue ql q hget hq =>
      exact ⟨hinv, h.up, h.settled.next h.inv.kept hget hq, h.stays, h.unborn, h.sync1⟩

/-- A thread that nobody has stopped, nor is about to. -/
structure FirstLife (s : XLEventThread σ) : Prop where
  inv : s.Inv
  up : s.Up
  settled : s.queue.Settled
  stays : s.exit = false ∧ s.loop ≠ .leaving ∧ s.loop ≠ .ended
  noExit : ∀ (i : Nat) (c : PutCall XLThreadEvent), s.queue.puts[i]? = some c →
    c.event.iType ≠ eventThreadEventTypeExit
  unborn : s.owner = .idle → s.created = false → s.sync1.created = false
  sync1 : s.loop = .started ∨ s.loop = .taking → s.sync1.created = true ∧ s.sync1.Passes

theorem FirstLife.lively (h : FirstLife s) : Lively s :=
  ⟨h.inv, h.up, h.settled, h.stays, h.unborn, h.sync1⟩

theorem Lively.firstLife (h : Lively s)
    (hno : ∀ (i : Nat) (c : PutCall XLThreadEvent), s.queue.puts[i]? = some c →
      c.event.iType ≠ eventThreadEventTypeExit) : FirstLife s :=
  ⟨h.inv, h.up, h.settled, h.stays, hno, h.unborn, h.sync1⟩

theorem firstLife_new (self : σ) : FirstLife (new self) :=
  (lively_new self).firstLife (by simp [new, QueueRun.ofQueue])

theorem FirstLife.setSelf (h : FirstLife s) (self : σ) : FirstLife { s with self := self } :=
  (h.lively.setSelf self).firstLife h.noExit

/-- Some thread calls `Put`. -/
theorem FirstLife.put (h : FirstLife s) {e : XLThreadEvent}
    (he : e.iType ≠ eventThreadEventTypeExit) :
    FirstLife { s with queue := s.queue.callPut e } :=
  (h.lively.put e).firstLife (Calls.forall_concat he h.noExit)

/-- The event in hand is no `Exit`. -/
theorem FirstLife.event_ne (h : FirstLife s) (hl : s.loop = .handling) :
    s.event.iType ≠ eventThreadEventTypeExit := by
  obtain ⟨i, hpushed⟩ := h.inv.event_pushed hl
  obtain ⟨c, hi, hc⟩ := h.inv.put_of_pushed (List.mem_of_getElem? hpushed)
  rw [← hc]
  exact h.noExit i c hi

/-- The loop goes on, and has not looked at `m_handle` or at `mCreated` too early. -/
theorem FirstLife.next (h : FirstLife s) (hstep : s.next tOnEvent l = some s')
    (hkind : l = .create ∨ l = .owner ∨ l = .loop ∨ ∃ ql, l = .queue ql ∧ ql.inside = true)
    (hlate : l = .loop → (s.loop = .synced → s.handle = true) ∧
      (s.loop = .running → s.created = true)) : FirstLife s' := by
  have hlively := h.lively.next hstep hkind hlate fun _ => h.event_ne
  refine hlively.firstLife fun i c' hi => ?_
  obtain ⟨c, hc, hevent⟩ := (flows_inside h.inv hstep hkind).puts i c' hi
  rw [hevent]
  exact h.noExit i c hc

/-- The steps of the loop are not those of the owner. -/
theorem loop_keeps (h : s.next tOnEvent .loop = some s') :
    s'.owner = s.owner ∧ s'.created = s.created ∧ s'.loop ≠ .off := by
  cases moves_of_next h with
  | tested | ungated | taken | enter | early | stopped | get | got | gotNone | exitEvent | dispatch
  | leave =>
      exact ⟨rfl, rfl, by simp⟩
  | synced =>
      refine ⟨rfl, rfl, ?_⟩
      dsimp only
      split <;> simp

/-- A call of `Put` or `Get` that goes on is a step of the thread. -/
theorem next_queue {ql : QueueStep XLThreadEvent} {q : QueueRun XLThreadEvent}
    (hinside : ql.inside = true) (hq : s.queue.next ql = some q) :
    s.next tOnEvent (.queue ql) = some { s with queue := q } := by
  cases ql with
  | put | get => cases hinside
  | putLock | putCopy | putPush | putUnlock | putGive | getTake | getLock | getPop | getUnlock =>
      simp [next, hq]

/-! ### What the loop has to do

The loop and the queue together: while there is something to handle a step is there to be taken, and
every step that is no new call brings the loop closer to waiting in `Get`.
-/

end XLEventThread

/-- The steps the loop has before it, less those of its call of `Get`. -/
def LoopPc.load : LoopPc → Nat
  | handling => 10
  | started => 9
  | taking => 8
  | synced => 7
  | running => 6
  | testing => 4
  | off | getting _ | leaving | ended => 0

namespace XLEventThread

variable {σ : Type} {tOnEvent : σ → XLThreadEvent → σ} {s s' : XLEventThread σ}
  {l : EventThreadStep}

/-- What the loop's call of `Get` has to do. -/
def getLoad (s : XLEventThread σ) : Nat :=
  match s.loop with
  | .getting j => s.queue.gets[j]?.elim 0 fun g => g.pc.load
  | _ => 0

/-- How much the queue and the loop have to do, at most, until the loop waits in `Get`. -/
def load (s : XLEventThread σ) : Nat := s.queue.load + s.getLoad + s.loop.load

/-- A call of `Put` begins, while the loop is not in `Get`. -/
theorem load_callPut (e : XLThreadEvent) (hl : s.loop = .testing) :
    load { s with queue := s.queue.callPut e } ≤ s.load + 26 := by
  have hqueue := s.queue.load_put e (if s.queue.queue.created then .entered else .returned false)
  have hpc : PutPc.load (if s.queue.queue.created then .entered else .returned false) ≤ 26 := by
    split <;> decide
  simp only [load, getLoad, hl, QueueRun.callPut] at hqueue ⊢
  omega

/-- The loop is in a `Get` that has to wait. -/
def Blocked (s : XLEventThread σ) : Prop :=
  ¬ s.queue.queue.sem.Passes ∧ ∃ (j : Nat) (g : GetCall XLThreadEvent), s.loop = .getting j ∧
    s.queue.gets[j]? = some g ∧ g.pc = .entered

/-- A step of the loop, or of a call in progress that finds room for its event. -/
def GoesOn (p : XLThreadEvent → Bool) (s : XLEventThread σ) (l : EventThreadStep) : Prop :=
  l = .loop ∨ ∃ ql, l = .queue ql ∧ ql.inside = true ∧ s.queue.HasRoomFor p ql

/-- Once `Create` has returned, the loop goes on outside of its handler, or waits in `Get`. -/
theorem Lively.loop_goesOn (p : XLThreadEvent → Bool) (h : Lively s)
    (howner : s.owner = .idle) (hcreated : s.created = true) (hoff : s.loop ≠ .off)
    (hhandling : s.loop ≠ .handling) :
    s.Blocked ∨ ∃ l s', s.GoesOn p l ∧ s.next tOnEvent l = some s' ∧ s'.load < s.load := by
  obtain ⟨hhandle, hqueue⟩ := h.inv.owned.up howner hcreated
  obtain ⟨hlive, hstock⟩ := h.inv.kept.live hqueue
  cases hl : s.loop with
  | off => exact absurd hl hoff
  | handling => exact absurd hl hhandling
  | leaving => exact absurd hl h.stays.2.1
  | ended => exact absurd hl h.stays.2.2
  | started =>
      have hnext : s.next tOnEvent .loop = some { s with loop := .taking } := by
        simp only [XLEventThread.next, loopStep, hl, (h.sync1 (Or.inl hl)).1, if_true]
      refine Or.inr ⟨_, _, Or.inl rfl, hnext, ?_⟩
      simp [load, getLoad, hl, LoopPc.load]
  | taking =>
      have hnext : s.next tOnEvent .loop =
          some { s with sync1 := s.sync1.raise, loop := .synced } := by
        simp only [XLEventThread.next, loopStep, hl, if_pos (h.sync1 (Or.inr hl)).2]
      refine Or.inr ⟨_, _, Or.inl rfl, hnext, ?_⟩
      simp [load, getLoad, hl, LoopPc.load]
  | synced =>
      have hnext : s.next tOnEvent .loop = some { s with loop := .running } := by
        simp only [XLEventThread.next, loopStep, hl, hhandle, if_true]
      refine Or.inr ⟨_, _, Or.inl rfl, hnext, ?_⟩
      simp [load, getLoad, hl, LoopPc.load]
  | running =>
      have hnext : s.next tOnEvent .loop = some { s with loop := .testing, entered := true } := by
        simp only [XLEventThread.next, loopStep, hl, hcreated, if_true]
      refine Or.inr ⟨_, _, Or.inl rfl, hnext, ?_⟩
      simp [load, getLoad, hl, LoopPc.load]
  | testing =>
      have hget : s.queue.callGet =
          { s.queue with gets := s.queue.gets ++ [⟨.entered, none⟩] } := by
        simp [QueueRun.callGet, hqueue]
      have hnext : s.next tOnEvent .loop = some { s with
          queue := { s.queue with gets := s.queue.gets ++ [⟨.entered, none⟩] }
          loop := .getting s.queue.gets.length } := by
        simp only [XLEventThread.next, loopStep, hl, h.stays.1, hget, Bool.false_eq_true, if_false]
      refine Or.inr ⟨_, _, Or.inl rfl, hnext, ?_⟩
      simp [load, getLoad, hl, LoopPc.load, GetPc.load, QueueRun.load]
  | getting j =>
      obtain ⟨g, hj, hfalse⟩ := h.inv.getting.own j hl
      have hload : s.getLoad = g.pc.load := by simp [getLoad, hl, hj]
      by_cases hreturned : g.pc = .returned true
      · have hnext : s.next tOnEvent .loop =
            some { s with event := g.out.getD s.event, loop := .handling } := by
          obtain ⟨pc, out⟩ := g
          dsimp only at hreturned
          subst hreturned
          simp only [XLEventThread.next, loopStep, hl, hj]
        refine Or.inr ⟨_, _, Or.inl rfl, hnext, ?_⟩
        rw [load, load, hload, hreturned, hl]
        simp [getLoad, LoopPc.load, GetPc.load]
      · have hpc : ∀ b, g.pc ≠ .returned b := by
          intro b
          cases b with
          | true => exact hreturned
          | false => exact hfalse
        by_cases hblocked : g.pc = .entered ∧ ¬ s.queue.queue.sem.Passes
        · exact Or.inl ⟨hblocked.2, j, g, hl, hj, hblocked.1⟩
        · obtain ⟨ql, q, g', hinside, hq, hroom, hj', hless⟩ :=
            QueueRun.get_goesOn p h.settled hlive hstock hj hpc fun hentered => by
              by_contra hpass
              exact hblocked ⟨hentered, hpass⟩
          have hnext : s.next tOnEvent (.queue ql) = some { s with queue := q } :=
            next_queue hinside hq
          refine Or.inr ⟨_, _, Or.inr ⟨ql, rfl, hinside, hroom⟩, hnext, ?_⟩
          have hload' : getLoad { s with queue := q } = g'.pc.load := by simp [getLoad, hl, hj']
          rw [load, load, hload, hload']
          dsimp only
          omega

/-- A loop that waits while no call of `Put` is about to give has nothing to wait for. -/
theorem Lively.pending_eq_nil (h : Lively s) (hblocked : s.Blocked)
    (hgive : ∀ (i : Nat) (c : PutCall XLThreadEvent), s.queue.puts[i]? = some c →
      c.pc.beforeGive = false) : s.queue.queue.q.pending = [] := by
  obtain ⟨hpass, j, g, hl, hj, hentered⟩ := hblocked
  obtain ⟨-, hstock⟩ := h.inv.kept.live (h.inv.owned.live (by rw [hl]; rfl))
  refine QueueRun.pending_of_blocked h.settled hstock hpass (fun k d hk => ?_) hgive
  by_cases hkj : k = j
  · subst hkj
    cases hj.symm.trans hk
    rw [hentered]
    rfl
  · obtain ⟨b, hb⟩ := h.inv.getting.others k d hk (by rw [hl]; simpa using Ne.symm hkj)
    rw [hb]
    rfl

/-- A loop that waits has no event in hand. -/
theorem Blocked.inHand (h : s.Blocked) : s.inHand = [] := by
  obtain ⟨-, j, g, hl, hj, hentered⟩ := h
  simp [XLEventThread.inHand, hl, hj, hentered, GetPc.done]

/-- While the loop waits, some call of `Put` goes on if there is one. -/
theorem Lively.put_goesOn (p : XLThreadEvent → Bool) (h : Lively s) (hblocked : s.Blocked)
    {i : Nat} {c : PutCall XLThreadEvent} (hi : s.queue.puts[i]? = some c)
    (hpc : ∀ b, c.pc ≠ .returned b) :
    ∃ l s', s.GoesOn p l ∧ s.next tOnEvent l = some s' ∧ s'.load < s.load := by
  have hwaits := hblocked
  obtain ⟨-, j, -, hl, -, -⟩ := hwaits
  obtain ⟨hlive, -⟩ := h.inv.kept.live (h.inv.owned.live (by rw [hl]; rfl))
  obtain ⟨ql, q, hinside, hq, hroom, hgets, hless⟩ : ∃ ql q, ql.inside = true ∧
      s.queue.next ql = some q ∧ s.queue.HasRoomFor p ql ∧ q.gets = s.queue.gets ∧
      q.load < s.queue.load := by
    by_cases hgive : ∃ (k : Nat) (d : PutCall XLThreadEvent), s.queue.puts[k]? = some d ∧
        d.pc.beforeGive = true
    · -- What it waits for is about to be given.
      obtain ⟨k, d, hk, hd⟩ := hgive
      refine QueueRun.put_goesOn p hlive hk ?_ ?_ ?_
      · intro b hb
        rw [hb] at hd
        cases hd
      · intro hb
        rw [hb] at hd
        cases hd
      · intro hb
        rw [hb] at hd
        cases hd
    · have hnil := h.pending_eq_nil hblocked fun k d hk => by
        by_contra hd
        exact hgive ⟨k, d, hk, by simpa using hd⟩
      have hfits : s.queue.queue.q.pending.length < s.queue.queue.q.maxSize := by
        rw [hnil, h.settled.sized.bound hlive.created, List.length_nil]
        decide
      exact QueueRun.some_put_goesOn p h.settled hlive (fun _ _ => hfits) hi hpc
  have hnext : s.next tOnEvent (.queue ql) = some { s with queue := q } := next_queue hinside hq
  refine ⟨_, _, Or.inr ⟨ql, rfl, hinside, hroom⟩, hnext, ?_⟩
  have hload : getLoad { s with queue := q } = s.getLoad := by simp [getLoad, hl, hgets]
  rw [load, load, hload]
  dsimp only
  omega

end XLEventThread

/-- The steps `Create` has before it. -/
def OwnerPc.load : OwnerPc → Nat
  | spawned => 4
  | handled => 3
  | given => 2
  | queued => 1
  | idle | taking _ | joining _ | joined => 0

namespace XLEventThread

variable {σ : Type} {tOnEvent : σ → XLThreadEvent → σ} {s s' : XLEventThread σ}
  {l : EventThreadStep}

/-- `Create` goes on until it has returned, whatever the others do. -/
theorem Lively.owner_goesOn (h : Lively s) (howner : s.owner ≠ .idle) :
    ∃ s', s.next tOnEvent .owner = some s' ∧ s'.load = s.load ∧ s'.owner.load < s.owner.load := by
  have howned := h.inv.owned
  unfold Owned at howned
  cases ho : s.owner with
  | idle => exact absurd ho howner
  | taking undo => exact absurd ho (h.up.1 undo).1
  | joining undo => exact absurd ho (h.up.1 undo).2
  | joined => exact absurd ho h.up.2
  | spawned =>
      have hnext : s.next tOnEvent .owner = some { s with handle := true, owner := .handled } := by
        simp only [XLEventThread.next, ownerStep, ho]
      exact ⟨_, hnext, rfl, by simp [OwnerPc.load]⟩
  | handled =>
      have hnext : s.next tOnEvent .owner =
          some { s with sync1 := s.sync1.give, owner := .given } := by
        simp only [XLEventThread.next, ownerStep, ho]
      exact ⟨_, hnext, rfl, by simp [OwnerPc.load]⟩
  | given =>
      rw [ho] at howned
      have hcreate := QueueRun.create_down (h.inv.kept.down howned.2.2.1) eventQueueProperties
      have hnext : s.next tOnEvent .owner =
          some { s with queue := s.queue.created eventQueueProperties, owner := .queued } := by
        simp only [XLEventThread.next, ownerStep, ho, QueueRun.created, hcreate, if_true]
      refine ⟨_, hnext, ?_, by simp [OwnerPc.load]⟩
      simp only [load, getLoad, QueueRun.load, QueueRun.created, hcreate]
      rfl
  | queued =>
      have hnext : s.next tOnEvent .owner = some { s with created := true, owner := .idle } := by
        simp only [XLEventThread.next, ownerStep, ho]
      exact ⟨_, hnext, rfl, by simp [OwnerPc.load]⟩

end XLEventThread

end ServClient
