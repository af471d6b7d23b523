/-
The three things a thread pool keeps, each apart from the others.

  * The caller: while it is not in a `Put` every `Put` has returned, so its events reach
    the queue in the order of its calls, jobs before exits.
  * The workers: each `Get` call is one worker's until that worker has acted on the event
    it returned, and it is acted on once.
  * Joining: a worker that has been joined has ended; having entered its loop, it has
    ended because it got an exit event.
-/
import ServClient.ThreadPool
import ServClient.Proofs.EventQueue

namespace ServClient

/-! ### The two kinds of events -/

theorem jobEvent_event (call : Nat) (job : UInt64) :
    (jobEvent call job).event =
      { pData := some (Bytes.ofNat 8 job.toNat), iLength := 8, iType := threadPoolEventAdd } := by
  have hguard : (XLThreadEvent.new.setType threadPoolEventAdd).inPlace 0
      (Bytes.ofNat 8 job.toNat).length = false := by
    rw [Bytes.length_ofNat]
    decide
  simp only [jobEvent, XLThreadEvent.write, hguard, Bool.false_eq_true, if_false]
  have htake : (Bytes.ofNat 8 job.toNat).take 8 = Bytes.ofNat 8 job.toNat :=
    List.take_of_length_le (by simp)
  simp [XLThreadEvent.setType, XLThreadEvent.new, XLThreadEvent.addData, XLThreadEvent.setData,
    XLThreadEvent.reset, htake]

/-- A worker reads back the address `AddJob` wrote. -/
theorem jobOf_jobEvent (call : Nat) (job : UInt64) :
    jobOf (jobEvent call job).event = some job := by
  have hguard : XLThreadEvent.inPlace
      ⟨some (Bytes.ofNat 8 job.toNat), 8, threadPoolEventAdd⟩ 0 8 = true := by
    show (decide ((0 : Int) ≤ 0) && decide (castInt (0 + 8) ≤ 8)) = true
    decide
  rw [jobEvent_event, jobOf, XLThreadEvent.read, if_pos hguard]
  have hbytes : (Bytes.ofNat 8 job.toNat).take 8 = Bytes.ofNat 8 job.toNat :=
    List.take_of_length_le (by simp)
  have hlt : job.toNat < 256 ^ 8 := job.toNat_lt
  simp [hbytes, Bytes.toNat_ofNat hlt]

theorem jobEvent_iType (call : Nat) (job : UInt64) :
    (jobEvent call job).event.iType = threadPoolEventAdd := by rw [jobEvent_event]

@[simp] theorem jobEvent_call (call : Nat) (job : UInt64) : (jobEvent call job).call = call := rfl

theorem exitEvent_iType (call : Nat) : (exitEvent call).event.iType = threadPoolEventExit := rfl

/-- The event of the caller's `Put` number `i`: the jobs come first. -/
def eventOf (added : List UInt64) (i : Nat) : PoolEvent :=
  match added[i]? with
  | some job => jobEvent i job
  | none => exitEvent i

theorem eventOf_append {added : List UInt64} {i : Nat} (hi : i < added.length) (job : UInt64) :
    eventOf (added ++ [job]) i = eventOf added i := by
  unfold eventOf
  rw [List.getElem?_append_left hi]

/-- The `Work()` call a worker makes for an event, if any. -/
def workOf (r : Nat × PoolEvent) : Option (Nat × UInt64) :=
  if r.2.event.iType = threadPoolEventExit then none
  else
    match jobOf r.2.event with
    | some job => if job ≠ 0 then some (r.2.call, job) else none
    | none => none

theorem workOf_eventOf {added : List UInt64} {i j : Nat} {w : Nat × UInt64} :
    workOf (j, eventOf added i) = some w ↔
      ∃ job, added[i]? = some job ∧ job ≠ 0 ∧ w = (i, job) := by
  unfold eventOf workOf
  cases hi : added[i]? with
  | none => simp [exitEvent_iType]
  | some job =>
      by_cases hjob : job = 0
      · simp [jobEvent_iType, jobOf_jobEvent, threadPoolEventAdd, threadPoolEventExit, hjob]
      · simp only [jobEvent_iType, jobOf_jobEvent, threadPoolEventAdd, threadPoolEventExit]
        simp [hjob, eq_comm]

/-! ### Where the caller is -/

namespace CallerPc

/-- The pool is created. -/
def active : CallerPc → Bool
  | fresh | destroyed => false
  | _ => true

/-- In a `Put`. -/
def inPut : CallerPc → Bool
  | adding | exitPut _ => true
  | _ => false

/-- In `Destroy`, or past it. -/
def leaving : CallerPc → Bool
  | exiting _ | exitPut _ | joining _ | waiting _ | destroyed => true
  | _ => false

/-- Worker `i` has been joined. -/
def hasJoined : CallerPc → Nat → Bool
  | joining k, i | waiting k, i => decide (i < k)
  | destroyed, _ => true
  | _, _ => false

theorem hasJoined_eq_false {pc : CallerPc} (h : pc.leaving = false) (i : Nat) :
    pc.hasJoined i = false := by
  cases pc <;> first | rfl | cases h

end CallerPc

/-- What the caller keeps of the queue, and of the jobs it has added. -/
structure CallerInv (created : Bool) (caller : CallerPc) (run : QueueRun PoolEvent)
    (added : List UInt64) : Prop where
  phase : created = caller.active
  queue : created = true → run.Inv
  size : created = true → run.queue.q.maxSize = eventQueueConfigMaxSize.toNat
  ordered : run.Ordered
  /-- Only the last `Put` can be in progress, and then the caller is in it. -/
  waits : ∀ (i : Nat) (c : PutCall PoolEvent), run.puts[i]? = some c →
    (∃ b, c.pc = .returned b) ∨ (i + 1 = run.puts.length ∧ caller.inPut = true)
  addedLe : added.length ≤ run.puts.length
  adding : caller.leaving = false → run.puts.length = added.length
  events : ∀ (i : Nat) (c : PutCall PoolEvent), run.puts[i]? = some c → c.event = eventOf added i
  sorted : (run.pushed.map Prod.fst).Pairwise (· < ·)

namespace CallerInv

variable {created : Bool} {caller caller' : CallerPc} {run run' : QueueRun PoolEvent}
  {added : List UInt64}

/-- Every `Put` has returned. -/
def Returned (run : QueueRun PoolEvent) : Prop :=
  ∀ (i : Nat) (c : PutCall PoolEvent), run.puts[i]? = some c → ∃ b, c.pc = .returned b

theorem returned (h : CallerInv created caller run added) (hc : caller.inPut = false) :
    Returned run := by
  intro i c hi
  rcases h.waits i c hi with hret | ⟨-, hput⟩
  · exact hret
  · rw [hc] at hput
    cases hput

theorem returned_of_last (h : CallerInv created caller run added)
    (hlast : ∃ e b, run.puts.getLast? = some ⟨e, .returned b⟩) : Returned run := by
  intro i c hi
  rcases h.waits i c hi with hret | ⟨hlen, -⟩
  · exact hret
  · obtain ⟨e, b, hlast⟩ := hlast
    rw [List.getLast?_eq_getElem?, show run.puts.length - 1 = i by omega, hi] at hlast
    cases hlast
    exact ⟨b, rfl⟩

/-- The caller goes on; no `Put` is in progress. -/
theorem move (h : CallerInv created caller run added) (hactive : caller'.active = caller.active)
    (hleave : caller'.leaving = false → caller.leaving = false) (hall : Returned run) :
    CallerInv created caller' run added where
  phase := h.phase.trans hactive.symm
  queue := h.queue
  size := h.size
  ordered := h.ordered
  waits := fun i c hi => Or.inl (hall i c hi)
  addedLe := h.addedLe
  adding := fun hc => h.adding (hleave hc)
  events := h.events
  sorted := h.sorted

theorem inv_callPut (h : run.Inv) (e : PoolEvent) : (run.callPut e).Inv :=
  QueueRun.inv_step (l := .put e) h rfl

theorem inv_callGet (h : run.Inv) : run.callGet.Inv := QueueRun.inv_step (l := .get) h rfl

/-- The caller begins a `Put`. -/
theorem callPut {e : PoolEvent} (h : CallerInv created caller run added) (hcreated : created = true)
    (hall : Returned run) (hactive : caller'.active = true) (hput : caller'.inPut = true)
    {added' : List UInt64} (hle : added'.length ≤ run.puts.length + 1)
    (hadding : caller'.leaving = false → run.puts.length + 1 = added'.length)
    (hold : ∀ i, i < run.puts.length → eventOf added' i = eventOf added i)
    (hnew : e = eventOf added' run.puts.length) :
    CallerInv created caller' (run.callPut e) added' where
  phase := hcreated.trans hactive.symm
  queue := fun _ => inv_callPut (h.queue hcreated) e
  size := h.size
  ordered := (inv_callPut (h.queue hcreated) e).ordered
  waits := Calls.forall_concat (Or.inr ⟨by simp [QueueRun.callPut], hput⟩)
    fun i c hi => Or.inl (hall i c hi)
  addedLe := by simpa [QueueRun.callPut] using hle
  adding := fun hc => by simpa [QueueRun.callPut] using hadding hc
  events := Calls.forall_concat hnew fun i c hi => by
    rw [hold i (Calls.lt_of_getElem?_eq_some hi)]
    exact h.events i c hi
  sorted := h.sorted

theorem putJob (h : CallerInv created caller run added) (hactive : caller.active = true)
    (hleave : caller.leaving = false) (hput : caller.inPut = false) (job : UInt64) :
    CallerInv created .adding (run.callPut (jobEvent run.puts.length job)) (added ++ [job]) := by
  have hlen := h.adding hleave
  refine h.callPut (h.phase.trans hactive) (h.returned hput) rfl rfl (by simp [hlen])
    (fun _ => by simp [hlen]) (fun i hi => eventOf_append (by omega) job) ?_
  simp [eventOf, hlen]

theorem putExit {k : Nat} (h : CallerInv created (.exiting k) run added) :
    CallerInv created (.exitPut k) (run.callPut (exitEvent run.puts.length)) added := by
  have hle := h.addedLe
  refine h.callPut h.phase (h.returned rfl) rfl rfl (by omega) (fun hc => by cases hc)
    (fun i _ => rfl) ?_
  simp [eventOf, List.getElem?_eq_none hle]

/-- A worker calls `Get`. -/
theorem callGet (h : CallerInv created caller run added) (hcreated : created = true) :
    CallerInv created caller run.callGet added where
  phase := h.phase
  queue := fun _ => inv_callGet (h.queue hcreated)
  size := h.size
  ordered := (inv_callGet (h.queue hcreated)).ordered
  waits := h.waits
  addedLe := h.addedLe
  adding := h.adding
  events := h.events
  sorted := h.sorted

/-- A call in progress goes on. -/
theorem continues (h : CallerInv created caller run added) (hinv : run'.Inv)
    (hc : run.Continues run') : CallerInv created caller run' added where
  phase := h.phase
  queue := fun _ => hinv
  size := fun hcreated => hc.maxSize.trans (h.size hcreated)
  ordered := hinv.ordered
  waits := by
    intro i c' hi
    obtain ⟨c, hold, -, hsame⟩ := hc.puts i c' hi
    rw [hc.putsLength]
    rcases h.waits i c hold with ⟨b, hb⟩ | hlast
    · rw [hsame b hb]
      exact Or.inl ⟨b, hb⟩
    · exact Or.inr hlast
  addedLe := by rw [hc.putsLength]; exact h.addedLe
  adding := fun hl => by rw [hc.putsLength]; exact h.adding hl
  events := by
    intro i c' hi
    obtain ⟨c, hold, hevent, -⟩ := hc.puts i c' hi
    rw [hevent]
    exact h.events i c hold
  sorted := by
    rcases hc.pushed with hsame | ⟨i, c, hi, hpc, hmore⟩
    · rw [hsame]
      exact h.sorted
    · -- The call in progress is the last one, so all that was pushed before has a smaller number.
      rw [hmore, List.map_append, List.pairwise_append]
      refine ⟨h.sorted, List.pairwise_singleton _ _, fun j hj k hk => ?_⟩
      rw [List.map_singleton, List.mem_singleton] at hk
      obtain ⟨⟨j', a⟩, hmem, rfl⟩ := List.mem_map.mp hj
      have hlast : i + 1 = run.puts.length := by
        rcases h.waits i c hi with ⟨b, hb⟩ | ⟨hlast, -⟩
        · exact absurd hb (hpc b)
        · exact hlast
      have hlt := h.ordered.puts.inRange j' a hmem
      have hne : j' ≠ i := by
        rintro rfl
        have hacc := (h.ordered.puts.mem_iff j' c hi a).mp hmem
        have hnodup := hinv.ordered.puts.once
        rw [hmore, List.map_append, List.nodup_append] at hnodup
        exact hnodup.2.2 j' (List.mem_map_of_mem hmem) j' (by simp) rfl
      rw [hk]
      show j' < i
      omega

theorem destroy {k : Nat} (h : CallerInv created (.joining k) run added) :
    CallerInv false .destroyed { run with queue := run.queue.destroy } added where
  phase := rfl
  queue := fun hc => by cases hc
  size := fun hc => by cases hc
  ordered := by
    refine ⟨?_, h.ordered.puts, h.ordered.gets⟩
    have hq : run.queue.destroy.q = run.queue.q := by
      unfold XLEventQueue.destroy
      split <;> rfl
    show run.popped.map Prod.snd ++ run.queue.destroy.q.pending.map some = _
    rw [hq]
    exact h.ordered.order
  waits := fun i c hi => Or.inl (h.returned rfl i c hi)
  addedLe := h.addedLe
  adding := fun hc => by cases hc
  events := h.events
  sorted := h.sorted

end CallerInv

/-! ### Where the workers are -/

/-- The `Get` call whose event it waits for or has in hand. -/
def WorkerPc.current : WorkerPc → Option Nat
  | getting j | handling j => some j
  | _ => none

/-- Worker `w` has call `j`. -/
def has (j : Nat) (w : XLThWorkThread) : Bool := decide (w.pc.current = some j)

/-- What the workers keep of the events they have got. -/
structure WorkerInv (threads : List XLThWorkThread) (gets : List (GetCall PoolEvent))
    (handled : List (Nat × PoolEvent)) (worked : List (Nat × UInt64)) : Prop where
  /-- A call is one worker's until it has been acted on, once. -/
  current : ∀ j, threads.countP (has j) + (handled.map Prod.fst).count j =
    if j < gets.length then 1 else 0
  getsTrue : ∀ (j : Nat) (g : GetCall PoolEvent), gets[j]? = some g → g.pc ≠ .returned false
  inHand : ∀ (k : Nat) (w : XLThWorkThread), threads[k]? = some w → ∀ j, w.pc = .handling j →
    gets[j]? = some ⟨.returned true, some w.e⟩
  kept : ∀ j e, (j, e) ∈ handled → gets[j]? = some ⟨.returned true, some e⟩
  works : worked = handled.filterMap workOf
  notYet : ∀ (k : Nat) (w : XLThWorkThread), threads[k]? = some w →
    (w.pc = .started ∨ w.pc = .synced) → w.entered = false
  /-- A worker that has entered its loop leaves it with an exit event. -/
  exited : ∀ (k : Nat) (w : XLThWorkThread), threads[k]? = some w → w.entered = true →
    (w.pc = .leaving ∨ w.pc = .ended) → ∃ r ∈ handled, r.2.event.iType = threadPoolEventExit

namespace WorkerInv

variable {threads : List XLThWorkThread} {gets gets' : List (GetCall PoolEvent)}
  {handled : List (Nat × PoolEvent)} {worked : List (Nat × UInt64)} {k : Nat}
  {w w' : XLThWorkThread}

theorem nil : WorkerInv [] [] [] [] where
  current := by simp
  getsTrue := by simp
  inHand := by simp
  kept := by simp
  works := rfl
  notYet := by simp
  exited := by simp

/-- A worker moves and keeps the call it has. -/
theorem move (h : WorkerInv threads gets handled worked) (hk : threads[k]? = some w)
    (hcur : w'.pc.current = w.pc.current)
    (hhand : ∀ j, w'.pc = .handling j → gets[j]? = some ⟨.returned true, some w'.e⟩)
    (hnot : (w'.pc = .started ∨ w'.pc = .synced) → w'.entered = false)
    (hexit : w'.entered = true → (w'.pc = .leaving ∨ w'.pc = .ended) →
      ∃ r ∈ handled, r.2.event.iType = threadPoolEventExit) :
    WorkerInv (threads.set k w') gets handled worked where
  current := by
    intro j
    rw [Calls.countP_set_same hk (by simp only [has, hcur])]
    exact h.current j
  getsTrue := h.getsTrue
  inHand := Calls.forall_set hk hhand fun j c _ hj => h.inHand j c hj
  kept := h.kept
  works := h.works
  notYet := Calls.forall_set hk hnot fun j c _ hj => h.notYet j c hj
  exited := Calls.forall_set hk hexit fun j c _ hj => h.exited j c hj

/-- Something of a worker changes that is not its place, its event or its having entered. -/
theorem setSame (h : WorkerInv threads gets handled worked) (hk : threads[k]? = some w)
    (hpc : w'.pc = w.pc) (he : w'.e = w.e) (hent : w'.entered = w.entered) :
    WorkerInv (threads.set k w') gets handled worked := by
  refine h.move hk (by rw [hpc]) ?_ ?_ ?_
  · rw [hpc, he]
    exact h.inHand k w hk
  · rw [hpc, hent]
    exact h.notYet k w hk
  · rw [hpc, hent]
    exact h.exited k w hk

theorem spawn (h : WorkerInv threads gets handled worked) :
    WorkerInv (threads ++ [XLThWorkThread.spawned]) gets handled worked where
  current := by
    intro j
    rw [Calls.countP_concat]
    exact h.current j
  getsTrue := h.getsTrue
  inHand := Calls.forall_concat (fun j hj => by cases hj) h.inHand
  kept := h.kept
  works := h.works
  notYet := Calls.forall_concat (fun _ => rfl) h.notYet
  exited := Calls.forall_concat (fun hc => by cases hc) h.exited

/-- A worker calls `Get`. -/
theorem callGet (h : WorkerInv threads gets handled worked) (hk : threads[k]? = some w)
    (hcur : w.pc.current = none) {g : GetCall PoolEvent} (hg : ∀ b, g.pc ≠ .returned b)
    (hpc : w'.pc = .getting gets.length) :
    WorkerInv (threads.set k w') (gets ++ [g]) handled worked where
  current := by
    intro j
    have hj := h.current j
    have hset := Calls.countP_set w' (has j) hk
    have hcur' : w'.pc.current = some gets.length := by rw [hpc]; rfl
    simp only [has, hcur, hcur', Option.some.injEq, reduceCtorEq, decide_eq_true_eq,
      if_false] at hset
    simp only [List.length_append, List.length_singleton]
    split at hset <;> split at hj <;> split <;> omega
  getsTrue := Calls.forall_concat (hg false) h.getsTrue
  inHand := by
    refine Calls.forall_set hk (fun j hj => by rw [hpc] at hj; cases hj) fun i c _ hi j hj => ?_
    have hold := h.inHand i c hi j hj
    rw [List.getElem?_append_left (Calls.lt_of_getElem?_eq_some hold), hold]
  kept := by
    intro j e hmem
    have hold := h.kept j e hmem
    rw [List.getElem?_append_left (Calls.lt_of_getElem?_eq_some hold), hold]
  works := h.works
  notYet := Calls.forall_set hk (fun hc => by rw [hpc] at hc; rcases hc with hc | hc <;> cases hc)
    fun j c _ hj => h.notYet j c hj
  exited := Calls.forall_set hk (fun _ hc => by rw [hpc] at hc; rcases hc with hc | hc <;> cases hc)
    fun j c _ hj => h.exited j c hj

/-- A worker acts on the event it has in hand. -/
theorem handle {j : Nat} (h : WorkerInv threads gets handled worked) (hk : threads[k]? = some w)
    (hpc : w.pc = .handling j) (hcur : w'.pc.current = none)
    (hnot : w'.pc ≠ .started ∧ w'.pc ≠ .synced)
    (hexit : w'.pc = .leaving ∨ w'.pc = .ended → w.e.event.iType = threadPoolEventExit) :
    WorkerInv (threads.set k w') gets (handled ++ [(j, w.e)])
      (worked ++ (workOf (j, w.e)).toList) where
  current := by
    intro i
    have hi := h.current i
    have hset := Calls.countP_set w' (has i) hk
    have hcur' : w.pc.current = some j := by rw [hpc]; rfl
    simp only [has, hcur, hcur', Option.some.injEq, reduceCtorEq, decide_eq_true_eq,
      if_false] at hset
    rw [List.map_append, List.count_append, List.map_singleton, List.count_singleton]
    simp only [beq_iff_eq]
    split at hset <;> split at hi <;> split <;> omega
  getsTrue := h.getsTrue
  inHand := Calls.forall_set hk (fun i hi => by rw [hi] at hcur; cases hcur)
    fun i c _ hi => h.inHand i c hi
  kept := by
    intro i e hmem
    rcases List.mem_append.mp hmem with hold | hnew
    · exact h.kept i e hold
    · rw [List.mem_singleton, Prod.mk.injEq] at hnew
      obtain ⟨rfl, rfl⟩ := hnew
      exact h.inHand k w hk i hpc
  works := by
    rw [h.works, List.filterMap_append]
    cases hw : workOf (j, w.e) <;> simp [hw]
  notYet := Calls.forall_set hk (fun hc => absurd hc (not_or.mpr hnot))
    fun i c _ hi => h.notYet i c hi
  exited := by
    refine Calls.forall_set hk (fun _ hc => ⟨(j, w.e), by simp, hexit hc⟩)
      fun i c _ hi hent hc => ?_
    obtain ⟨r, hr, hexit⟩ := h.exited i c hi hent hc
    exact ⟨r, List.mem_append_left _ hr, hexit⟩

/-- A call in progress goes on. -/
theorem continues (h : WorkerInv threads gets handled worked) (hlen : gets'.length = gets.length)
    (hfalse : ∀ (j : Nat) (g : GetCall PoolEvent), gets'[j]? = some g → g.pc = .returned false →
      gets[j]? = some g)
    (hsame : ∀ (j : Nat) (g : GetCall PoolEvent) b, gets[j]? = some g → g.pc = .returned b →
      gets'[j]? = some g) : WorkerInv threads gets' handled worked where
  current := by rw [hlen]; exact h.current
  getsTrue := fun j g hj hg => h.getsTrue j g (hfalse j g hj hg) hg
  inHand := fun k w hk j hj => hsame j _ true (h.inHand k w hk j hj) rfl
  kept := fun j e hmem => hsame j _ true (h.kept j e hmem) rfl
  works := h.works
  notYet := h.notYet
  exited := h.exited

end WorkerInv

/-! ### Joining -/

/-- A worker that has been joined is over, and one that has not has its handle. -/
structure JoinInv (caller : CallerPc) (threads : List XLThWorkThread) : Prop where
  ended : ∀ (i : Nat) (w : XLThWorkThread), threads[i]? = some w → caller.hasJoined i = true →
    w.pc = .ended
  handle : ∀ (i : Nat) (w : XLThWorkThread), threads[i]? = some w → w.handle = true ∨
    caller.hasJoined i = true ∨ ∃ resume, caller = .launching i .spawned resume

namespace JoinInv

variable {caller caller' : CallerPc} {threads : List XLThWorkThread} {k : Nat}
  {w w' : XLThWorkThread}

/-- The caller goes on, and joins nobody by it. -/
theorem move (h : JoinInv caller threads) (hjoin : ∀ i, caller'.hasJoined i = caller.hasJoined i)
    (hlaunch : ∀ i resume, caller ≠ .launching i .spawned resume) : JoinInv caller' threads where
  ended := fun i w hi hc => h.ended i w hi (by rw [← hjoin]; exact hc)
  handle := by
    intro i w hi
    rcases h.handle i w hi with hw | hc | ⟨r, hr⟩
    · exact Or.inl hw
    · exact Or.inr (Or.inl (by rw [hjoin]; exact hc))
    · exact absurd hr (hlaunch i r)

theorem setWorker (h : JoinInv caller threads) (hk : threads[k]? = some w)
    (hpc : w.pc = .ended → w'.pc = .ended) (hhandle : w'.handle = w.handle) :
    JoinInv caller (threads.set k w') where
  ended := Calls.forall_set hk (fun hc => hpc (h.ended k w hk hc)) fun i c _ hi => h.ended i c hi
  handle := Calls.forall_set hk (by rw [hhandle]; exact h.handle k w hk)
    fun i c _ hi => h.handle i c hi

end JoinInv

end ServClient
