/-
The permits of an alarm's exit keeper.

`RunProgram` takes the permit and `RanOut` gives it back; but `Create(1, 1)` makes a semaphore
with no permit, so no thread gets past the `Take`, and `SetAlarm` on an alarm that is set does
not either.

There is one way to a permit.  A thread that finds `m_handle` still null leaves `RunSimpleThread`
without `RunProgram`, and `RanOut` gives all the same.  Each such thread adds a permit for good,
so the account is exact: what is available, what is in the section and what `SetAlarm` holds
make up the number of threads that strayed.
-/
import ServClient.Alarm
import ServClient.Proofs.SemaPhore
import ServClient.Proofs.SimpleThreads

namespace ServClient

open Runs

/-- Between its `Take` and its `Give`. -/
def AlarmThreadPc.inSection : AlarmThreadPc → Bool
  | looping _ | sleeping _ => true
  | leaving ran | ranOut ran | syncing ran | destroying1 ran | destroying2 ran | joining ran
  | giving ran => ran
  | started | identified | taken | entered | ended _ => false

/-- It has given without having taken. -/
def AlarmThreadPc.strayed : AlarmThreadPc → Bool
  | ended ran => !ran
  | _ => false

namespace AlarmHandOver

variable {s s' : AlarmHandOver} {i : Nat} {pc : AlarmThreadPc}

/-- The permits of the gate. -/
def permits (s : AlarmHandOver) : Int := s.object.exitKeeper.permits.available

/-- How many threads are in the section. -/
def inside (s : AlarmHandOver) : Nat := s.threads.countP AlarmThreadPc.inSection

/-- How many threads have given without having taken. -/
def strays (s : AlarmHandOver) : Nat := s.threads.countP AlarmThreadPc.strayed

/-- How many permits `SetAlarm` has. -/
def held (s : AlarmHandOver) : Nat := if s.owner = .giving then 1 else 0

/-- How many threads have been started by calls of `SetAlarm` that have returned. -/
def settled (s : AlarmHandOver) : Nat :=
  match s.owner with
  | .creating pc => if pc.started then s.threads.length - 1 else s.threads.length
  | _ => s.threads.length

/-- One thread at most is in the section; with none in it and no `SetAlarm` in progress there is
one permit; and the threads of earlier calls of `SetAlarm` do not call `OnAlarm`. -/
structure HandOver (s : AlarmHandOver) : Prop where
  alone : ∀ (i j : Nat) (pc pc' : AlarmThreadPc), s.threads[i]? = some pc →
    s.threads[j]? = some pc' →
    pc.inSection = true → pc'.inSection = true → i = j
  permit : s.owner = .idle → s.inside = 0 → s.permits = 1
  newest : ∀ (i : Nat) (itr : UInt32), s.threads[i]? = some (.sleeping itr) → s.settled ≤ i + 1

/-! ### The account

A thread takes a permit before the section and gives one after it.  The gate has none to begin with,
so what there is has come from threads that gave without having taken.
-/

/-- Every permit comes from a thread that strayed, and `OnAlarm` is not called before there is
one. -/
structure Balanced (s : AlarmHandOver) : Prop where
  created : s.object.exitKeeper.created = true
  nonneg : 0 ≤ s.permits
  permits : s.permits + s.inside + s.held = s.strays
  alarms : s.alarms ≠ [] → 0 < s.strays

theorem balanced_new (listener : Bool) (numberOfTimes : UInt32) :
    Balanced (new listener numberOfTimes) where
  created := rfl
  nonneg := Int.le_refl 0
  permits := rfl
  alarms := fun h => absurd rfl h

/-- A step that leaves the account alone. -/
theorem Balanced.congr (h : Balanced s) (hkeeper : s'.object.exitKeeper = s.object.exitKeeper)
    (hinside : s'.inside = s.inside) (hstrays : s'.strays = s.strays) (hheld : s'.held = s.held)
    (halarms : s'.alarms = s.alarms) : Balanced s' where
  created := hkeeper ▸ h.created
  nonneg := by
    rw [AlarmHandOver.permits, hkeeper]
    exact h.nonneg
  permits := by
    rw [AlarmHandOver.permits, hkeeper, hinside, hheld, hstrays]
    exact h.permits
  alarms := by
    rw [halarms, hstrays]
    exact h.alarms

/-- A thread that goes on and stays on its side of the section. -/
theorem Balanced.move (h : Balanced s) {pc' : AlarmThreadPc} (hpc : s.threads[i]? = some pc)
    (hthreads : s'.threads = s.threads.set i pc')
    (hsection : pc'.inSection = pc.inSection) (hstrayed : pc'.strayed = pc.strayed)
    (hkeeper : s'.object.exitKeeper = s.object.exitKeeper) (howner : s'.owner = s.owner)
    (halarms : s'.alarms = s.alarms) : Balanced s' := by
  refine h.congr hkeeper ?_ ?_ (by rw [held, held, howner]) halarms
  · rw [inside, hthreads, Calls.countP_set_same hpc hsection, inside]
  · rw [strays, hthreads, Calls.countP_set_same hpc hstrayed, strays]

/-- A thread comes past its `Take`. -/
theorem Balanced.enter (h : Balanced s) {object : XLAlarm} (hpc : s.threads[i]? = some .entered)
    (htake : s.object.take = some object) :
    Balanced { s.move i (.looping 0) with object := object } := by
  obtain ⟨keeper, hkeeper, rfl⟩ := Option.map_eq_some_iff.mp htake
  obtain ⟨hfree, htaken, hcreated⟩ := XLSemaPhore.take_permits h.created hkeeper
  have hinside : (s.threads.set i (.looping 0)).countP AlarmThreadPc.inSection = s.inside + 1 :=
    Calls.countP_set_enter hpc rfl rfl
  have hstrays : (s.threads.set i (.looping 0)).countP AlarmThreadPc.strayed = s.strays :=
    Calls.countP_set_same hpc rfl
  have hbalance := h.permits
  refine ⟨hcreated, ?_, ?_, ?_⟩
  · rw [AlarmHandOver.permits, htaken]
    omega
  · have hpermits : keeper.permits.available = s.permits - 1 := htaken
    show keeper.permits.available + ((s.threads.set i (.looping 0)).countP _ : Nat) +
      (s.held : Nat) = ((s.threads.set i (.looping 0)).countP _ : Nat)
    rw [hinside, hstrays, hpermits]
    omega
  · show s.alarms ≠ [] → 0 < (s.threads.set i (.looping 0)).countP AlarmThreadPc.strayed
    rw [hstrays]
    exact h.alarms

/-- A thread calls `OnAlarm`; it is in the section. -/
theorem Balanced.alarm (h : Balanced s) {itr : UInt32} (hpc : s.threads[i]? = some (.sleeping itr))
    (alarms : List Nat) : Balanced { s.move i (.looping (itr + 1)) with alarms := alarms } := by
  have hmoved : Balanced (s.move i (.looping (itr + 1))) := h.move hpc rfl rfl rfl rfl rfl rfl
  have hinside : 0 < (s.move i (.looping (itr + 1))).inside := by
    have hsame : (s.move i (.looping (itr + 1))).inside = s.inside :=
      Calls.countP_set_same hpc rfl
    rw [hsame]
    exact Calls.countP_pos hpc rfl
  have hbalance := hmoved.permits
  have hnonneg := hmoved.nonneg
  refine ⟨hmoved.created, hmoved.nonneg, hmoved.permits, fun _ => ?_⟩
  show 0 < (s.move i (.looping (itr + 1))).strays
  omega

/-- A thread gives, and has strayed if it had not taken. -/
theorem Balanced.give (h : Balanced s) {ran : Bool} (hpc : s.threads[i]? = some (.giving ran)) :
    Balanced { s.move i (.ended ran) with object := s.object.give } := by
  obtain ⟨hgiven, hcreated⟩ := XLSemaPhore.give_permits h.created
  have hpermits : s.object.exitKeeper.give.permits.available = s.permits + 1 := hgiven
  have hinside := Calls.countP_set (.ended ran) AlarmThreadPc.inSection hpc
  have hstrays := Calls.countP_set (.ended ran) AlarmThreadPc.strayed hpc
  have hbalance := h.permits
  have hnonneg := h.nonneg
  refine ⟨hcreated, ?_, ?_, fun halarms => ?_⟩
  · show 0 ≤ s.object.exitKeeper.give.permits.available
    omega
  · show s.object.exitKeeper.give.permits.available +
        ((s.threads.set i (.ended ran)).countP AlarmThreadPc.inSection : Nat) + (s.held : Nat) =
      ((s.threads.set i (.ended ran)).countP AlarmThreadPc.strayed : Nat)
    rw [AlarmHandOver.inside, AlarmHandOver.strays] at hbalance
    cases ran <;> simp [AlarmThreadPc.inSection, AlarmThreadPc.strayed] at hinside hstrays <;> omega
  · have hpos := h.alarms halarms
    show 0 < (s.threads.set i (.ended ran)).countP AlarmThreadPc.strayed
    rw [AlarmHandOver.strays] at hpos
    cases ran <;> simp [AlarmThreadPc.strayed] at hstrays <;> omega

theorem Balanced.join (h : Balanced s) {ran : Bool} (hpc : s.threads[i]? = some (.joining ran))
    (hs : s.join i ran = some s') : Balanced s' := by
  unfold AlarmHandOver.join at hs
  split at hs
  · cases hs
    exact h.move hpc rfl rfl rfl rfl rfl rfl
  · split at hs
    · cases hs
      exact h.congr rfl rfl rfl rfl rfl
    · split at hs
      · cases hs
        exact h.move hpc rfl rfl rfl rfl rfl rfl
      · cases hs

theorem Balanced.threadStep (h : Balanced s) (hpc : s.threads[i]? = some pc)
    (hs : s.threadStep i pc = some s') : Balanced s' := by
  cases pc with
  | started =>
      cases hs
      exact h.move hpc rfl rfl rfl rfl rfl rfl
  | identified =>
      obtain ⟨sync1, -, rfl⟩ := Option.map_eq_some_iff.mp hs
      exact h.move hpc rfl rfl rfl rfl rfl rfl
  | taken =>
      cases hs
      refine h.move hpc rfl ?_ ?_ rfl rfl rfl <;> split <;> rfl
  | entered =>
      obtain ⟨object, htake, rfl⟩ := Option.map_eq_some_iff.mp hs
      exact h.enter hpc htake
  | looping itr =>
      cases hs
      refine h.move hpc rfl ?_ ?_ rfl rfl rfl <;> split <;> rfl
  | sleeping itr =>
      cases hs
      exact h.alarm hpc _
  | leaving ran | destroying1 ran | destroying2 ran =>
      cases hs
      exact h.move hpc rfl rfl rfl rfl rfl rfl
  | ranOut ran =>
      cases hs
      refine h.move hpc rfl ?_ ?_ rfl rfl rfl <;> split <;> rfl
  | syncing ran =>
      obtain ⟨sync2, -, rfl⟩ := Option.map_eq_some_iff.mp hs
      exact h.move hpc rfl rfl rfl rfl rfl rfl
  | joining ran => exact h.join hpc hs
  | giving ran =>
      cases hs
      exact h.give hpc
  | ended ran => cases hs

theorem held_of_ne (h : s.owner ≠ .giving) : s.held = 0 := if_neg h

/-- `Create` changes the threads by one that starts. -/
theorem Balanced.create (h : Balanced s) {pc : CreatePc} (howner : s.owner = .creating pc)
    (hs : s.create pc = some s') : Balanced s' := by
  obtain ⟨t, -, rfl⟩ := Option.map_eq_some_iff.mp hs
  refine h.congr rfl ?_ ?_ ?_ rfl
  · simp only [inside]
    split
    · rfl
    · rw [Calls.countP_concat]
      rfl
  · simp only [strays]
    split
    · rfl
    · rw [Calls.countP_concat]
      rfl
  · rw [held_of_ne (s := s) (by simp [howner])]
    refine held_of_ne ?_
    dsimp only
    split <;> simp

/-- `SetAlarm` takes the permit. -/
theorem Balanced.hold (h : Balanced s) {object : XLAlarm} (howner : s.owner = .taking)
    (htake : s.object.take = some object) :
    Balanced { s with object := object, owner := .giving } := by
  obtain ⟨keeper, hkeeper, rfl⟩ := Option.map_eq_some_iff.mp htake
  obtain ⟨hfree, htaken, hcreated⟩ := XLSemaPhore.take_permits h.created hkeeper
  have hpermits : keeper.permits.available = s.permits - 1 := htaken
  have hheld : s.held = 0 := held_of_ne (by simp [howner])
  have hbalance := h.permits
  refine ⟨hcreated, ?_, ?_, h.alarms⟩
  · show 0 ≤ keeper.permits.available
    rw [hpermits]
    exact Int.sub_nonneg_of_le hfree
  · show keeper.permits.available + (s.inside : Int) + 1 = (s.strays : Int)
    omega

/-- And gives it back. -/
theorem Balanced.release (h : Balanced s) (howner : s.owner = .giving) :
    Balanced { s with object := s.object.give, owner := .clearing } := by
  obtain ⟨hgiven, hcreated⟩ := XLSemaPhore.give_permits h.created
  have hpermits : s.object.exitKeeper.give.permits.available = s.permits + 1 := hgiven
  have hheld : s.held = 1 := if_pos howner
  have hbalance := h.permits
  have hnonneg := h.nonneg
  refine ⟨hcreated, ?_, ?_, h.alarms⟩
  · show 0 ≤ s.object.exitKeeper.give.permits.available
    omega
  · show s.object.exitKeeper.give.permits.available + (s.inside : Int) + 0 = (s.strays : Int)
    omega

theorem Balanced.ownerStep (h : Balanced s) (hs : s.ownerStep = some s') : Balanced s' := by
  cases howner : s.owner with
  | idle => simp [AlarmHandOver.ownerStep, howner] at hs
  | entered =>
      simp only [AlarmHandOver.ownerStep, howner] at hs
      cases hs
      refine h.congr rfl rfl rfl ?_ rfl
      rw [held_of_ne (s := s) (by simp [howner])]
      refine held_of_ne ?_
      dsimp only
      split <;> simp
  | resetting | clearing =>
      simp only [AlarmHandOver.ownerStep, howner] at hs
      cases hs
      exact h.congr rfl rfl rfl (by simp [held, howner]) rfl
  | taking =>
      simp only [AlarmHandOver.ownerStep, howner] at hs
      obtain ⟨object, htake, rfl⟩ := Option.map_eq_some_iff.mp hs
      exact h.hold howner htake
  | giving =>
      simp only [AlarmHandOver.ownerStep, howner] at hs
      cases hs
      exact h.release howner
  | creating pc =>
      simp only [AlarmHandOver.ownerStep, howner] at hs
      exact h.create howner hs

theorem balanced_next {l : HandOverStep} (h : Balanced s) (hs : s.next l = some s') :
    Balanced s' := by
  unfold next at hs
  split at hs
  · cases hs
  cases l with
  | setAlarm =>
      dsimp only at hs
      split at hs
      · rename_i howner
        cases hs
        exact h.congr rfl rfl rfl (by simp [held, howner]) rfl
      · cases hs
  | reset =>
      dsimp only at hs
      split at hs
      · cases hs
        exact h.congr rfl rfl rfl rfl rfl
      · cases hs
  | owner => exact h.ownerStep hs
  | thread i =>
      obtain ⟨pc, hpc, hstep⟩ := Option.bind_eq_some_iff.mp hs
      exact h.threadStep hpc hstep

/-! ### The hand-over -/

theorem not_handOver_new (listener : Bool) (numberOfTimes : UInt32) :
    ¬ HandOver (new listener numberOfTimes) := fun h => by
  have hone : (0 : Int) = 1 := h.permit rfl rfl
  omega

/--
No run keeps the hand-over, since it does not hold to begin with.  With no thread in the section
and no `SetAlarm` in progress there are as many permits as threads that strayed; and until one has,
none enters its loop, and `OnAlarm` is not called.
-/
theorem never_handOver {listener : Bool} {numberOfTimes : UInt32} {ls : List HandOverStep}
    (hrun : exec next (new listener numberOfTimes) ls = some s) :
    ¬ Throughout next HandOver (new listener numberOfTimes) ls ∧
      (s.owner = .idle → s.inside = 0 → s.permits = s.strays) ∧
      (s.strays = 0 → s.inside = 0 ∧ s.alarms = []) := by
  have h : Balanced s := exec_invariant (fun u l v hu hs => balanced_next hu hs)
    (balanced_new listener numberOfTimes) hrun
  have hbalance := h.permits
  have hnonneg := h.nonneg
  refine ⟨fun hall => not_handOver_new listener numberOfTimes hall.head,
    fun howner hinside => ?_, fun hstrays => ⟨by omega, ?_⟩⟩
  · have hheld : s.held = 0 := held_of_ne (by simp [howner])
    omega
  · by_contra halarms
    exact absurd (h.alarms halarms) (by omega)

/-- `SetAlarm` returns, and its thread comes to `RunProgram`. -/
def firstAlarm : List HandOverStep :=
  [.setAlarm, .owner, .owner, .owner, .owner, .owner, .owner, .owner, .owner,
    .thread 0, .thread 0, .thread 0]

theorem never_handOver_firstAlarm : ∃ s,
    exec next (new true 1) firstAlarm = some s ∧
      ¬ Throughout next HandOver (new true 1) firstAlarm ∧
      (s.owner = .idle → s.inside = 0 → s.permits = s.strays) ∧
      (s.strays = 0 → s.inside = 0 ∧ s.alarms = []) := by
  obtain ⟨s, hs⟩ := Option.isSome_iff_exists.mp
    (show (exec next (new true 1) firstAlarm).isSome = true by decide)
  exact ⟨s, hs, never_handOver hs⟩

/-- The first alarm thread waits for ever, with no other thread and no `SetAlarm` in progress. -/
theorem first_alarm_waits : ∃ s, exec next (new true 1) firstAlarm = some s ∧ s.owner = .idle ∧
    s.threads = [.entered] ∧ s.next (.thread 0) = none ∧ ¬ HandOver s := by
  refine ⟨_, rfl, rfl, rfl, rfl, fun h => ?_⟩
  exact absurd (h.permit rfl rfl) (by decide)

end AlarmHandOver

end ServClient
