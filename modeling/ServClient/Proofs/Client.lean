/-
The permits of a client's gate.

A running client has the permit that its `OnStart` took, and `OnEnd` gives it back; so with no
call in progress the gate has the permits it was created with, less one if the client runs.
That is the protocol if there was one permit to begin with.  But `Create(1, 1)` makes a gate
with none: the first `Start` waits in `OnStart`, and so does the destructor of a client that was
never started.
-/
import ServClient.Client
import ServClient.Proofs.SemaPhore

namespace ServClient

open Runs

namespace GateRun

variable {r r' : GateRun}

/-- How many permits the gate has. -/
def permits (r : GateRun) : Int := r.object.gatekeeper.permits.available

/-- The client runs. -/
def running (r : GateRun) : Int := if r.object.client.isSome then 1 else 0

/-- With no call in progress there is one permit if the client is stopped, and none if it runs. -/
def GateLaw (r : GateRun) : Prop := r.idle = true → r.permits = 1 - r.running

theorem idle_iff : r.idle = true ↔ r.starting = 0 ∧ r.destroying = false ∧ r.gone = false := by
  simp [idle, and_assoc]

/-! ### What a step does -/

/-- What one step does to the permits, the client and the calls that wait. -/
inductive Moves (r r' : GateRun) : GateStep → Prop
  | enters {created : Bool} (hnone : r.object.client = none)
      (hclient : r'.object.client = some created)
      (hgate : r'.object.gatekeeper = r.object.gatekeeper)
      (hstarting : r'.starting = r.starting + 1) (hdestroying : r'.destroying = r.destroying)
      (hgone : r'.gone = r.gone) :
      Moves r r' (.start created)
  | runs {created : Bool} (hsome : r.object.client.isSome) (hsame : r' = r) :
      Moves r r' (.start created)
  | takes (hpos : 0 < r.starting) (htake : r.object.gatekeeper.take = some r'.object.gatekeeper)
      (hclient : r'.object.client = r.object.client) (hstarting : r'.starting = r.starting - 1)
      (hdestroying : r'.destroying = r.destroying) (hgone : r'.gone = r.gone) :
      Moves r r' .onStart
  | stops {created : Bool} (hsome : r.object.client = some created)
      (hclient : r'.object.client = none)
      (hgate : r'.object.gatekeeper =
        if created then r.object.gatekeeper.give else r.object.gatekeeper)
      (hstarting : r'.starting = r.starting) (hdestroying : r'.destroying = r.destroying)
      (hgone : r'.gone = r.gone) : Moves r r' .stop
  | stopped (hnone : r.object.client = none) (hsame : r' = r) : Moves r r' .stop
  | destroys (hidle : r.idle = true) (hobject : r'.object = r.object)
      (hstarting : r'.starting = r.starting) (hdestroying : r'.destroying = true)
      (hgone : r'.gone = r.gone) : Moves r r' .destroy
  | destroyed (htake : ∃ gate, r.object.gatekeeper.take = some gate)
      (hdestroying : r.destroying = true) (hclient : r'.object.client = r.object.client)
      (hgone : r'.gone = true) : Moves r r' .destroyed

theorem moves_of_next {l : GateStep} (h : r.next l = some r') : Moves r r' l := by
  cases l with
  | start created =>
      simp only [next] at h
      split at h
      · cases h
      · cases h
        cases hclient : r.object.client with
        | none =>
            exact .enters hclient (by simp [XLClient.start, hclient])
              (by simp [XLClient.start, hclient]) (by simp [XLClient.start, hclient]) rfl rfl
        | some running => exact .runs (by simp [hclient]) (by simp [XLClient.start, hclient])
  | onStart =>
      simp only [next] at h
      split at h
      · cases h
      · rename_i hpos
        obtain ⟨object, hobject, rfl⟩ := Option.map_eq_some_iff.mp h
        obtain ⟨gate, htake, rfl⟩ := Option.map_eq_some_iff.mp hobject
        exact .takes (Nat.pos_of_ne_zero hpos) htake rfl rfl rfl rfl
  | stop =>
      simp only [next] at h
      split at h
      · cases h
      · cases h
        cases hclient : r.object.client with
        | none => exact .stopped hclient (by simp [XLClient.stop, hclient])
        | some created =>
            cases created with
            | false =>
                exact .stops hclient (by simp [XLClient.stop, hclient])
                  (by simp [XLClient.stop, hclient]) rfl rfl rfl
            | true =>
                exact .stops hclient (by simp [XLClient.stop, hclient])
                  (by simp [XLClient.stop, hclient, XLClient.onEnd]) rfl rfl rfl
  | destroy =>
      simp only [next] at h
      split at h
      · rename_i hidle
        cases h
        exact .destroys hidle rfl rfl rfl rfl
      · cases h
  | destroyed =>
      simp only [next] at h
      split at h
      · rename_i hdestroying
        obtain ⟨object, hobject, rfl⟩ := Option.map_eq_some_iff.mp h
        obtain ⟨gate, htake, rfl⟩ := Option.map_eq_some_iff.mp hobject
        exact .destroyed ⟨gate, htake⟩ hdestroying rfl rfl
      · cases h

/-! ### The account

Permits, the client that runs, and the calls that wait make up one sum.  It is the same after every
step, so the law of the gate is a matter of what it is to begin with.
-/

/-- The permits, with those of the running client and less those that calls of `Start` still wait
for. -/
def account (r : GateRun) : Int := r.permits + r.running - r.starting

theorem running_none (h : r.object.client = none) : r.running = 0 := by
  rw [running, h]
  rfl

theorem running_some {created : Bool} (h : r.object.client = some created) : r.running = 1 := by
  rw [running, h]
  rfl

/-- A step keeps the account, except that `Stop` gives nothing back for a client whose event thread
was not created. -/
theorem account_next {l : GateStep}
    (hcreated : r.gone = false → r.object.gatekeeper.created = true) (hs : r.next l = some r')
    (hgone' : r'.gone = false) :
    r.gone = false ∧ r'.object.gatekeeper.created = true ∧ (0 ≤ r.permits → 0 ≤ r'.permits) ∧
      r'.account = if l = .stop ∧ r.object.client = some false then r.account - 1
        else r.account := by
  cases moves_of_next hs with
  | enters hnone hclient hgate hstarting hdestroying hgone =>
      have hlive : r.gone = false := hgone ▸ hgone'
      have hsame : r'.permits = r.permits := by rw [GateRun.permits, hgate, GateRun.permits]
      have hone := running_some hclient
      have hzero := running_none hnone
      refine ⟨hlive, hgate ▸ hcreated hlive, fun h => hsame ▸ h, ?_⟩
      rw [if_neg (by simp), account, account, hsame, hstarting]
      omega
  | runs hsome hsame =>
      subst hsame
      exact ⟨hgone', hcreated hgone', id, by rw [if_neg (by simp)]⟩
  | takes hpos htake hclient hstarting hdestroying hgone =>
      have hlive : r.gone = false := hgone ▸ hgone'
      obtain ⟨hfree, htaken, hcreated'⟩ := XLSemaPhore.take_permits (hcreated hlive) htake
      have hpermits : r'.permits = r.permits - 1 := htaken
      have hfree' : 0 < r.permits := hfree
      have hrunning : r'.running = r.running := by rw [running, hclient, running]
      refine ⟨hlive, hcreated', fun _ => by omega, ?_⟩
      rw [if_neg (by simp), account, account, hpermits, hrunning, hstarting]
      omega
  | @stops created hsome hclient hgate hstarting hdestroying hgone =>
      have hlive : r.gone = false := hgone ▸ hgone'
      have hone := running_some hsome
      have hzero := running_none hclient
      cases created with
      | true =>
          rw [if_pos rfl] at hgate
          obtain ⟨hgiven, hcreated'⟩ := XLSemaPhore.give_permits (hcreated hlive)
          have hpermits : r'.permits = r.permits + 1 := by rw [GateRun.permits, hgate, hgiven]; rfl
          refine ⟨hlive, hgate ▸ hcreated', fun _ => by omega, ?_⟩
          rw [if_neg (by simp [hsome]), account, account, hpermits, hstarting]
          omega
      | false =>
          rw [if_neg Bool.false_ne_true] at hgate
          have hsame : r'.permits = r.permits := by rw [GateRun.permits, hgate, GateRun.permits]
          refine ⟨hlive, hgate ▸ hcreated hlive, fun h => hsame ▸ h, ?_⟩
          rw [if_pos ⟨rfl, hsome⟩, account, account, hsame, hstarting]
          omega
  | stopped hnone hsame =>
      subst hsame
      exact ⟨hgone', hcreated hgone', id, by rw [if_neg (by simp [hnone])]⟩
  | destroys hidle hobject hstarting hdestroying hgone =>
      have hlive : r.gone = false := hgone ▸ hgone'
      have hpermits : r'.permits = r.permits := by rw [GateRun.permits, hobject, GateRun.permits]
      have hrunning : r'.running = r.running := by rw [running, hobject, running]
      refine ⟨hlive, hobject ▸ hcreated hlive, fun h => hpermits ▸ h, ?_⟩
      rw [if_neg (by simp), account, account, hpermits, hrunning, hstarting]
  | destroyed htake hdestroying hclient hgone => cases hgone.symm.trans hgone'

/-! ### A gate with `n` permits -/

/-- The client that a `Start` makes gets its event thread. -/
def Creates (_ : GateRun) (l : GateStep) : Prop := ∀ created, l = .start created → created = true

/-- The gate has its `n` permits, less one if the client runs and its `OnStart` has returned. -/
structure Balanced (n : Int) (r : GateRun) : Prop where
  created : r.gone = false → r.object.gatekeeper.created = true
  account : r.gone = false → r.account = n
  client : r.object.client ≠ some false

theorem balanced_ofGate {gate : XLSemaPhore} (hcreated : gate.created = true) :
    Balanced gate.permits.available (ofGate gate) where
  created := fun _ => hcreated
  account := fun _ => by
    simp [GateRun.account, GateRun.permits, ofGate, XLClient.ofGate, running]
  client := by simp [ofGate, XLClient.ofGate]

theorem balanced_next {n : Int} {l : GateStep} (h : Balanced n r) (hl : Creates r l)
    (hs : r.next l = some r') : Balanced n r' := by
  refine ⟨fun h' => (account_next h.created hs h').2.1, fun h' => ?_, ?_⟩
  · obtain ⟨hlive, -, -, haccount⟩ := account_next h.created hs h'
    rw [haccount, if_neg (fun hstop => h.client hstop.2), h.account hlive]
  · cases moves_of_next hs with
    | @enters created _ hclient _ _ _ _ =>
        rw [hclient, hl created rfl]
        simp
    | runs _ hsame | stopped _ hsame => exact hsame ▸ h.client
    | takes _ _ hclient _ _ _ | destroyed _ _ hclient _ => exact hclient ▸ h.client
    | stops _ hclient _ _ _ _ => simp [hclient]
    | destroys _ hobject _ _ _ => exact hobject ▸ h.client

/-- The law holds throughout if and only if the gate is created with one permit, as long as every
event thread is created. -/
theorem throughout_gateLaw_iff {gate : XLSemaPhore} (hcreated : gate.created = true)
    {ls : List GateStep} (hcreates : Along next Creates (ofGate gate) ls) :
    Throughout next GateLaw (ofGate gate) ls ↔ gate.permits.available = 1 := by
  constructor
  · intro h
    have hfirst := h.head rfl
    simpa [GateRun.permits, ofGate, XLClient.ofGate, running] using hfirst
  · intro hone
    refine throughout_of_along (I := Balanced 1) (fun u l v hu hl hs => balanced_next hu hl hs)
      (fun u hu hidle => ?_) (hone ▸ balanced_ofGate hcreated) hcreates
    obtain ⟨hstarting, -, hgone⟩ := idle_iff.mp hidle
    have haccount := hu.account hgone
    rw [account, hstarting] at haccount
    omega

/-! ### The gate of the constructor

`Create(1, 1)` makes a gate with its one permit taken.  The sum is then zero, and with no call in
progress there is no permit for a `Start` to take.
-/

/-- There are no more permits than calls of `Start` that have not taken theirs. -/
structure Shut (r : GateRun) : Prop where
  created : r.gone = false → r.object.gatekeeper.created = true
  nonneg : r.gone = false → 0 ≤ r.permits
  account : r.gone = false → r.account ≤ 0

theorem shut_new : Shut new where
  created := fun _ => rfl
  nonneg := fun _ => by decide
  account := fun _ => by decide

theorem shut_next {l : GateStep} (h : Shut r) (hs : r.next l = some r') : Shut r' := by
  refine ⟨fun h' => ?_, fun h' => ?_, fun h' => ?_⟩
  · exact (account_next h.created hs h').2.1
  · obtain ⟨hlive, -, hnonneg, -⟩ := account_next h.created hs h'
    exact hnonneg (h.nonneg hlive)
  · obtain ⟨hlive, -, -, haccount⟩ := account_next h.created hs h'
    have hle := h.account hlive
    rw [haccount]
    split <;> omega

/-- With no call in progress the client is stopped, and there is no permit. -/
theorem Shut.idle (h : Shut r) (hidle : r.idle = true) :
    r.object.client = none ∧ r.permits = 0 := by
  obtain ⟨hstarting, -, hgone⟩ := idle_iff.mp hidle
  have hnonneg := h.nonneg hgone
  have haccount := h.account hgone
  rw [GateRun.account, hstarting] at haccount
  cases hclient : r.object.client with
  | none =>
      rw [running_none hclient] at haccount
      exact ⟨rfl, by omega⟩
  | some created =>
      rw [running_some hclient] at haccount
      omega

/--
Whatever calls are made, with none in progress the law does not hold: the client is stopped and
there is no permit.  A `Start` that is then called waits in `OnStart`, and the destructor waits.
-/
theorem never_gateLaw {ls : List GateStep} (hrun : exec next new ls = some r)
    (hidle : r.idle = true) :
    ¬ GateLaw r ∧ r.object.client = none ∧
      (∀ created r', r.next (.start created) = some r' → r'.next .onStart = none) ∧
      ∀ r', r.next .destroy = some r' → r'.next .destroyed = none := by
  have hshut : Shut r := exec_invariant (fun s l s' h hs => shut_next h hs) shut_new hrun
  obtain ⟨hnone, hzero⟩ := hshut.idle hidle
  obtain ⟨hstarting, hdestroying, hgone⟩ := idle_iff.mp hidle
  have htake : r.object.gatekeeper.take = none :=
    XLSemaPhore.take_eq_none (hshut.created hgone) hzero
  refine ⟨fun hlaw => ?_, hnone, fun created r' hs => ?_, fun r' hs => ?_⟩
  · have hone := hlaw hidle
    rw [hzero, running_none hnone] at hone
    omega
  · cases moves_of_next hs with
    | enters _ _ hgate _ _ _ => simp [next, XLClient.onStart, hgate, htake]
    | runs hsome _ => simp [hnone] at hsome
  · cases moves_of_next hs with
    | destroys _ hobject _ _ _ => simp [next, XLClient.destroy, hobject, htake]

/-- A `Start` waits, `Stop` gives the permit that lets it through, and the next `Start` waits. -/
theorem never_gateLaw_stopped :
    ∃ r, exec next new [.start true, .stop, .onStart] = some r ∧
      ¬ GateLaw r ∧ r.object.client = none ∧
      (∀ created r', r.next (.start created) = some r' → r'.next .onStart = none) ∧
      ∀ r', r.next .destroy = some r' → r'.next .destroyed = none := by
  obtain ⟨r, hr, hidle⟩ := (Option.any_eq_true _ _).mp
    (show (exec next new [.start true, .stop, .onStart]).any idle = true by decide)
  exact ⟨r, hr, never_gateLaw hr hidle⟩

/-- The first `Start` of a client waits for ever. -/
theorem first_start_waits : ∃ r, exec next new [.start true] = some r ∧
    r.object.client = some true ∧ r.starting = 1 ∧ r.next .onStart = none ∧ ¬ GateLaw new := by
  refine ⟨_, rfl, rfl, rfl, rfl, fun h => ?_⟩
  exact absurd (h rfl) (by decide)

end GateRun

end ServClient
