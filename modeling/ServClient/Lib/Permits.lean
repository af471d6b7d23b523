/-
Counting semaphores, as a number of available permits.

A semaphore starts with some permits and may have a limit.  Taking needs a permit;
giving adds one, unless the limit is reached, where it does nothing.  A history is the
list of operations that completed.

Without a limit the permits are the ones it started with, plus the gives, minus the
takes.  A limit only ever loses permits, and loses none as long as nobody gives at the
limit: there the two kinds of semaphore allow the same histories.
-/
import ServClient.Lib.Runs

open Runs

/-- A permit is taken, or given. -/
inductive PermitOp
  | take
  | give
deriving DecidableEq, Repr

/-- The permits there are, and how many there may be at most. -/
structure Permits where
  available : Int
  limit : Option Int
deriving DecidableEq, Repr

namespace Permits

/-- One completed operation. -/
def next (s : Permits) : PermitOp → Option Permits
  | .take => if 0 < s.available then some { s with available := s.available - 1 } else none
  | .give =>
      match s.limit with
      | none => some { s with available := s.available + 1 }
      | some m => some (if s.available < m then { s with available := s.available + 1 } else s)

/-- The number of completed takes. -/
def takes (h : List PermitOp) : Nat := h.count .take

/-- The number of completed gives. -/
def gives (h : List PermitOp) : Nat := h.count .give

@[simp] theorem takes_nil : takes [] = 0 := rfl
@[simp] theorem gives_nil : gives [] = 0 := rfl
@[simp] theorem takes_cons_take (h : List PermitOp) : takes (.take :: h) = takes h + 1 := by
  simp [takes]
@[simp] theorem takes_cons_give (h : List PermitOp) : takes (.give :: h) = takes h := by
  simp [takes]
@[simp] theorem gives_cons_take (h : List PermitOp) : gives (.take :: h) = gives h := by
  simp [gives]
@[simp] theorem gives_cons_give (h : List PermitOp) : gives (.give :: h) = gives h + 1 := by
  simp [gives]

/-- Nobody gives while the permits are at the limit. -/
def BelowLimit (s : Permits) (op : PermitOp) : Prop :=
  op = .give → ∀ m, s.limit = some m → s.available < m

theorem next_available_le {s t : Permits} {op : PermitOp} (h : s.next op = some t) :
    t.available + takes [op] ≤ s.available + gives [op] := by
  cases op with
  | take =>
      simp only [next] at h
      split at h
      · cases h; simp
      · cases h
  | give =>
      simp only [next] at h
      split at h
      · cases h; simp
      · split at h
        · cases h; simp
        · cases h; simp only [takes_cons_give, takes_nil, gives_cons_give, gives_nil]; omega

theorem next_nonneg {s t : Permits} {op : PermitOp} (hs : 0 ≤ s.available)
    (h : s.next op = some t) : 0 ≤ t.available := by
  cases op with
  | take =>
      simp only [next] at h
      split at h
      · cases h; simp only; omega
      · cases h
  | give =>
      simp only [next] at h
      split at h
      · cases h; simp only; omega
      · split at h
        · cases h; simp only; omega
        · cases h; exact hs

/-! ### Histories

What a history of takes and gives can say of the permits without a look at the calls that make it:
there are never fewer than none, and takes are paid for.
-/

/-- Permits are never negative. -/
theorem exec_nonneg {s t : Permits} {h : List PermitOp} (hs : 0 ≤ s.available)
    (hrun : exec next s h = some t) : 0 ≤ t.available :=
  exec_invariant (I := fun u => 0 ≤ u.available)
    (fun _ _ _ hu hstep => next_nonneg hu hstep) hs hrun

theorem exec_available_le :
    ∀ {s t : Permits} {h : List PermitOp}, exec next s h = some t →
      t.available + takes h ≤ s.available + gives h := by
  intro s t h hrun
  induction h generalizing s with
  | nil => cases hrun; simp
  | cons op rest ih =>
      obtain ⟨u, hop, hrest⟩ := exec_cons_eq_some.mp hrun
      have hone := next_available_le hop
      have hmany := ih hrest
      cases op with
      | take => simp at hone ⊢; omega
      | give => simp at hone ⊢; omega

/-- Takes are paid for by the permits at the start and by gives. -/
theorem takes_le {s t : Permits} {h : List PermitOp} (hs : 0 ≤ s.available)
    (hrun : exec next s h = some t) : (takes h : Int) ≤ s.available + gives h := by
  have hle := exec_available_le hrun
  have hnonneg := exec_nonneg hs hrun
  omega

/-- Taking never meets the limit. -/
theorem belowLimit_takes (n : Nat) (s : Permits) :
    Along next BelowLimit s (List.replicate n .take) := by
  induction n generalizing s with
  | zero => trivial
  | succ n ih => exact ⟨fun hgive => (by cases hgive), fun u _ => ih u⟩

/-- Taking as long as there are permits. -/
theorem exec_replicate_take :
    ∀ (n : Nat) {s : Permits}, (n : Int) ≤ s.available →
      exec next s (List.replicate n .take) = some { s with available := s.available - n } := by
  intro n
  induction n with
  | zero => intro s _; simp
  | succ n ih =>
      intro s hn
      rw [List.replicate_succ, exec_cons]
      have hpos : 0 < s.available := by omega
      simp only [next, if_pos hpos, Option.bind_some]
      rw [ih (s := { s with available := s.available - 1 }) (by simp only; omega)]
      simp only [Option.some.injEq, Permits.mk.injEq, and_true]
      omega

/--
Without a limit, the same history with the same permits at the start goes through exactly as it
does with a limit that is never reached.
-/
theorem exec_limited_iff {a m b : Int} :
    ∀ {h : List PermitOp}, Along next BelowLimit ⟨a, some m⟩ h →
      (exec next ⟨a, some m⟩ h = some ⟨b, some m⟩ ↔ exec next ⟨a, none⟩ h = some ⟨b, none⟩) := by
  intro h hb
  induction h generalizing a with
  | nil => simp
  | cons op rest ih =>
      cases op with
      | take =>
          by_cases hpos : 0 < a
          · have hstep : next ⟨a, some m⟩ .take = some ⟨a - 1, some m⟩ := by simp [next, hpos]
            simpa [exec_cons, next, hpos] using ih (hb.2 _ hstep)
          · simp [exec_cons, next, hpos]
      | give =>
          have hlt : a < m := hb.1 rfl m rfl
          have hstep : next ⟨a, some m⟩ .give = some ⟨a + 1, some m⟩ := by simp [next, hlt]
          simpa [exec_cons, next, hlt] using ih (hb.2 _ hstep)

end Permits
