/-
What is taken and given back, read off a log.

A log is a list of events, and `entry` says of each whether it takes something, gives
something back, or is neither here nor there.  `held` is what a log leaves in hand.

A log is settled when only what is held is ever given back and, in the end, everything is.
For that it is enough that nothing is held in the end (`settled_iff`).
-/
import Mathlib.Data.List.Induction
import Mathlib.Tactic.Common

namespace Ledger

/-- What an event has to do with an account. -/
inductive Entry (α : Type*)
  | take (a : α)
  | give (a : α)
  | other
deriving DecidableEq

variable {ε α : Type*} [DecidableEq α] {entry : ε → Entry α}

/-- What is in hand after one more event. -/
def add (entry : ε → Entry α) (inHand : List α) (e : ε) : List α :=
  match entry e with
  | .take a => a :: inHand
  | .give a => inHand.erase a
  | .other => inHand

/-- What a log leaves in hand. -/
def held (entry : ε → Entry α) (log : List ε) : List α := log.foldl (add entry) []

theorem held_concat (log : List ε) (e : ε) :
    held entry (log ++ [e]) = add entry (held entry log) e := by
  rw [held, List.foldl_append]
  rfl

theorem add_take {inHand : List α} {e : ε} {a : α} (h : entry e = .take a) :
    add entry inHand e = a :: inHand := by rw [add, h]

theorem add_give {inHand : List α} {e : ε} {a : α} (h : entry e = .give a) :
    add entry inHand e = inHand.erase a := by rw [add, h]

theorem add_other {inHand : List α} {e : ε} (h : entry e = .other) :
    add entry inHand e = inHand := by rw [add, h]

/-- What is held was taken. -/
theorem exists_take_of_held {log : List ε} {a : α} (h : a ∈ held entry log) :
    ∃ e ∈ log, entry e = .take a := by
  induction log using List.reverseRecOn with
  | nil => cases h
  | append_singleton log e ih =>
      have hlater (hlog : a ∈ held entry log) : ∃ f ∈ log ++ [e], entry f = .take a := by
        obtain ⟨f, hf, htake⟩ := ih hlog
        exact ⟨f, List.mem_append_left _ hf, htake⟩
      rw [held_concat] at h
      cases he : entry e with
      | take b =>
          rw [add_take he] at h
          rcases List.mem_cons.mp h with rfl | hlog
          · exact ⟨e, by simp, he⟩
          · exact hlater hlog
      | give b =>
          rw [add_give he] at h
          exact hlater (List.mem_of_mem_erase h)
      | other =>
          rw [add_other he] at h
          exact hlater h

/-- What is held at one time and not later was given back in between. -/
theorem exists_give {before after : List ε} {a : α} (h : a ∈ held entry before)
    (hgone : a ∉ held entry (before ++ after)) : ∃ e ∈ after, entry e = .give a := by
  induction after using List.reverseRecOn with
  | nil => exact absurd (by simpa using h) hgone
  | append_singleton after e ih =>
      have hlater (hlog : a ∉ held entry (before ++ after)) :
          ∃ f ∈ after ++ [e], entry f = .give a := by
        obtain ⟨f, hf, hgive⟩ := ih hlog
        exact ⟨f, List.mem_append_left _ hf, hgive⟩
      rw [← List.append_assoc, held_concat] at hgone
      cases he : entry e with
      | take b =>
          rw [add_take he] at hgone
          exact hlater fun hlog => hgone (List.mem_cons_of_mem b hlog)
      | give b =>
          rw [add_give he] at hgone
          by_cases hab : b = a
          · exact ⟨e, by simp, by rw [he, hab]⟩
          · exact hlater fun hlog =>
              hgone ((List.mem_erase_of_ne fun h => hab h.symm).mpr hlog)
      | other =>
          rw [add_other he] at hgone
          exact hlater hgone

/-! ### Logs that give back only what is held

A log of what is taken and given back.  It is sound if nothing is given back that is not in hand,
which can be said of each event as it is appended.
-/

/-- Nothing is given back that was not in hand. -/
def Sound (entry : ε → Entry α) (log : List ε) : Prop :=
  ∀ before e after a, log = before ++ e :: after → entry e = .give a → a ∈ held entry before

theorem sound_nil : Sound entry ([] : List ε) := fun before e after a h _ => by
  simp at h

theorem Sound.of_append {log more : List ε} (h : Sound entry (log ++ more)) : Sound entry log :=
  fun before e after a hlog hgive =>
    h before e (after ++ more) a (by rw [hlog]; simp) hgive

/-- One more event: what it gives back, if anything, must be held. -/
theorem sound_concat {log : List ε} {e : ε} :
    Sound entry (log ++ [e]) ↔
      Sound entry log ∧ ∀ a, entry e = .give a → a ∈ held entry log := by
  constructor
  · intro h
    exact ⟨h.of_append, fun a hgive => h log e [] a rfl hgive⟩
  · rintro ⟨hlog, hlast⟩ before f after a heq hgive
    rcases List.eq_nil_or_concat after with rfl | ⟨after, g, rfl⟩
    · obtain ⟨rfl, hef⟩ := List.append_inj' heq rfl
      cases hef
      exact hlast a hgive
    · rw [List.concat_eq_append, ← List.cons_append, ← List.append_assoc] at heq
      obtain ⟨rfl, -⟩ := List.append_inj' heq rfl
      exact hlog before f after a rfl hgive

theorem Sound.concat_other {log : List ε} (h : Sound entry log) {e : ε} (he : entry e = .other) :
    Sound entry (log ++ [e]) := by
  refine sound_concat.mpr ⟨h, fun a hgive => ?_⟩
  rw [he] at hgive
  cases hgive

/-- Events that take and give nothing. -/
theorem held_append_other {log more : List ε} (h : ∀ e ∈ more, entry e = .other) :
    held entry (log ++ more) = held entry log := by
  induction more using List.reverseRecOn with
  | nil => rw [List.append_nil]
  | append_singleton more e ih =>
      rw [← List.append_assoc, held_concat, add_other (h e (by simp)),
        ih fun f hf => h f (List.mem_append_left _ hf)]

theorem sound_append_other {log more : List ε} (h : ∀ e ∈ more, entry e = .other) :
    Sound entry (log ++ more) ↔ Sound entry log := by
  induction more using List.reverseRecOn with
  | nil => rw [List.append_nil]
  | append_singleton more e ih =>
      rw [← List.append_assoc, ← ih fun f hf => h f (List.mem_append_left _ hf)]
      exact ⟨Sound.of_append, fun hlog => hlog.concat_other (h e (by simp))⟩

/-- In a sound log, what was taken was given back or is held. -/
theorem Sound.count {log : List ε} (h : Sound entry log) (a : α) :
    log.countP (entry · = .take a) =
      log.countP (entry · = .give a) + (held entry log).count a := by
  induction log using List.reverseRecOn with
  | nil => rfl
  | append_singleton log e ih =>
      obtain ⟨hlog, hlast⟩ := sound_concat.mp h
      have hcount := ih hlog
      rw [held_concat, List.countP_append, List.countP_append]
      cases he : entry e with
      | take b =>
          rw [add_take he, List.count_cons]
          by_cases hab : b = a <;> simp [he, hab] <;> omega
      | give b =>
          have hmem := hlast b he
          rw [add_give he]
          by_cases hab : b = a
          · subst hab
            have hpos := List.count_pos_iff.mpr hmem
            rw [List.count_erase_self]
            simp [he]
            omega
          · rw [List.count_erase_of_ne fun h => hab h.symm]
            simp [he, hab]
            omega
      | other =>
          rw [add_other he]
          simp [he]
          omega

/-! ### Settled logs -/

/--
Everything taken is given back exactly once: as often as it was taken, only while it is held,
and after every moment at which it is held.
-/
structure Settled (entry : ε → Entry α) (log : List ε) : Prop where
  once : ∀ a, log.countP (entry · = .take a) = log.countP (entry · = .give a)
  sound : Sound entry log
  later : ∀ before after a, log = before ++ after → a ∈ held entry before →
    ∃ e ∈ after, entry e = .give a

theorem settled_iff {log : List ε} :
    Settled entry log ↔ Sound entry log ∧ held entry log = [] := by
  constructor
  · intro h
    refine ⟨h.sound, List.eq_nil_iff_forall_not_mem.mpr fun a ha => ?_⟩
    obtain ⟨e, he, -⟩ := h.later log [] a (by simp) ha
    cases he
  · rintro ⟨hsound, hnone⟩
    refine ⟨fun a => ?_, hsound, ?_⟩
    · have := hsound.count a
      rw [hnone] at this
      simpa using this
    · rintro before after a rfl ha
      exact exists_give ha (by simp [hnone])

end Ledger
