/-
Runs of a machine given by a guarded step function.

A machine is a function `next : σ → ι → Option σ`: what the step labelled `l` does
to a state, and `none` where that step is not enabled.  Every choice — which
thread moves, what the environment answers — is in the label, so a list of labels
is a schedule and `exec` replays it.

Six rules are all the developments above need.

  * An invariant kept by every step holds after every run.
  * Where steps keep it only under a condition, it holds after every run whose
    steps meet the condition; and where a step that misses the condition always
    breaks the property, the condition is exact (`throughout_iff_along`).
  * A simulation between two machines lifts from steps to runs.
  * What no step depends on no run depends on (`exec_alike`).
  * A goal that some step always brings nearer can be reached, and again (`exec_reaches`), and
    where no step leaves or enters what it is reached from, from nowhere else (`reaches_iff`).
  * Where steps of one kind bring it nearer, the others limit how many of these there can be
    (`exec_countP_le`).
-/
import Mathlib.Data.List.Basic
import Mathlib.Tactic.Common

namespace Runs

variable {σ ι τ κ : Type*}

/-- Replay a schedule; `none` as soon as a step is not enabled. -/
def exec (next : σ → ι → Option σ) : σ → List ι → Option σ
  | s, [] => some s
  | s, l :: ls => (next s l).bind fun s' => exec next s' ls

@[simp] theorem exec_nil (next : σ → ι → Option σ) (s : σ) : exec next s [] = some s := rfl

theorem exec_cons (next : σ → ι → Option σ) (s : σ) (l : ι) (ls : List ι) :
    exec next s (l :: ls) = (next s l).bind fun s' => exec next s' ls := rfl

theorem exec_cons_eq_some {next : σ → ι → Option σ} {s t : σ} {l : ι} {ls : List ι} :
    exec next s (l :: ls) = some t ↔ ∃ s', next s l = some s' ∧ exec next s' ls = some t := by
  rw [exec_cons, Option.bind_eq_some_iff]

theorem exec_single {next : σ → ι → Option σ} {s t : σ} {l : ι} (h : next s l = some t) :
    exec next s [l] = some t := by
  rw [exec_cons, h]
  rfl

/-- Running two schedules one after the other. -/
theorem exec_append (next : σ → ι → Option σ) :
    ∀ (s : σ) (ls ms : List ι),
      exec next s (ls ++ ms) = (exec next s ls).bind fun s' => exec next s' ms := by
  intro s ls
  induction ls generalizing s with
  | nil => intro ms; rfl
  | cons l rest ih =>
      intro ms
      rw [List.cons_append, exec_cons, exec_cons, Option.bind_assoc]
      cases next s l with
      | none => rfl
      | some s' => exact ih s' ms

theorem exec_append_some {next : σ → ι → Option σ} {s t u : σ} {ls ms : List ι}
    (h : exec next s ls = some t) (h' : exec next t ms = some u) :
    exec next s (ls ++ ms) = some u := by
  rw [exec_append, h]
  exact h'

/-- A run of a part is a run of the whole, where each of its steps is one. -/
theorem exec_lift {next₁ : σ → ι → Option σ} {next₂ : τ → κ → Option τ} (whole : σ → τ)
    (label : ι → κ) : ∀ {s t : σ} {ls : List ι},
      (∀ l ∈ ls, ∀ u v, next₁ u l = some v → next₂ (whole u) (label l) = some (whole v)) →
      exec next₁ s ls = some t → exec next₂ (whole s) (ls.map label) = some (whole t) := by
  intro s t ls hstep h
  induction ls generalizing s with
  | nil => cases h; rfl
  | cons l rest ih =>
      obtain ⟨s', hl, hrest⟩ := exec_cons_eq_some.mp h
      exact exec_cons_eq_some.mpr ⟨whole s', hstep l List.mem_cons_self s s' hl,
        ih (fun m hm => hstep m (List.mem_cons_of_mem l hm)) hrest⟩

/-! ### Invariants

The two forms in which a development says that something holds: of the steps of a run (`Along`) and
of its states (`Throughout`).  Each induction over runs is made here, once.
-/

/-- A property every step keeps holds at the end of every run. -/
theorem exec_invariant {next : σ → ι → Option σ} {I : σ → Prop}
    (hstep : ∀ s l s', I s → next s l = some s' → I s') :
    ∀ {s t : σ} {ls : List ι}, I s → exec next s ls = some t → I t := by
  intro s t ls hs h
  induction ls generalizing s with
  | nil => cases h; exact hs
  | cons l rest ih =>
      obtain ⟨s', hl, hrest⟩ := exec_cons_eq_some.mp h
      exact ih (hstep s l s' hs hl) hrest

/-- Every step of the run meets `Q`, a condition on the label and the state before it. -/
def Along (next : σ → ι → Option σ) (Q : σ → ι → Prop) : σ → List ι → Prop
  | _, [] => True
  | s, l :: ls => Q s l ∧ ∀ s', next s l = some s' → Along next Q s' ls

/-- A concrete run can be checked by replaying it. -/
instance Along.decide (next : σ → ι → Option σ) (Q : σ → ι → Prop) [∀ s l, Decidable (Q s l)] :
    ∀ s ls, Decidable (Along next Q s ls)
  | _, [] => isTrue trivial
  | s, l :: ls =>
      match h : next s l with
      | none => decidable_of_iff (Q s l)
          ⟨fun hQ => ⟨hQ, fun s' hs' => by rw [h] at hs'; cases hs'⟩, And.left⟩
      | some s' =>
          have := Along.decide next Q s' ls
          decidable_of_iff (Q s l ∧ Along next Q s' ls)
            ⟨fun hQ => ⟨hQ.1, fun u hu => by rw [h] at hu; cases hu; exact hQ.2⟩,
              fun hQ => ⟨hQ.1, hQ.2 s' h⟩⟩

/-- A condition on the labels alone. -/
theorem along_of_forall {next : σ → ι → Option σ} {Q : σ → ι → Prop} :
    ∀ {s : σ} {ls : List ι}, (∀ l ∈ ls, ∀ u, Q u l) → Along next Q s ls := by
  intro s ls h
  induction ls generalizing s with
  | nil => trivial
  | cons l rest ih =>
      exact ⟨h l List.mem_cons_self s, fun s' _ => ih fun m hm => h m (List.mem_cons_of_mem l hm)⟩

theorem Along.and {next : σ → ι → Option σ} {Q R : σ → ι → Prop} :
    ∀ {s : σ} {ls : List ι}, Along next Q s ls → Along next R s ls →
      Along next (fun s l => Q s l ∧ R s l) s ls := by
  intro s ls hQ hR
  induction ls generalizing s with
  | nil => trivial
  | cons l rest ih => exact ⟨⟨hQ.1, hR.1⟩, fun s' hl => ih (hQ.2 s' hl) (hR.2 s' hl)⟩

/-- A condition that an invariant gives, where another one is met. -/
theorem Along.of_invariant {next : σ → ι → Option σ} {I : σ → Prop} {A Q : σ → ι → Prop}
    (hstep : ∀ s l s', I s → A s l → next s l = some s' → I s')
    (hQ : ∀ s l, I s → A s l → Q s l) :
    ∀ {s : σ} {ls : List ι}, I s → Along next A s ls → Along next Q s ls := by
  intro s ls hs hA
  induction ls generalizing s with
  | nil => trivial
  | cons l rest ih =>
      exact ⟨hQ s l hs hA.1, fun s' hl => ih (hstep s l s' hs hA.1 hl) (hA.2 s' hl)⟩

theorem Along.mono {next : σ → ι → Option σ} {A Q : σ → ι → Prop} {s : σ} {ls : List ι}
    (h : Along next A s ls) (hQ : ∀ u l, A u l → Q u l) : Along next Q s ls :=
  Along.of_invariant (I := fun _ => True) (fun _ _ _ _ _ _ => trivial) (fun u l _ => hQ u l) trivial
    h

/-- Every state of the run meets `P`, the first and the last included. -/
def Throughout (next : σ → ι → Option σ) (P : σ → Prop) : σ → List ι → Prop
  | s, [] => P s
  | s, l :: ls => P s ∧ ∀ s', next s l = some s' → Throughout next P s' ls

/-- A run that does not meet the condition has a step that misses it. -/
theorem exists_miss {next : σ → ι → Option σ} {Q : σ → ι → Prop} :
    ∀ {s t : σ} {ls : List ι}, exec next s ls = some t → ¬ Along next Q s ls →
      ∃ before l after u v, ls = before ++ l :: after ∧ exec next s before = some u ∧ ¬ Q u l ∧
        next u l = some v ∧ exec next v after = some t := by
  intro s t ls h hmiss
  induction ls generalizing s with
  | nil => exact absurd trivial hmiss
  | cons l rest ih =>
      obtain ⟨s', hl, hrest⟩ := exec_cons_eq_some.mp h
      by_cases hQ : Q s l
      · have hlater : ¬ Along next Q s' rest := fun halong => hmiss ⟨hQ, fun u hu => by
          cases hl.symm.trans hu
          exact halong⟩
        obtain ⟨before, m, after, u, v, rfl, hbefore, hnot, hstep, hafter⟩ := ih hrest hlater
        exact ⟨l :: before, m, after, u, v, rfl, exec_cons_eq_some.mpr ⟨s', hl, hbefore⟩, hnot,
          hstep, hafter⟩
      · exact ⟨[], l, rest, s, s', rfl, rfl, hQ, hl, hrest⟩

theorem Throughout.tail {next : σ → ι → Option σ} {P : σ → Prop} :
    ∀ {s t : σ} {ls ms : List ι}, exec next s ls = some t → Throughout next P s (ls ++ ms) →
      Throughout next P t ms := by
  intro s t ls ms h hP
  induction ls generalizing s with
  | nil => cases h; exact hP
  | cons l rest ih =>
      obtain ⟨s', hl, hrest⟩ := exec_cons_eq_some.mp h
      exact ih hrest (hP.2 s' hl)

theorem Throughout.head {next : σ → ι → Option σ} {P : σ → Prop} {s : σ} {ls : List ι}
    (h : Throughout next P s ls) : P s := by
  cases ls with
  | nil => exact h
  | cons l rest => exact h.1

theorem Throughout.last {next : σ → ι → Option σ} {P : σ → Prop} {s t : σ} {ls : List ι}
    (h : Throughout next P s ls) (hrun : exec next s ls = some t) : P t := by
  rw [← List.append_nil ls] at h
  exact (h.tail hrun).head

/-- The invariant rule with a condition on the steps. -/
theorem exec_invariant_along {next : σ → ι → Option σ} {I : σ → Prop} {Q : σ → ι → Prop}
    (hstep : ∀ s l s', I s → Q s l → next s l = some s' → I s') :
    ∀ {s t : σ} {ls : List ι}, I s → Along next Q s ls → exec next s ls = some t → I t := by
  intro s t ls hs hQ h
  induction ls generalizing s with
  | nil => cases h; exact hs
  | cons l rest ih =>
      obtain ⟨s', hl, hrest⟩ := exec_cons_eq_some.mp h
      exact ih (hstep s l s' hs hQ.1 hl) (hQ.2 s' hl) hrest

/-- Where the condition lets a step be taken, and the step keeps the invariant, a run whose steps
all meet it can be taken. -/
theorem exec_of_along {next : σ → ι → Option σ} {I : σ → Prop} {A : σ → ι → Prop}
    (hstep : ∀ s l, I s → A s l → ∃ s', next s l = some s' ∧ I s') :
    ∀ {s : σ} {ls : List ι}, I s → Along next A s ls → ∃ t, exec next s ls = some t ∧ I t := by
  intro s ls hs hA
  induction ls generalizing s with
  | nil => exact ⟨s, rfl, hs⟩
  | cons l rest ih =>
      obtain ⟨s', hl, hs'⟩ := hstep s l hs hA.1
      obtain ⟨t, hrest, ht⟩ := ih hs' (hA.2 s' hl)
      exact ⟨t, exec_cons_eq_some.mpr ⟨s', hl, hrest⟩, ht⟩

/-- The same rule, for every state on the way. -/
theorem throughout_of_along {next : σ → ι → Option σ} {I P : σ → Prop} {Q : σ → ι → Prop}
    (hstep : ∀ s l s', I s → Q s l → next s l = some s' → I s') (hIP : ∀ s, I s → P s) :
    ∀ {s : σ} {ls : List ι}, I s → Along next Q s ls → Throughout next P s ls := by
  intro s ls hs hQ
  induction ls generalizing s with
  | nil => exact hIP s hs
  | cons l rest ih =>
      exact ⟨hIP s hs, fun s' hl => ih (hstep s l s' hs hQ.1 hl) (hQ.2 s' hl)⟩

/--
When the condition is exact, in runs that meet an assumption `A` throughout.  If steps that
meet `Q` keep an invariant that gives `P`, and a step from the invariant that misses `Q`
always lands outside `P`, then a run stays in `P` precisely when all of its steps meet `Q`.
-/
theorem throughout_iff_along_given {next : σ → ι → Option σ} {I P : σ → Prop}
    {A Q : σ → ι → Prop} (hIP : ∀ s, I s → P s)
    (hkeep : ∀ s l s', I s → A s l → Q s l → next s l = some s' → I s')
    (hbreak : ∀ s l s', I s → A s l → ¬ Q s l → next s l = some s' → ¬ P s') :
    ∀ {s t : σ} {ls : List ι}, I s → exec next s ls = some t → Along next A s ls →
      (Throughout next P s ls ↔ Along next Q s ls) := by
  intro s t ls hs h hA
  induction ls generalizing s with
  | nil => exact ⟨fun _ => trivial, fun _ => hIP s hs⟩
  | cons l rest ih =>
      obtain ⟨s', hl, hrest⟩ := exec_cons_eq_some.mp h
      have hlater (hQ : Q s l) := ih (hkeep s l s' hs hA.1 hQ hl) hrest (hA.2 s' hl)
      constructor
      · intro hP
        have hQ : Q s l := by
          by_contra hQ
          exact hbreak s l s' hs hA.1 hQ hl (hP.2 s' hl).head
        refine ⟨hQ, fun u hu => ?_⟩
        cases hl.symm.trans hu
        exact (hlater hQ).mp (hP.2 s' hl)
      · intro hQ
        refine ⟨hIP s hs, fun u hu => ?_⟩
        cases hl.symm.trans hu
        exact (hlater hQ.1).mpr (hQ.2 s' hl)

/-- The same with no assumption. -/
theorem throughout_iff_along {next : σ → ι → Option σ} {I P : σ → Prop} {Q : σ → ι → Prop}
    (hIP : ∀ s, I s → P s)
    (hkeep : ∀ s l s', I s → Q s l → next s l = some s' → I s')
    (hbreak : ∀ s l s', I s → ¬ Q s l → next s l = some s' → ¬ P s') {s t : σ} {ls : List ι}
    (hs : I s) (h : exec next s ls = some t) :
    Throughout next P s ls ↔ Along next Q s ls :=
  throughout_iff_along_given (A := fun _ _ => True) hIP (fun u l v hu _ => hkeep u l v hu)
    (fun u l v hu _ => hbreak u l v hu) hs h (along_of_forall fun _ _ _ => trivial)

/-- A run that stays in `P` cannot get out of `J`, where every way out of `J` leads out of `P`. -/
theorem trapped {next : σ → ι → Option σ} {J P : σ → Prop}
    (hstep : ∀ s l s', J s → next s l = some s' → J s' ∨ ¬ P s') :
    ∀ {s t : σ} {ls : List ι}, J s → Throughout next P s ls → exec next s ls = some t → J t := by
  intro s t ls hs hP h
  induction ls generalizing s with
  | nil => cases h; exact hs
  | cons l rest ih =>
      obtain ⟨s', hl, hrest⟩ := exec_cons_eq_some.mp h
      have hlater := hP.2 s' hl
      exact ih ((hstep s l s' hs hl).resolve_right (not_not_intro hlater.head)) hlater hrest

/-! ### What can still be reached

That something is reached takes a measure: while the goal is not reached, some step is there that
lowers it.  That something is reached only so often takes one as well.
-/

/-- Where a step towards the goal can always be taken, the goal can be reached. -/
theorem exec_reaches {next : σ → ι → Option σ} {I G : σ → Prop} (load : σ → Nat)
    (hstep : ∀ s, I s → G s ∨ ∃ l s', next s l = some s' ∧ I s' ∧ load s' < load s) :
    ∀ {s : σ}, I s → ∃ ls t, exec next s ls = some t ∧ I t ∧ G t := by
  intro s hs
  induction hn : load s using Nat.strongRecOn generalizing s with
  | ind n ih =>
      rcases hstep s hs with hgoal | ⟨l, s', hl, hs', hless⟩
      · exact ⟨[], s, rfl, hs, hgoal⟩
      · obtain ⟨ls, t, hrun, ht, hgoal⟩ := ih (load s') (hn ▸ hless) hs' rfl
        exact ⟨l :: ls, t, exec_cons_eq_some.mpr ⟨s', hl, hrun⟩, ht, hgoal⟩

/-- Where steps of one kind lower the load and each of the others raises it by `c` at most, the
others limit how many of the first there can be. -/
theorem exec_countP_le {next : σ → ι → Option σ} {I : σ → Prop} (load : σ → Nat) (own : ι → Bool)
    (c : Nat) (hown : ∀ s l s', I s → own l = true → next s l = some s' → I s' ∧ load s' < load s)
    (hother : ∀ s l s', I s → own l = false → next s l = some s' → I s' ∧ load s' ≤ load s + c) :
    ∀ {s t : σ} {ls : List ι}, I s → exec next s ls = some t →
      ls.countP own + load t ≤ load s + c * ls.countP (fun l => !own l) ∧ I t := by
  intro s t ls hs h
  induction ls generalizing s with
  | nil => cases h; exact ⟨by simp, hs⟩
  | cons l rest ih =>
      obtain ⟨s', hl, hrest⟩ := exec_cons_eq_some.mp h
      rw [List.countP_cons, List.countP_cons]
      cases hkind : own l with
      | true =>
          obtain ⟨hs', hless⟩ := hown s l s' hs hkind hl
          obtain ⟨hcount, ht⟩ := ih hs' hrest
          refine ⟨?_, ht⟩
          simp only [Bool.not_true, Bool.false_eq_true, if_true, if_false, Nat.add_zero]
          omega
      | false =>
          obtain ⟨hs', hmore⟩ := hother s l s' hs hkind hl
          obtain ⟨hcount, ht⟩ := ih hs' hrest
          refine ⟨?_, ht⟩
          simp only [Bool.not_false, Bool.false_eq_true, if_true, if_false, Nat.add_zero,
            Nat.mul_add, Nat.mul_one]
          omega

/-- Where no step changes whether `P` holds, and under `P` some step comes nearer, a goal that is
under `P` is reached from where `P` holds and from nowhere else. -/
theorem reaches_iff {next : σ → ι → Option σ} {P G : σ → Prop} (load : σ → Nat)
    (hgoal : ∀ s, G s → P s) (hsame : ∀ s l s', next s l = some s' → (P s' ↔ P s))
    (hstep : ∀ s, P s → G s ∨ ∃ l s', next s l = some s' ∧ load s' < load s) {s : σ} :
    (∃ ls t, exec next s ls = some t ∧ G t) ↔ P s := by
  constructor
  · rintro ⟨ls, t, hrun, ht⟩
    by_contra hs
    exact exec_invariant (I := fun u => ¬ P u)
      (fun u l v hu hl hv => hu ((hsame u l v hl).mp hv)) hs hrun (hgoal t ht)
  · intro hs
    obtain ⟨ls, t, hrun, -, ht⟩ := exec_reaches (I := P) (G := G) load (fun u hu => by
      refine (hstep u hu).imp_right ?_
      rintro ⟨l, v, hl, hless⟩
      exact ⟨l, v, hl, (hsame u l v hl).mpr hu, hless⟩) hs
    exact ⟨ls, t, hrun, ht⟩

/-- What can always happen once more can happen any number of times. -/
theorem exec_again {next : σ → ι → Option σ} {I : σ → Prop} (count : σ → Nat)
    (honce : ∀ s, I s → ∃ ls t, exec next s ls = some t ∧ I t ∧ count s < count t) (n : Nat) :
    ∀ {s : σ}, I s → ∃ ls t, exec next s ls = some t ∧ I t ∧ count s + n ≤ count t := by
  induction n with
  | zero => exact fun {s} hs => ⟨[], s, rfl, hs, Nat.le_refl _⟩
  | succ n ih =>
      intro s hs
      obtain ⟨ls, t, hls, ht, hmore⟩ := ih hs
      obtain ⟨ms, u, hms, hu, honemore⟩ := honce t ht
      exact ⟨ls ++ ms, u, exec_append_some hls hms, hu, by omega⟩

/-! ### Calls that answer -/

/-- Make calls one after the other: where they lead, and what they answer. -/
def callAll (call : σ → ι → σ × κ) : σ → List ι → σ × List κ
  | s, [] => (s, [])
  | s, c :: cs =>
      ((callAll call (call s c).1 cs).1, (call s c).2 :: (callAll call (call s c).1 cs).2)

/-- Two machines that answer alike, call by call, answer alike. -/
theorem callAll_simulation {call₁ : σ → ι → σ × κ} {call₂ : τ → ι → τ × κ} {R : σ → τ → Prop}
    (hstep : ∀ s t c, R s t → R (call₁ s c).1 (call₂ t c).1 ∧ (call₁ s c).2 = (call₂ t c).2) :
    ∀ {s : σ} {t : τ} (cs : List ι), R s t →
      R (callAll call₁ s cs).1 (callAll call₂ t cs).1 ∧
        (callAll call₁ s cs).2 = (callAll call₂ t cs).2 := by
  intro s t cs hR
  induction cs generalizing s t with
  | nil => exact ⟨hR, rfl⟩
  | cons c rest ih =>
      obtain ⟨hnext, hanswer⟩ := hstep s t c hR
      obtain ⟨hlast, hrest⟩ := ih hnext
      refine ⟨hlast, ?_⟩
      rw [callAll, callAll, hanswer, hrest]

/-! ### What a run does not depend on

Two runs with the same labels up to what is not looked at.  If each step treats two such states
alike, the runs lead to states alike.
-/

/--
Unwinding.  Steps that look alike lead from states that look alike to states that look alike, or
neither can be made; then so do runs.
-/
theorem exec_alike {next : σ → ι → Option σ} {I : σ → Prop} {view : σ → τ} {label : ι → κ}
    (hI : ∀ s l s', I s → next s l = some s' → I s')
    (hstep : ∀ s t l m, I s → I t → view s = view t → label l = label m →
      (next s l).map view = (next t m).map view) :
    ∀ {s t s' : σ} {ls ms : List ι}, I s → I t → view s = view t → ls.map label = ms.map label →
      exec next s ls = some s' → ∃ t', exec next t ms = some t' ∧ view t' = view s' := by
  intro s t s' ls ms hs ht hview hlabel hrun
  induction ls generalizing s t ms with
  | nil =>
      rw [List.map_nil, eq_comm, List.map_eq_nil_iff] at hlabel
      cases hlabel
      cases hrun
      exact ⟨t, rfl, hview.symm⟩
  | cons l ls ih =>
      cases ms with
      | nil => cases hlabel
      | cons m ms =>
          obtain ⟨hl, hrest⟩ := List.cons.inj hlabel
          obtain ⟨u, hu, hexec⟩ := exec_cons_eq_some.mp hrun
          have hsame := hstep s t l m hs ht hview hl
          rw [hu, Option.map_some, eq_comm, Option.map_eq_some_iff] at hsame
          obtain ⟨v, hv, huv⟩ := hsame
          obtain ⟨t', ht', hlast⟩ := ih (hI s l u hs hu) (hI t m v ht hv) huv.symm hrest hexec
          exact ⟨t', exec_cons_eq_some.mpr ⟨v, hv, ht'⟩, hlast⟩

/-! ### Simulation -/

/--
A simulation lifts to runs.  Each step of the first machine is matched by a run of the
second, possibly empty, between related states.
-/
theorem exec_simulation {next₁ : σ → ι → Option σ} {next₂ : τ → κ → Option τ}
    {R : σ → τ → Prop}
    (hstep : ∀ s t l s', R s t → next₁ s l = some s' →
      ∃ ks t', exec next₂ t ks = some t' ∧ R s' t') :
    ∀ {s s' : σ} {t : τ} {ls : List ι}, R s t → exec next₁ s ls = some s' →
      ∃ ks t', exec next₂ t ks = some t' ∧ R s' t' := by
  intro s s' t ls hR h
  induction ls generalizing s t with
  | nil => cases h; exact ⟨[], t, rfl, hR⟩
  | cons l rest ih =>
      obtain ⟨u, hl, hrest⟩ := exec_cons_eq_some.mp h
      obtain ⟨ks, v, hks, hRv⟩ := hstep s t l u hR hl
      obtain ⟨ms, w, hms, hRw⟩ := ih hRv hrest
      exact ⟨ks ++ ms, w, exec_append_some hks hms, hRw⟩

end Runs
