/-
What is passed on of a log of events to one who joins late.

Of the events there are, some are passed on, to everyone who has joined by then.  So what
two have got since they joined differs by what the later one has missed.
-/
import Mathlib.Data.List.Basic
import Mathlib.Tactic.Common

variable {α β : Type*} {p : α → Bool} {f : α → β} {events : List α} {k m : Nat} {e : α}

/-- What is passed on of the events from place `k` on. -/
def feed (p : α → Bool) (f : α → β) (events : List α) (k : Nat) : List β :=
  ((events.drop k).filter p).map f

theorem feed_length : feed p f events events.length = [] := by
  rw [feed, List.drop_length]
  rfl

theorem feed_concat (hk : k ≤ events.length) :
    feed p f (events ++ [e]) k = feed p f events k ++ if p e then [f e] else [] := by
  rw [feed, List.drop_append_of_le_length hk, List.filter_append, List.map_append, feed]
  cases hp : p e <;> simp [hp]

theorem feed_append_drop (hkm : k ≤ m) :
    feed p f events k = feed p f (events.take m) k ++ feed p f events m := by
  have hsplit : events.drop k = (events.take m).drop k ++ events.drop m := by
    rw [← List.take_append_drop (m - k) (events.drop k), List.take_drop, List.drop_drop,
      Nat.add_sub_cancel' hkm]
  rw [feed, hsplit, List.filter_append, List.map_append]
  rfl

/-- The later one has got a part of what the earlier one has, and that at the end. -/
theorem feed_suffix (hkm : k ≤ m) : feed p f events m <:+ feed p f events k := by
  rw [feed_append_drop hkm]
  exact List.suffix_append _ _

/-! ### Which event is where -/

/-- The places of the events passed on, from place `k` on. -/
def places (p : α → Bool) (events : List α) (k : Nat) : List Nat :=
  (List.range' k (events.length - k)).filter fun m => events[m]?.any p

theorem feed_eq_places :
    feed p f events k = (places p events k).filterMap fun m => events[m]?.map f := by
  obtain ⟨n, hn⟩ : ∃ n, events.length - k = n := ⟨_, rfl⟩
  rw [places, hn]
  induction n generalizing k with
  | zero =>
      rw [feed, List.drop_eq_nil_of_le (by omega)]
      rfl
  | succ n ih =>
      have hk : k < events.length := by omega
      rw [feed, List.drop_eq_getElem_cons hk, List.range'_succ]
      have hrest := ih (k := k + 1) (by omega)
      rw [feed] at hrest
      have hsome : events[k]? = some events[k] := List.getElem?_eq_getElem hk
      cases hp : p events[k] with
      | false =>
          rw [List.filter_cons_of_neg (by simp [hp]), List.filter_cons_of_neg (by simp [hsome, hp]),
            hrest]
      | true =>
          rw [List.filter_cons_of_pos hp, List.filter_cons_of_pos (by simp [hsome, hp]),
            List.map_cons, hrest, List.filterMap_cons_some (by rw [hsome]; rfl)]

theorem mem_places : m ∈ places p events k ↔ k ≤ m ∧ events[m]?.any p = true := by
  rw [places, List.mem_filter, List.mem_range'_1]
  refine and_congr_left fun hany => ?_
  have hm : m < events.length := by
    by_contra hm
    rw [List.getElem?_eq_none (Nat.le_of_not_lt hm)] at hany
    cases hany
  omega

/-- Each is there once. -/
theorem count_places :
    (places p events k).count m = if k ≤ m ∧ events[m]?.any p = true then 1 else 0 := by
  have hrange : (List.range' k (events.length - k)).Nodup := List.nodup_range'
  have hplaces : (places p events k).Nodup := hrange.sublist List.filter_sublist
  rw [hplaces.count]
  exact if_congr mem_places rfl rfl
