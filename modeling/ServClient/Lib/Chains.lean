/-
Doubly linked cells.

A memory gives each address a cell or nothing.  `Chain` says that the cells at the listed
addresses hold the listed values and point to one another in this order, from `before` to
`behind`; it falls apart where the list does (`chain_append`).  Redirecting the two pointers
on either side of a place is therefore all it takes to put a cell in there (`Chain.insert`)
or to take one out (`Chain.unlink`), and the rest of the chain does not notice.

A chain from null to null is what is met on the way from either of its ends
(`Chain.reached_next`, `Chain.reached_previous`).
-/
import Mathlib.Data.List.Induction
import Mathlib.Tactic.Common

/-- An element, with the keys of its neighbours. -/
structure Cell (κ α : Type*) where
  data : α
  next : Option κ
  previous : Option κ
deriving DecidableEq, Repr

namespace Cell

variable {κ α : Type*}

/-- The address of the first cell. -/
def first (cells : List (κ × α)) : Option κ := cells.head?.map Prod.fst

/-- The address of the last cell. -/
def last (cells : List (κ × α)) : Option κ := cells.getLast?.map Prod.fst

/-- The keys of the elements, in order. -/
def addresses (cells : List (κ × α)) : List κ := cells.map Prod.fst

@[simp] theorem first_nil : first ([] : List (κ × α)) = none := rfl

@[simp] theorem first_cons (c : κ × α) (rest : List (κ × α)) : first (c :: rest) = some c.1 := rfl

@[simp] theorem last_nil : last ([] : List (κ × α)) = none := rfl

@[simp] theorem last_concat (cells : List (κ × α)) (c : κ × α) :
    last (cells ++ [c]) = some c.1 := by simp [last]

@[simp] theorem first_append (l r : List (κ × α)) : first (l ++ r) = (first l).or (first r) := by
  cases l <;> simp [first]

@[simp] theorem last_append (l r : List (κ × α)) : last (l ++ r) = (last r).or (last l) := by
  rcases List.eq_nil_or_concat r with rfl | ⟨r, c, rfl⟩
  · simp
  · rw [List.concat_eq_append, ← List.append_assoc, last_concat, last_concat]
    rfl

@[simp] theorem last_cons (c : κ × α) (rest : List (κ × α)) :
    last (c :: rest) = (last rest).or (some c.1) := last_append [c] rest

@[simp] theorem addresses_append (l r : List (κ × α)) :
    addresses (l ++ r) = addresses l ++ addresses r := List.map_append

@[simp] theorem addresses_cons (c : κ × α) (rest : List (κ × α)) :
    addresses (c :: rest) = c.1 :: addresses rest := rfl

theorem first_eq_none {cells : List (κ × α)} : first cells = none ↔ cells = [] := by
  cases cells <;> simp

theorem last_eq_none {cells : List (κ × α)} : last cells = none ↔ cells = [] := by
  rw [last, Option.map_eq_none_iff, List.getLast?_eq_none_iff]

theorem mem_of_first {cells : List (κ × α)} {k : κ} (h : first cells = some k) :
    k ∈ addresses cells := by
  cases cells with
  | nil => cases h
  | cons c rest =>
      cases h
      exact List.mem_cons_self

theorem mem_of_last {cells : List (κ × α)} {k : κ} (h : last cells = some k) :
    k ∈ addresses cells := by
  rcases List.eq_nil_or_concat cells with rfl | ⟨rest, c, rfl⟩
  · cases h
  · rw [List.concat_eq_append] at h ⊢
    rw [last_concat] at h
    cases h
    simp

/-! ### Chains

A list in memory is a sequence of cells, each with a pointer both ways.  Putting a cell in or taking
one out writes to two neighbours at most, and the chain to either side stays a chain.
-/

/-- The cells are linked in this order, between `before` and `behind`. -/
def Chain (get : κ → Option (Cell κ α)) : Option κ → List (κ × α) → Option κ → Prop
  | _, [], _ => True
  | before, c :: rest, behind =>
      get c.1 = some { data := c.2, next := (first rest).or behind, previous := before } ∧
        Chain get (some c.1) rest behind

variable {get get' : κ → Option (Cell κ α)} {before behind : Option κ} {l r cells : List (κ × α)}

theorem chain_append : Chain get before (l ++ r) behind ↔
    Chain get before l ((first r).or behind) ∧ Chain get ((last l).or before) r behind := by
  induction l generalizing before with
  | nil => simp [Chain]
  | cons c rest ih =>
      rw [List.cons_append, Chain, Chain, ih, first_append, last_cons, and_assoc,
        Option.or_assoc, Option.or_assoc, Option.some_or]

/-- A chain depends on its own cells only. -/
theorem Chain.congr (h : Chain get before cells behind)
    (hsame : ∀ k ∈ addresses cells, get' k = get k) : Chain get' before cells behind := by
  induction cells generalizing before with
  | nil => trivial
  | cons c rest ih =>
      exact ⟨(hsame c.1 List.mem_cons_self).trans h.1,
        ih h.2 fun k hk => hsame k (List.mem_cons_of_mem _ hk)⟩

/-- Redirecting the pointer out of the front of a chain. -/
theorem Chain.setBefore {before' : Option κ} (h : Chain get before cells behind)
    (hnodup : (addresses cells).Nodup)
    (hfirst : ∀ k, first cells = some k →
      get' k = (get k).map fun n => { n with previous := before' })
    (hsame : ∀ k ∈ addresses cells, first cells ≠ some k → get' k = get k) :
    Chain get' before' cells behind := by
  cases cells with
  | nil => trivial
  | cons c rest =>
      refine ⟨by rw [hfirst c.1 rfl, h.1]; rfl, h.2.congr fun k hk => ?_⟩
      refine hsame k (List.mem_cons_of_mem _ hk) fun heq => ?_
      cases heq
      exact (List.nodup_cons.mp hnodup).1 hk

/-- Redirecting the pointer out of the back. -/
theorem Chain.setBehind {behind' : Option κ} (h : Chain get before cells behind)
    (hnodup : (addresses cells).Nodup)
    (hlast : ∀ k, last cells = some k → get' k = (get k).map fun n => { n with next := behind' })
    (hsame : ∀ k ∈ addresses cells, last cells ≠ some k → get' k = get k) :
    Chain get' before cells behind' := by
  rcases List.eq_nil_or_concat cells with rfl | ⟨rest, c, rfl⟩
  · trivial
  · rw [List.concat_eq_append] at h hnodup hlast hsame ⊢
    obtain ⟨hrest, hc, -⟩ := chain_append.mp h
    refine chain_append.mpr ⟨hrest.congr fun k hk => ?_, ?_, trivial⟩
    · refine hsame k (by rw [addresses_append]; exact List.mem_append_left _ hk) fun heq => ?_
      rw [last_concat] at heq
      cases heq
      rw [addresses_append] at hnodup
      exact (List.nodup_append.mp hnodup).2.2 c.1 hk c.1 List.mem_cons_self rfl
    · rw [hlast c.1 (last_concat rest c), hc]
      rfl

/-- Putting a cell in, with the pointers on both sides of it redirected. -/
theorem Chain.insert {k : κ} {x : α} (h : Chain get none (l ++ r) none)
    (hnodup : (addresses (l ++ r)).Nodup)
    (hnew : get' k = some { data := x, next := first r, previous := last l })
    (hleft : ∀ j, last l = some j → get' j = (get j).map fun n => { n with next := some k })
    (hright : ∀ j, first r = some j →
      get' j = (get j).map fun n => { n with previous := some k })
    (hsame : ∀ j ∈ addresses (l ++ r), last l ≠ some j → first r ≠ some j → get' j = get j) :
    Chain get' none (l ++ (k, x) :: r) none := by
  rw [addresses_append] at hnodup hsame
  obtain ⟨hnodupl, hnodupr, hdisjoint⟩ := List.nodup_append.mp hnodup
  obtain ⟨hl, hr⟩ := chain_append.mp h
  refine chain_append.mpr ⟨?_, by simpa using hnew, ?_⟩
  · refine hl.setBehind hnodupl hleft fun j hj hlast => ?_
    refine hsame j (List.mem_append_left _ hj) hlast fun hfirst => ?_
    exact hdisjoint j hj j (mem_of_first hfirst) rfl
  · refine hr.setBefore hnodupr hright fun j hj hfirst => ?_
    refine hsame j (List.mem_append_right _ hj) (fun hlast => ?_) hfirst
    exact hdisjoint j (mem_of_last hlast) j hj rfl

/-- Taking a cell out, with the pointers on both sides of it redirected past it. -/
theorem Chain.unlink {c : κ × α} (h : Chain get none (l ++ c :: r) none)
    (hnodup : (addresses (l ++ r)).Nodup)
    (hleft : ∀ j, last l = some j → get' j = (get j).map fun n => { n with next := first r })
    (hright : ∀ j, first r = some j →
      get' j = (get j).map fun n => { n with previous := last l })
    (hsame : ∀ j ∈ addresses (l ++ r), last l ≠ some j → first r ≠ some j → get' j = get j) :
    Chain get' none (l ++ r) none := by
  rw [addresses_append] at hnodup hsame
  obtain ⟨hnodupl, hnodupr, hdisjoint⟩ := List.nodup_append.mp hnodup
  obtain ⟨hl, -, hr⟩ := chain_append.mp h
  refine chain_append.mpr ⟨?_, ?_⟩
  · rw [Option.or_none]
    refine hl.setBehind hnodupl hleft fun j hj hlast => ?_
    refine hsame j (List.mem_append_left _ hj) hlast fun hfirst => ?_
    exact hdisjoint j hj j (mem_of_first hfirst) rfl
  · rw [Option.or_none]
    refine hr.setBefore hnodupr hright fun j hj hfirst => ?_
    refine hsame j (List.mem_append_right _ hj) (fun hlast => ?_) hfirst
    exact hdisjoint j (mem_of_last hlast) j hj rfl

/-- The cell in the middle of a chain. -/
theorem Chain.get_middle {c : κ × α} (h : Chain get none (l ++ c :: r) none) :
    get c.1 = some { data := c.2, next := first r, previous := last l } := by
  have := (chain_append.mp h).2.1
  rwa [Option.or_none, Option.or_none] at this

/-! ### Following the pointers

Who has only the pointers can still find the sequence: following them from an end meets the cells in
order and then null.
-/

/-- From this pointer on, `follow` meets these addresses and then null. -/
def Reached (follow : κ → Option (Option κ)) : Option κ → List κ → Prop
  | p, [] => p = none
  | p, k :: rest => p = some k ∧ ∃ q, follow k = some q ∧ Reached follow q rest

/-- What is met is determined by where one starts. -/
theorem Reached.unique {follow : κ → Option (Option κ)} {p : Option κ} {ks js : List κ}
    (h : Reached follow p ks) (h' : Reached follow p js) : ks = js := by
  induction ks generalizing p js with
  | nil =>
      cases js with
      | nil => rfl
      | cons j js =>
          rw [show p = none from h] at h'
          cases h'.1
  | cons k ks ih =>
      obtain ⟨rfl, q, hq, hrest⟩ := h
      cases js with
      | nil => cases h'
      | cons j js =>
          obtain ⟨hk, q', hq', hrest'⟩ := h'
          cases hk
          cases hq.symm.trans hq'
          rw [ih hrest hrest']

/-- Nothing that is met is free. -/
theorem Reached.exists_of_mem {follow : κ → Option (Option κ)} {p : Option κ} {ks : List κ}
    (h : Reached follow p ks) {k : κ} (hk : k ∈ ks) : (follow k).isSome := by
  induction ks generalizing p with
  | nil => cases hk
  | cons j rest ih =>
      obtain ⟨-, q, hq, hrest⟩ := h
      rcases List.mem_cons.mp hk with rfl | hk
      · rw [hq]
        rfl
      · exact ih hrest hk

/-- The addresses met from here on, at most so many. -/
def walk (follow : κ → Option (Option κ)) : Nat → Option κ → List κ
  | 0, _ => []
  | _ + 1, none => []
  | n + 1, some k =>
      k :: match follow k with
        | some q => walk follow n q
        | none => []

theorem Reached.walk_eq {follow : κ → Option (Option κ)} {p : Option κ} {ks : List κ} {n : Nat}
    (h : Reached follow p ks) (hn : ks.length ≤ n) : walk follow n p = ks := by
  induction ks generalizing p n with
  | nil =>
      cases h
      cases n <;> rfl
  | cons k rest ih =>
      obtain ⟨rfl, q, hq, hrest⟩ := h
      cases n with
      | zero => cases hn
      | succ n =>
          rw [walk, hq]
          exact congrArg (k :: ·) (ih hrest (Nat.le_of_succ_le_succ hn))

theorem Chain.reached_next (h : Chain get before cells none) :
    Reached (fun k => (get k).map next) (first cells) (addresses cells) := by
  induction cells generalizing before with
  | nil => rfl
  | cons c rest ih =>
      refine ⟨rfl, first rest, ?_, ih h.2⟩
      simp only [h.1, Option.map_some, Option.or_none]

theorem Chain.reached_previous (h : Chain get none cells behind) :
    Reached (fun k => (get k).map previous) (last cells) (addresses cells).reverse := by
  induction cells using List.reverseRecOn generalizing behind with
  | nil => rfl
  | append_singleton rest c ih =>
      obtain ⟨hrest, hc, -⟩ := chain_append.mp h
      rw [last_concat, addresses_append, List.reverse_append]
      refine ⟨rfl, last rest, ?_, ih hrest⟩
      simp only [hc, Option.map_some, Option.or_none]

end Cell
