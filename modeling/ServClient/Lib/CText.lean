/-
Text in C: `strtok`, `atoi` and the digits of `std::to_string`.

Text is bytes that end at a zero.  `strtok` works on memory, since it puts a zero behind the
token it finds; it has no result where the memory ends before the text does.  What `atoi` gives
outside the range of an `int` is undefined, and there it has no result either.
-/
import ServClient.Lib.CStrings
import Mathlib.Data.List.TakeWhile
import Mathlib.Data.Nat.Digits.Lemmas
import Mathlib.Tactic.Common

namespace CText

/-! ### Tokens

`strtok` works on memory up to the first zero, and leaves a zero where it found a delimiter.  What
it returns depends only on the text in front of that zero.
-/

/-- `strtok` with a string: where the token starts, if there is one, and the memory after it. -/
def strtok (delims memory : List UInt8) : Option (Option Nat × List UInt8) :=
  let skipped := memory.takeWhile fun b => decide (b ∈ delims)
  match memory.dropWhile fun b => decide (b ∈ delims) with
  | [] => none
  | b :: rest =>
      if b = 0 then some (none, memory)
      else
        let token := (b :: rest).takeWhile fun b => decide (b ≠ 0 ∧ b ∉ delims)
        match (b :: rest).dropWhile fun b => decide (b ≠ 0 ∧ b ∉ delims) with
        | [] => none
        | _ :: later => some (some skipped.length, skipped ++ (token ++ 0 :: later))

/-- The first token of a text, empty if there is none. -/
def firstToken (delims text : List UInt8) : List UInt8 :=
  (text.dropWhile fun b => decide (b ∈ delims)).takeWhile fun b => decide (b ∉ delims)

theorem takeWhile_stop {α : Type*} {p : α → Bool} {front : List α} {a : α} {rest : List α}
    (hfront : ∀ b ∈ front, p b = true) (ha : p a = false) :
    (front ++ a :: rest).takeWhile p = front := by
  rw [List.takeWhile_append_of_pos hfront, List.takeWhile_cons_of_neg (by simp [ha]),
    List.append_nil]

theorem dropWhile_stop {α : Type*} {p : α → Bool} {front : List α} {a : α} {rest : List α}
    (hfront : ∀ b ∈ front, p b = true) (ha : p a = false) :
    (front ++ a :: rest).dropWhile p = a :: rest := by
  rw [List.dropWhile_append_of_pos hfront, List.dropWhile_cons_of_neg (by simp [ha])]

/-- Behind the token stands a zero in place of the delimiter. -/
theorem strtok_found {delims skipped token later : List UInt8} {e : UInt8}
    (hskipped : ∀ b ∈ skipped, b ∈ delims) (hne : token ≠ [])
    (htoken : ∀ b ∈ token, b ≠ 0 ∧ b ∉ delims) (he : e = 0 ∨ e ∈ delims) :
    strtok delims (skipped ++ (token ++ e :: later)) =
      some (some skipped.length, skipped ++ (token ++ 0 :: later)) := by
  obtain ⟨b, rest, rfl⟩ := List.exists_cons_of_ne_nil hne
  obtain ⟨hb, hdelim⟩ := htoken b List.mem_cons_self
  have hend : decide (e ≠ 0 ∧ e ∉ delims) = false := by
    rw [decide_eq_false_iff_not, not_and_or, not_not, not_not]
    exact he
  have htake : (b :: (rest ++ e :: later)).takeWhile (fun b => decide (b ≠ 0 ∧ b ∉ delims)) =
      b :: rest := by
    rw [← List.cons_append]
    exact takeWhile_stop (by simpa using htoken) hend
  have hdrop : (b :: (rest ++ e :: later)).dropWhile (fun b => decide (b ≠ 0 ∧ b ∉ delims)) =
      e :: later := by
    rw [← List.cons_append]
    exact dropWhile_stop (by simpa using htoken) hend
  rw [strtok, List.cons_append, takeWhile_stop (by simpa using hskipped) (by simpa using hdelim),
    dropWhile_stop (by simpa using hskipped) (by simpa using hdelim)]
  simp only [if_neg hb, htake, hdrop, List.cons_append]

/-- Nothing but delimiters. -/
theorem strtok_blank {delims skipped later : List UInt8} (hskipped : ∀ b ∈ skipped, b ∈ delims)
    (hzero : 0 ∉ delims) :
    strtok delims (skipped ++ 0 :: later) = some (none, skipped ++ 0 :: later) := by
  rw [strtok, dropWhile_stop (by simpa using hskipped) (by simpa using hzero)]
  simp only [if_pos]

/-- A text is delimiters alone, or it is cut at its first token. -/
theorem firstToken_cases (delims text : List UInt8) :
    (firstToken delims text = [] ∧ ∀ b ∈ text, b ∈ delims) ∨
      (firstToken delims text ≠ [] ∧ (∀ b ∈ firstToken delims text, b ∉ delims) ∧
        ∃ skipped rest, text = skipped ++ (firstToken delims text ++ rest) ∧
          (∀ b ∈ skipped, b ∈ delims) ∧ ∀ e later, rest = e :: later → e ∈ delims) := by
  cases hdrop : text.dropWhile fun b => decide (b ∈ delims) with
  | nil =>
      refine Or.inl ⟨by rw [firstToken, hdrop, List.takeWhile_nil], ?_⟩
      simpa using List.dropWhile_eq_nil_iff.mp hdrop
  | cons b rest =>
      have hb : b ∉ delims := by
        have hhead := List.head?_dropWhile_not (fun b => decide (b ∈ delims)) text
        rw [hdrop] at hhead
        simpa using hhead
      have hall : ∀ b ∈ firstToken delims text, b ∉ delims := fun c hc => by
        simpa using List.mem_takeWhile_imp hc
      refine Or.inr ⟨?_, hall, text.takeWhile fun b => decide (b ∈ delims),
        (b :: rest).dropWhile fun b => decide (b ∉ delims), ?_, fun c hc => ?_,
        fun e later hrest => ?_⟩
      · rw [firstToken, hdrop, List.takeWhile_cons_of_pos (by simpa using hb)]
        exact List.cons_ne_nil _ _
      · rw [firstToken, hdrop, List.takeWhile_append_dropWhile, ← hdrop,
          List.takeWhile_append_dropWhile]
      · simpa using List.mem_takeWhile_imp hc
      · have hhead := List.head?_dropWhile_not (fun b => decide (b ∉ delims)) (b :: rest)
        rw [hrest] at hhead
        simpa using hhead

/-- What `strtok` finds in a text is its first token. -/
theorem strtok_text {delims text : List UInt8} (later : List UInt8) (hzero : 0 ∉ delims)
    (htext : 0 ∉ text) :
    (firstToken delims text = [] ∧
        strtok delims (text ++ 0 :: later) = some (none, text ++ 0 :: later)) ∨
      (firstToken delims text ≠ [] ∧ ∃ start memory behind,
        strtok delims (text ++ 0 :: later) = some (some start, memory) ∧
          memory.drop start = firstToken delims text ++ 0 :: behind) := by
  rcases firstToken_cases delims text with ⟨hnone, hblank⟩ |
    ⟨hne, hall, skipped, rest, htoken, hskipped, hrest⟩
  · exact Or.inl ⟨hnone, strtok_blank hblank hzero⟩
  · have hfree : ∀ b ∈ firstToken delims text, b ≠ 0 ∧ b ∉ delims := fun b hb => by
      refine ⟨fun h => htext ?_, hall b hb⟩
      rw [htoken, ← h]
      exact List.mem_append_right _ (List.mem_append_left _ hb)
    obtain ⟨e, behind, hend, he⟩ : ∃ e behind, rest ++ 0 :: later = e :: behind ∧
        (e = 0 ∨ e ∈ delims) := by
      cases rest with
      | nil => exact ⟨0, later, rfl, Or.inl rfl⟩
      | cons e rest => exact ⟨e, rest ++ 0 :: later, rfl, Or.inr (hrest e rest rfl)⟩
    have hmemory : text ++ 0 :: later = skipped ++ (firstToken delims text ++ e :: behind) := by
      rw [← hend, ← List.append_assoc, ← List.append_assoc, List.append_assoc skipped, ← htoken]
    refine Or.inr ⟨hne, skipped.length, skipped ++ (firstToken delims text ++ 0 :: behind),
      behind, ?_, List.drop_left⟩
    rw [hmemory]
    exact strtok_found hskipped hne hfree he

/-- A text without delimiters is one token. -/
theorem firstToken_self {delims text : List UInt8} (h : ∀ b ∈ text, b ∉ delims) :
    firstToken delims text = text := by
  have hskip : (text.dropWhile fun b => decide (b ∈ delims)) = text :=
    List.dropWhile_eq_self_iff.mpr fun hpos => by simpa using h _ (List.getElem_mem hpos)
  rw [firstToken, hskip, List.takeWhile_eq_self_iff]
  simpa using h

/-! ### Numbers -/

/-- What `isspace` takes for a blank. -/
def isSpace (b : UInt8) : Bool := b = 32 || (9 ≤ b && b ≤ 13)

/-- What `isdigit` takes for a digit. -/
def isDigit (b : UInt8) : Bool := 48 ≤ b && b ≤ 57

/-- The number that digits stand for. -/
def value (digits : List UInt8) : Nat := digits.foldl (fun n b => 10 * n + (b.toNat - 48)) 0

/-- `atoi`: blanks, a sign, digits, and whatever comes after. -/
def atoi (text : List UInt8) : Option Int32 :=
  let number := text.dropWhile isSpace
  let x : Int :=
    match number with
    | 45 :: digits => - value (digits.takeWhile isDigit)
    | 43 :: digits => value (digits.takeWhile isDigit)
    | digits => value (digits.takeWhile isDigit)
  if -2147483648 ≤ x ∧ x ≤ 2147483647 then some (Int32.ofInt x) else none

/-- The digits of a number. -/
def digits (n : Nat) : List UInt8 :=
  if n = 0 then [48] else (Nat.digits 10 n).reverse.map fun d => UInt8.ofNat (48 + d)

/-- `std::to_string`. -/
def ofInt (x : Int) : List UInt8 :=
  if x < 0 then 45 :: digits x.natAbs else digits x.natAbs

/-- The byte of a digit. -/
theorem digit_spec {d : Nat} (h : d < 10) : (UInt8.ofNat (48 + d)).toNat = 48 + d := by
  rw [UInt8.toNat_ofNat']
  omega

theorem digits_eq (n : Nat) : ∃ ds : List Nat, (∀ d ∈ ds, d < 10) ∧
    digits n = ds.reverse.map fun d => UInt8.ofNat (48 + d) := by
  by_cases hn : n = 0
  · exact ⟨[0], by simp, by simp [digits, hn]⟩
  · refine ⟨Nat.digits 10 n, fun d hd => Nat.digits_lt_base (by decide) hd, ?_⟩
    rw [digits, if_neg hn]

theorem isDigit_digits {n : Nat} : ∀ b ∈ digits n, isDigit b = true := by
  obtain ⟨ds, hlt, heq⟩ := digits_eq n
  intro b hb
  rw [heq] at hb
  obtain ⟨d, hd, rfl⟩ := List.mem_map.mp hb
  have hspec := digit_spec (hlt d (List.mem_reverse.mp hd))
  have := hlt d (List.mem_reverse.mp hd)
  simp only [isDigit, Bool.and_eq_true, decide_eq_true_eq, UInt8.le_iff_toNat_le, hspec]
  exact ⟨by simp, by simp; omega⟩

theorem zero_notMem_ofInt (x : Int) : 0 ∉ ofInt x := by
  have hdigits (n : Nat) : 0 ∉ digits n := fun h => absurd (isDigit_digits 0 h) (by decide)
  rw [ofInt]
  split
  · exact List.not_mem_cons_of_ne_of_not_mem (by decide) (hdigits _)
  · exact hdigits _

end CText
