/-
Strings that end at their first zero byte.

A `CString` holds no zero, so it is told apart from the memory behind it by the zero that
ends it.  Reading one from memory has no result where the memory ends before the string
does.
-/
import Mathlib.Data.List.Basic

/-- A string of bytes other than zero. -/
@[ext]
structure CString where
  bytes : List UInt8
  noNul : 0 ∉ bytes
deriving DecidableEq, Repr

namespace CString

/-- `""`. -/
def empty : CString := { bytes := [], noNul := List.not_mem_nil }

/-- One byte more in front. -/
def cons (b : UInt8) (hb : b ≠ 0) (s : CString) : CString where
  bytes := b :: s.bytes
  noNul := fun h => (List.mem_cons.mp h).elim (fun h0 => hb h0.symm) s.noNul

/-- The string at the start of this memory. -/
def read : List UInt8 → Option CString
  | [] => none
  | b :: rest => if hb : b = 0 then some empty else (read rest).map (cons b hb)

theorem read_eq_some {memory : List UInt8} {s : CString} :
    read memory = some s ↔ s.bytes ++ [0] <+: memory := by
  induction memory generalizing s with
  | nil => simp [read]
  | cons b rest ih =>
      obtain ⟨bytes, hno⟩ := s
      rw [read]
      split
      · rename_i hb
        subst hb
        cases bytes with
        | nil => simp [empty]
        | cons a bytes =>
            have ha : a ≠ 0 := fun h => hno (by simp [h])
            simp [empty, ha]
      · rename_i hb
        rw [Option.map_eq_some_iff]
        cases bytes with
        | nil =>
            have hb' : (0 : UInt8) ≠ b := fun h => hb h.symm
            simp [cons, hb']
        | cons a bytes =>
            have htail : 0 ∉ bytes := fun h => hno (List.mem_cons_of_mem a h)
            rw [List.cons_append, List.cons_prefix_cons]
            constructor
            · rintro ⟨t, ht, heq⟩
              simp only [cons, mk.injEq, List.cons.injEq] at heq
              obtain ⟨rfl, rfl⟩ := heq
              exact ⟨rfl, ih.mp ht⟩
            · rintro ⟨rfl, hrest⟩
              exact ⟨⟨bytes, htail⟩, ih.mpr hrest, rfl⟩

end CString
