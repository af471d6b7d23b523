/-
Bytes in memory: little-endian words and copying into a buffer.

A word of `k` bytes is read and written least significant byte first.  An unsigned
word is a natural number below `256 ^ k`; a signed one is the representative of its
residue in the balanced range.  `splice` is what copying a block into a larger buffer
leaves there, and `store?` is the same with the bound checked; `load?` copies out.
-/
import Mathlib.Data.List.Basic
import Mathlib.Algebra.Order.Ring.Int
import Mathlib.Tactic.Ring

namespace Bytes

/-! ### Words

A number and its bytes, low byte first, as they stand in the memory of the machines the program is
for.
-/

/-- The `k` low bytes of a number, least significant first. -/
def ofNat : Nat → Nat → List UInt8
  | 0, _ => []
  | k + 1, n => UInt8.ofNat n :: ofNat k (n / 256)

/-- The number a block of bytes stands for. -/
def toNat : List UInt8 → Nat
  | [] => 0
  | b :: rest => b.toNat + 256 * toNat rest

/-- A signed word: the two's complement bytes of `x`. -/
def ofInt (k : Nat) (x : Int) : List UInt8 := ofNat k (x % (256 ^ k : Nat)).toNat

/-- The signed number a block of bytes stands for. -/
def toInt (bs : List UInt8) : Int := Int.bmod (toNat bs) (256 ^ bs.length)

@[simp] theorem length_ofNat (k n : Nat) : (ofNat k n).length = k := by
  induction k generalizing n with
  | zero => rfl
  | succ k ih => rw [ofNat, List.length_cons, ih]

@[simp] theorem length_ofInt (k : Nat) (x : Int) : (ofInt k x).length = k := length_ofNat _ _

theorem toNat_ofNat {k n : Nat} (h : n < 256 ^ k) : toNat (ofNat k n) = n := by
  induction k generalizing n with
  | zero => have : n = 0 := by simpa using h
            subst this; rfl
  | succ k ih =>
      have hdiv : n / 256 < 256 ^ k := by
        rw [Nat.div_lt_iff_lt_mul (by decide)]
        simpa [Nat.pow_succ] using h
      rw [ofNat, toNat, ih hdiv, UInt8.toNat_ofNat']
      omega

/-- Every number in the signed range survives being written and read back. -/
theorem toInt_ofInt {k : Nat} {x : Int} (hlo : -(256 ^ k : Nat) ≤ 2 * x)
    (hhi : 2 * x < (256 ^ k : Nat)) : toInt (ofInt k x) = x := by
  have hpos : (0 : Int) < (256 ^ k : Nat) := by exact_mod_cast Nat.pow_pos (by decide)
  have hmod : 0 ≤ x % (256 ^ k : Nat) := Int.emod_nonneg _ (Int.ne_of_gt hpos)
  have hlt : (x % (256 ^ k : Nat)).toNat < 256 ^ k := by
    have := Int.emod_lt_of_pos x hpos
    omega
  rw [toInt, length_ofInt, ofInt, toNat_ofNat hlt, Int.toNat_of_nonneg hmod, Int.emod_bmod]
  exact Int.bmod_eq_of_le (by omega) (by omega)

/-! ### Copying into a buffer

`memcpy` into a buffer, once without a check and once with one.  The lemmas say what a later look at
the buffer finds: in the copy, beside it, and where a second copy came over the first.
-/

/-- The buffer after `block` was copied to position `at`. -/
def splice (buffer : List UInt8) (pos : Nat) (block : List UInt8) : List UInt8 :=
  buffer.take pos ++ block ++ buffer.drop (pos + block.length)

/-- The same copy, where the block must fit: `none` when it would leave the buffer. -/
def store? (buffer : List UInt8) (pos : Nat) (block : List UInt8) : Option (List UInt8) :=
  if pos + block.length ≤ buffer.length then some (splice buffer pos block) else none

theorem store?_eq_some {buffer block result : List UInt8} {pos : Nat} :
    store? buffer pos block = some result ↔
      pos + block.length ≤ buffer.length ∧ splice buffer pos block = result := by
  unfold store?
  split
  · simp_all
  · simp_all

theorem length_splice {buffer block : List UInt8} {pos : Nat}
    (h : pos + block.length ≤ buffer.length) :
    (splice buffer pos block).length = buffer.length := by
  simp only [splice, List.length_append, List.length_take, List.length_drop]
  omega

@[simp] theorem splice_zero (buffer block : List UInt8) :
    splice buffer 0 block = block ++ buffer.drop block.length := by
  simp [splice]

/-- Copying a block right behind what a first copy wrote. -/
theorem splice_append (front block buffer : List UInt8) :
    splice (front ++ buffer) front.length block = front ++ block ++ buffer.drop block.length := by
  simp [splice, List.drop_append]

/-- Copying over a block writes exactly the new one. -/
theorem splice_self (buffer : List UInt8) (pos len : Nat) (h : pos + len ≤ buffer.length) :
    splice buffer pos ((buffer.drop pos).take len) = buffer := by
  have hlen : ((buffer.drop pos).take len).length = len := by
    rw [List.length_take, List.length_drop]
    omega
  rw [splice, hlen, List.append_assoc, ← List.drop_drop, List.take_append_drop,
    List.take_append_drop]

/-- Two blocks copied side by side. -/
theorem splice_splice {buffer front block : List UInt8} {pos : Nat} (h : pos ≤ buffer.length) :
    splice (splice buffer pos front) (pos + front.length) block =
      splice buffer pos (front ++ block) := by
  have hlen : (buffer.take pos ++ front).length = pos + front.length := by
    rw [List.length_append, List.length_take_of_le h]
  rw [splice.eq_1 buffer pos front, ← hlen, splice_append, List.drop_drop, hlen]
  simp only [splice, List.append_assoc, List.length_append, Nat.add_assoc]

/-- Copying to the end of a buffer appends. -/
theorem splice_end (buffer block : List UInt8) :
    splice buffer buffer.length block = buffer ++ block := by
  simpa using splice_append buffer block []

/-- A copy that starts in the buffer reads back. -/
theorem window_splice {buffer : List UInt8} {pos : Nat} (block : List UInt8)
    (h : pos ≤ buffer.length) :
    ((splice buffer pos block).drop pos).take block.length = block := by
  have hlen : (buffer.take pos).length = pos := List.length_take_of_le h
  rw [splice, List.append_assoc, List.drop_left' hlen, List.take_left]

/-- A copy leaves what is before it. -/
theorem window_splice_before {buffer : List UInt8} {pos i len : Nat} (block : List UInt8)
    (h : pos ≤ buffer.length) (hbefore : i + len ≤ pos) :
    ((splice buffer pos block).drop i).take len = (buffer.drop i).take len := by
  have hlen : (buffer.take pos).length = pos := List.length_take_of_le h
  rw [splice, List.append_assoc, List.drop_append_of_le_length (by omega),
    List.take_append_of_le_length (by rw [List.length_drop]; omega), List.drop_take,
    List.take_take, Nat.min_eq_left (by omega)]

/-- A copy leaves what is behind it. -/
theorem window_splice_behind {buffer : List UInt8} {pos i : Nat} (len : Nat) (block : List UInt8)
    (h : pos ≤ buffer.length) (hbehind : pos + block.length ≤ i) :
    ((splice buffer pos block).drop i).take len = (buffer.drop i).take len := by
  have hlen : (buffer.take pos ++ block).length = pos + block.length := by
    rw [List.length_append, List.length_take_of_le h]
  obtain ⟨k, rfl⟩ := Nat.exists_eq_add_of_le hbehind
  rw [splice, ← hlen, ← List.drop_drop, List.drop_left, hlen, List.drop_drop]

/-- Several copies, one after the other, each a position and a block. -/
def storeAll? (buffer : List UInt8) (writes : List (Nat × List UInt8)) : Option (List UInt8) :=
  writes.foldlM (fun b w => store? b w.1 w.2) buffer

theorem storeAll?_eq {buffer : List UInt8} {writes : List (Nat × List UInt8)}
    (h : ∀ w ∈ writes, w.1 + w.2.length ≤ buffer.length) :
    storeAll? buffer writes = some (writes.foldl (fun b w => splice b w.1 w.2) buffer) := by
  induction writes generalizing buffer with
  | nil => rfl
  | cons w rest ih =>
      have hw := h w List.mem_cons_self
      have hrest : ∀ v ∈ rest, v.1 + v.2.length ≤ (splice buffer w.1 w.2).length := fun v hv => by
        rw [length_splice hw]
        exact h v (List.mem_cons_of_mem w hv)
      have hstore : store? buffer w.1 w.2 = some (splice buffer w.1 w.2) :=
        store?_eq_some.mpr ⟨hw, rfl⟩
      have htail := ih hrest
      rw [storeAll?] at htail ⊢
      rw [List.foldlM_cons, hstore, List.foldl_cons]
      exact htail

/-- Blocks placed one behind the other. -/
def inRow (pos : Nat) : List (List UInt8) → List (Nat × List UInt8)
  | [] => []
  | block :: rest => (pos, block) :: inRow (pos + block.length) rest

/-- Copying a row of blocks is one copy. -/
theorem foldl_inRow {buffer : List UInt8} {pos : Nat} {blocks : List (List UInt8)}
    (h : pos + blocks.flatten.length ≤ buffer.length) :
    (inRow pos blocks).foldl (fun b w => splice b w.1 w.2) buffer =
      splice buffer pos blocks.flatten := by
  induction blocks generalizing buffer pos with
  | nil => simp [inRow, splice]
  | cons block rest ih =>
      rw [List.flatten_cons, List.length_append] at h
      have hrest : pos + block.length + rest.flatten.length ≤ (splice buffer pos block).length := by
        rw [length_splice (by omega)]
        omega
      rw [inRow, List.foldl_cons, ih hrest, splice_splice (by omega), List.flatten_cons]

/-- The block of `len` bytes at `pos`: `none` when it is not all in the buffer. -/
def load? (buffer : List UInt8) (pos len : Nat) : Option (List UInt8) :=
  if pos + len ≤ buffer.length then some ((buffer.drop pos).take len) else none

theorem load?_append {front block rest : List UInt8} {pos len : Nat} (hpos : front.length = pos)
    (hlen : block.length = len) : load? (front ++ (block ++ rest)) pos len = some block := by
  subst hpos hlen
  rw [load?, List.drop_left, List.take_left]
  exact if_pos (by simp only [List.length_append]; omega)

theorem load?_eq_some {buffer block : List UInt8} {pos len : Nat} :
    load? buffer pos len = some block ↔
      pos + len ≤ buffer.length ∧ (buffer.drop pos).take len = block := by
  unfold load?
  split
  · simp_all
  · simp_all

theorem length_of_load? {buffer block : List UInt8} {pos len : Nat}
    (h : load? buffer pos len = some block) : block.length = len := by
  obtain ⟨hfits, rfl⟩ := load?_eq_some.mp h
  rw [List.length_take, List.length_drop]
  omega

/-- What was copied is read back. -/
theorem load?_splice {buffer block : List UInt8} {pos : Nat}
    (h : pos + block.length ≤ buffer.length) :
    load? (splice buffer pos block) pos block.length = some block :=
  load?_eq_some.mpr ⟨by rw [length_splice h]; exact h, window_splice block (by omega)⟩

/-- What stands apart from the copy is as it was. -/
theorem load?_splice_apart {buffer block : List UInt8} {pos i len : Nat}
    (h : pos + block.length ≤ buffer.length) (hapart : i + len ≤ pos ∨ pos + block.length ≤ i) :
    load? (splice buffer pos block) i len = load? buffer i len := by
  rw [load?, load?, length_splice h]
  rcases hapart with hbefore | hbehind
  · rw [window_splice_before block (by omega) hbefore]
  · rw [window_splice_behind len block (by omega) hbehind]

/-- The blocks of a row are read where they were placed. -/
theorem load?_inRow {front rest : List UInt8} {blocks : List (List UInt8)} {pos : Nat}
    (hpos : front.length = pos) : ∀ w ∈ inRow pos blocks,
      load? (front ++ (blocks.flatten ++ rest)) w.1 w.2.length = some w.2 := by
  induction blocks generalizing front pos with
  | nil => exact fun w hw => absurd hw List.not_mem_nil
  | cons block later ih =>
      intro w hw
      rw [List.flatten_cons, List.append_assoc]
      rcases List.mem_cons.mp hw with rfl | hw
      · exact load?_append hpos rfl
      · rw [← List.append_assoc]
        exact ih (by rw [List.length_append, hpos]) w hw

end Bytes
