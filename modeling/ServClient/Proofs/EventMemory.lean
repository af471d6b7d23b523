/-
No member of an event reads or writes past its buffers, or where one does.

`ReadFrom` assigns the two header fields from bytes nobody has looked at, and checks the
length only then; the check is enough.  `Read` and `Write` check a sum that may have been
reduced modulo 2^32, and the block form of `Write` takes a negative size for a small one.
-/
import ServClient.EventMemory
import ServClient.Proofs.Events

namespace ServClient

namespace XLThreadEvent

/-! ### Decoding what anybody may have sent

Nothing is assumed of the bytes.  The guard of `ReadFrom` compares the length it was given with what
the event had before, and the copy that follows stays within the source all the same.
-/

theorem load?_eq {bytes : List UInt8} {pos len : Nat} (h : pos + len ≤ bytes.length) :
    Bytes.load? bytes pos len = some ((bytes.drop pos).take len) := if_pos h

/-- The checks of the copies are never needed. -/
theorem readFrom?_eq {e : XLThreadEvent} (he : 0 ≤ e.iLength) {source : Option (List UInt8)}
    {length : Int} (hsource : ∀ bytes ∈ source, bytes.length = length.toNat) :
    e.readFrom? source length = some (e.readFrom source length) := by
  cases source with
  | none => rfl
  | some bytes =>
      have hbytes := hsource bytes rfl
      by_cases hguard : e.writableSize ≤ length
      · have hheader : 8 ≤ bytes.length := by
          unfold writableSize metaDataLength at hguard
          omega
        have htype : Bytes.load? bytes 0 4 = some (bytes.take 4) := load?_eq (by omega)
        have hlen : Bytes.load? bytes 4 4 = some ((bytes.drop 4).take 4) := load?_eq (by omega)
        simp only [readFrom?, readFrom, if_pos hguard, htype, hlen, Option.map_some,
          Option.bind_eq_bind, Option.bind_some]
        split
        · rename_i hpayload
          rw [load?_eq (by omega), Option.map_some, setData_some _ _ hpayload.1,
            setData_some _ _ hpayload.1, List.take_take, Nat.min_self]
        · rfl
      · simp only [readFrom?, readFrom, if_neg hguard]

/-- What a decoded event says is in the source. -/
def Decoded (source : Option (List UInt8)) (length : Int) (e : XLThreadEvent) : Prop :=
  ∃ bytes, source = some bytes ∧ e.iType = Bytes.toInt (bytes.take 4) ∧
    (e.iLength = 0 ∧ e.payload = [] ∨
      8 + e.iLength ≤ length ∧ e.payload = (bytes.drop 8).take e.iLength.toNat)

/--
`ReadFrom` reads within the source, whatever is in it, and leaves an event that has the bytes its
length says.  An event it has changed says what the source does.
-/
theorem readFrom_safe {e : XLThreadEvent} (he : e.Sized) {source : Option (List UInt8)}
    {length : Int} (hlength : IsInt length)
    (hsource : ∀ bytes ∈ source, bytes.length = length.toNat) :
    ∃ e', e.readFrom? source length = some e' ∧ e'.Sized ∧
      (e' ≠ e → Decoded source length e') := by
  refine ⟨_, readFrom?_eq he.nonneg hsource, ?_⟩
  cases source with
  | none => exact ⟨he, fun hne => absurd rfl hne⟩
  | some bytes =>
      have hbytes := hsource bytes rfl
      by_cases hguard : e.writableSize ≤ length
      · simp only [readFrom, if_pos hguard]
        split
        · rename_i hpayload
          rw [setData_some _ _ hpayload.1]
          have hlen : ((bytes.drop 8).take (Bytes.toInt ((bytes.drop 4).take 4)).toNat).length =
              (Bytes.toInt ((bytes.drop 4).take 4)).toNat := by
            rw [List.length_take, List.length_drop]
            omega
          have hmax := hlength.2
          refine ⟨⟨Int.le_of_lt hpayload.1, ?_, fun _ => ⟨_, rfl, hlen⟩⟩, fun _ => ?_⟩
          · unfold intMax
            dsimp only
            omega
          · refine ⟨bytes, rfl, rfl, Or.inr ⟨by dsimp only; omega, ?_⟩⟩
            rw [payload, Option.getD_some, List.take_take, Nat.min_self]
        · exact ⟨⟨Int.le_refl 0, (by decide : (0 : Int) ≤ intMax - 8),
              fun hpos => absurd hpos (Int.lt_irrefl 0)⟩,
            fun _ => ⟨bytes, rfl, rfl, Or.inl ⟨rfl, payload_of_nonpos (Int.le_refl 0)⟩⟩⟩
      · simp only [readFrom, if_neg hguard]
        exact ⟨he, fun hne => absurd rfl hne⟩

/-- A frame that announces 2^31 - 1 bytes and has one. -/
theorem readFrom_safe_huge :
    ∃ e', new.readFrom? (some [17, 0, 0, 0, 255, 255, 255, 127, 65]) 9 = some e' ∧ e'.Sized ∧
      (e' ≠ new → Decoded (some [17, 0, 0, 0, 255, 255, 255, 127, 65]) 9 e') :=
  readFrom_safe (e := new) ⟨by decide, by decide, fun hpos => absurd hpos (by decide)⟩
    (by decide) (by rintro bytes ⟨⟩; rfl)

/-! ### The fields of a payload

Sums of a place and a size are made in `size_t` and compared as `int`s.  Where the sum is no `int`
the comparison can come out wrong, and the conditions below say for which fields it does not.
-/

/-- A converted sum is the sum up to a multiple of 2^32, and an `int`. -/
theorem castInt_spec (x : Int) : ∃ m : Int, castInt x = x - 4294967296 * m ∧ IsInt (castInt x) := by
  have hbmod : castInt x = Int.bmod x 4294967296 := rfl
  refine ⟨Int.bdiv x 4294967296, ?_, ?_⟩
  · rw [hbmod, Int.bmod_eq_self_sub_mul_bdiv]
    rfl
  · have hlow := Int.le_bmod (x := x) (m := 4294967296) (by decide)
    have hhigh := Int.bmod_lt (x := x) (m := 4294967296) (by decide)
    rw [hbmod]
    constructor <;> omega

/-- What `AddData` copies is inside as long as the new length is an `int`. -/
theorem addDataCopies_inside {e : XLThreadEvent} (hbuffer : e.bufferSize = e.iLength)
    {length : Int} (hfits : 0 < length → castInt (e.iLength + length) = e.iLength + length) :
    ∀ c ∈ e.addDataCopies length, c.Inside := by
  have hnonneg : 0 ≤ e.iLength := by
    rw [← hbuffer]
    exact Int.natCast_nonneg _
  unfold addDataCopies
  split
  · rename_i hvalid
    rw [hfits hvalid.2]
    simp only [List.forall_mem_cons, List.not_mem_nil, false_imp_iff, implies_true, and_true,
      Copy.Inside, hbuffer]
    omega
  · split
    · simp only [List.forall_mem_singleton, Copy.Inside]
      omega
    · exact fun c hc => absurd hc List.not_mem_nil

/-- `Read` tells whether the field is there, and none of the three calls copies anything that
is not in its buffer. -/
def FieldsSafe (e : XLThreadEvent) (place : Int) (k : Nat) (size : Int) : Prop :=
  ((e.read place k).isSome = true ↔ 0 ≤ place ∧ place + k ≤ e.iLength) ∧
    (∀ c ∈ e.readCopies place k, c.Inside) ∧ (∀ c ∈ e.writeCopies place k, c.Inside) ∧
    ∀ c ∈ e.writeBlockCopies place size, c.Inside

/-- The end of a field of `k` bytes is an `int`, or is past the payload also after its
conversion to one. -/
def FieldEnds (e : XLThreadEvent) (place : Int) (k : Nat) : Prop :=
  place + k ≤ intMax ∨ e.iLength < castInt (place + k)

/-- The size of a block is not negative and its end is an `int`, or it is negative and still its
end is past the payload. -/
def BlockEnds (e : XLThreadEvent) (place size : Int) : Prop :=
  0 ≤ size ∧ place + size ≤ intMax ∨ size < 0 ∧ e.iLength < place + size

theorem inPlace_iff {e : XLThreadEvent} {place : Int} {k : Nat} (hplace : 0 ≤ place) :
    e.inPlace place k = true ↔ castInt (place + k) ≤ e.iLength := by
  simp [inPlace, hplace]

theorem read_isSome (e : XLThreadEvent) (place : Int) (k : Nat) :
    (e.read place k).isSome = e.inPlace place k := by
  unfold read
  split
  · rename_i h; exact h.symm
  · rename_i h; simpa using h

variable {e : XLThreadEvent} {place size : Int} {k : Nat}

/-- Where the end of a field is no `int`, it is not in the payload. -/
theorem FieldEnds.read_iff (h : FieldEnds e place k) (hint : IsInt e.iLength) (hplace : 0 ≤ place) :
    castInt (place + k) ≤ e.iLength ↔ place + k ≤ e.iLength := by
  have hmax := hint.2
  by_cases hfits : place + k ≤ intMax
  · rw [castInt_eq ⟨by omega, hfits⟩]
  · have hlt := h.resolve_left hfits
    unfold intMax at hfits
    omega

/-- `Write` appends a field whose new end is an `int`. -/
theorem FieldEnds.append (h : FieldEnds e e.iLength k) (hnonneg : 0 ≤ e.iLength)
    (hpos : 0 < castInt k) : castInt (e.iLength + castInt k) = e.iLength + castInt k := by
  refine castInt_eq ⟨by omega, ?_⟩
  obtain ⟨m, hm, hk⟩ := castInt_spec k
  rcases h with hfits | hlt
  · unfold intMax at hfits
    rw [castInt_eq ⟨by omega, by omega⟩]
    exact hfits
  · -- Both conversions take the same multiple of 2^32 away.
    obtain ⟨n, hn, hsum⟩ := castInt_spec (e.iLength + k)
    have hlow := hk.1
    have hhigh := hk.2
    have hmax := hsum.2
    omega

theorem FieldEnds.writeCopies (h : FieldEnds e place k) (hbuffer : e.bufferSize = e.iLength)
    (hint : IsInt e.iLength) (hplace : 0 ≤ place) : ∀ c ∈ e.writeCopies place k, c.Inside := by
  unfold XLThreadEvent.writeCopies
  split
  · rename_i hin
    have hend := (h.read_iff hint hplace).mp ((inPlace_iff hplace).mp hin)
    simp only [List.forall_mem_singleton, Copy.Inside, hbuffer]
    omega
  · split
    · rename_i hend
      subst hend
      exact addDataCopies_inside hbuffer (h.append hplace)
    · exact fun c hc => absurd hc List.not_mem_nil

theorem BlockEnds.writeBlockCopies (h : BlockEnds e place size)
    (hbuffer : e.bufferSize = e.iLength) (hplace : IsInt place) (hsize : IsInt size) :
    ∀ c ∈ e.writeBlockCopies place size, c.Inside := by
  have hmax := hplace.2
  have hmin := hsize.1
  unfold XLThreadEvent.writeBlockCopies
  rcases h with ⟨hcount, hfits⟩ | ⟨hneg, hlt⟩
  · split
    · rename_i hin
      rw [castInt_eq ⟨by omega, hfits⟩] at hin
      simp only [List.forall_mem_singleton, Copy.Inside, hbuffer]
      omega
    · split
      · rename_i hend
        rw [hend] at hfits
        have hmin' := hplace.1
        exact addDataCopies_inside hbuffer fun hpos => castInt_eq ⟨by omega, hfits⟩
      · exact fun c hc => absurd hc List.not_mem_nil
  · have hnonneg : 0 ≤ e.iLength := by
      rw [← hbuffer]
      exact Int.natCast_nonneg _
    rw [castInt_eq ⟨by omega, by omega⟩, if_neg (by omega), if_neg (by omega)]
    exact fun c hc => absurd hc List.not_mem_nil

/-- A block whose end is reduced to an `int` in the payload is copied all the same. -/
theorem BlockEnds.of_inside (h : ∀ c ∈ e.writeBlockCopies place size, c.Inside)
    (hbuffer : e.bufferSize = e.iLength) (hint : IsInt e.iLength) (hpos : 0 ≤ place)
    (hplace : IsInt place) (hsize : IsInt size) : BlockEnds e place size := by
  have hnonneg : 0 ≤ e.iLength := by
    rw [← hbuffer]
    exact Int.natCast_nonneg _
  have hlength := hint.2
  have hmax := hplace.2
  have hmin := hsize.1
  have htop := hsize.2
  by_contra hbad
  unfold BlockEnds intMax at hbad
  obtain ⟨m, hm, hlow, hhigh⟩ := castInt_spec (place + size)
  have hcopy : (⟨place, size, e.bufferSize⟩ : Copy) ∈ e.writeBlockCopies place size := by
    unfold XLThreadEvent.writeBlockCopies
    rw [if_pos ⟨hpos, by omega⟩]
    exact List.mem_singleton_self _
  have hinside := h _ hcopy
  simp only [Copy.Inside, hbuffer] at hinside
  omega

/--
The three calls are safe at a place exactly if it is negative, or neither the end of the field nor
that of the block is taken for one that is in the payload.
-/
theorem fields_safe_iff (hbuffer : e.bufferSize = e.iLength) (hint : IsInt e.iLength)
    (hplace : IsInt place) (hsize : IsInt size) :
    FieldsSafe e place k size ↔ (0 ≤ place → FieldEnds e place k ∧ BlockEnds e place size) := by
  have hnonneg : 0 ≤ e.iLength := by
    rw [← hbuffer]
    exact Int.natCast_nonneg _
  have hmax := hint.2
  constructor
  · rintro ⟨hread, -, -, hblock⟩ hpos
    refine ⟨?_, BlockEnds.of_inside hblock hbuffer hint hpos hplace hsize⟩
    by_contra hbad
    unfold FieldEnds intMax at hbad
    rw [read_isSome, inPlace_iff hpos] at hread
    have := (hread.mp (by omega)).2
    omega
  · intro h
    by_cases hpos : 0 ≤ place
    · obtain ⟨hfield, hends⟩ := h hpos
      refine ⟨?_, ?_, hfield.writeCopies hbuffer hint hpos,
        hends.writeBlockCopies hbuffer hplace hsize⟩
      · rw [read_isSome, inPlace_iff hpos, hfield.read_iff hint hpos]
        exact (and_iff_right hpos).symm
      · unfold readCopies
        split
        · rename_i hin
          have hend := (hfield.read_iff hint hpos).mp ((inPlace_iff hpos).mp hin)
          simp only [List.forall_mem_singleton, Copy.Inside, hbuffer]
          omega
        · exact fun c hc => absurd hc List.not_mem_nil
    · have hout : e.inPlace place k = false := by simp [inPlace, hpos]
      have hne : place ≠ e.iLength := by omega
      simp [FieldsSafe, read, readCopies, writeCopies, writeBlockCopies, hout, hpos, hne]

/-- A field of four bytes at the front, and a block of two. -/
theorem fields_safe_iff_front :
    FieldsSafe ⟨some [1, 2, 3, 4], 4, 17⟩ 0 4 2 ↔
      ((0 : Int) ≤ 0 → FieldEnds ⟨some [1, 2, 3, 4], 4, 17⟩ 0 4 ∧
        BlockEnds ⟨some [1, 2, 3, 4], 4, 17⟩ 0 2) :=
  fields_safe_iff (by decide) (by decide) (by decide) (by decide)

/-- Seven bytes before the end of the `int`s, a field of eight is found in four bytes. -/
theorem fields_unsafe_at_int_max : ¬FieldsSafe ⟨some [1, 2, 3, 4], 4, 17⟩ 2147483641 8 4 := by
  intro hsafe
  have hend := (hsafe.1.mp (by decide)).2
  exact absurd hend (by decide)

end XLThreadEvent

end ServClient
