/-
The laws of getting and setting a field of a message.

Bytes that are set from a block of the caller's come back, and nothing else changes, wherever the
message reaches the end of the field; `m_MessLength` is not looked at.  An `int` is another
matter.  Its value is taken for an address, so something is set only where that is an address in
the message, and the value comes back only if it stands there.  For the port one byte is set and
one is read, and the other three of the `int` are the caller's.
-/
import ServClient.DataInterpreter
import ServClient.Proofs.SocketConfig

namespace ServClient

open SocketConfig

/-- The fields of the message. -/
inductive CommField
  | ip
  | ipType
  | port
deriving DecidableEq, Repr

namespace CommField

/-- The number by which `SetField` and `GetField` know the field. -/
def identifier : CommField → Int
  | ip => ServClientCommDI.ip
  | ipType => ServClientCommDI.ipType
  | port => ServClientCommDI.port

/-- Where its bytes begin. -/
def start : CommField → Nat
  | ip => 4
  | ipType => 10
  | port => 14

/-- How many there are. -/
def width : CommField → Nat
  | ip => 6
  | ipType => 4
  | port => 1

/-- How much of the field is set and read as an `int`. -/
def intWidth : CommField → Nat
  | ip => 4
  | ipType => 4
  | port => 1

theorem four_le_start (f : CommField) : 4 ≤ f.start := by cases f <;> decide

theorem intWidth_le_width (f : CommField) : f.intWidth ≤ f.width := by cases f <;> decide

theorem intWidth_le_four (f : CommField) : f.intWidth ≤ 4 := by cases f <;> decide

theorem apart {f g : CommField} (h : g ≠ f) :
    g.start + g.width ≤ f.start ∨ f.start + f.width ≤ g.start := by
  revert h
  cases f <;> cases g <;> decide

end CommField

namespace ServClientCommDI

variable {d d' : ServClientCommDI} {f : CommField}

theorem getData_field (d : ServClientCommDI) (data : List UInt8) (len : Int) (f : CommField) :
    d.getData data len f.identifier = d.copyOut data f.start (copyLength len f.width) := by
  cases f <;> rfl

theorem setData_field (d : ServClientCommDI) (data : DataPointer) (len : Int) (f : CommField) :
    d.setData data len f.identifier = d.copyIn data f.start (copyLength len f.width) := by
  cases f <;> rfl

theorem copyLength_width (n : Nat) : copyLength n n = n := if_neg (lt_irrefl _)

theorem copyLength_int (f : CommField) : copyLength 4 f.width = f.intWidth := by cases f <;> rfl

/-! ### The copies

`memcpy` on a message that has an address: a copy out of it or into it is made where the message is,
and what is beside the field stays as it is.
-/

theorem copyOut_eq (d : ServClientCommDI) (data : List UInt8) (start n : Nat) :
    d.copyOut data start n =
      (Bytes.load? d.message start n).bind fun block => Bytes.store? data 0 block :=
  if_neg (by omega)

/-- What is read has nothing to do with a copy beside it. -/
theorem copyOut_apart {block : List UInt8} {pos start n : Nat}
    (hfits : pos + block.length ≤ d.message.length)
    (hmessage : d'.message = Bytes.splice d.message pos block) (data : List UInt8)
    (hapart : start + n ≤ pos ∨ pos + block.length ≤ start) :
    d'.copyOut data start n = d.copyOut data start n := by
  rw [copyOut_eq, copyOut_eq, hmessage, Bytes.load?_splice_apart hfits hapart]

theorem length_of_fetch {start n : Nat} {data : DataPointer} {block : List UInt8}
    (h : d.fetch start n data = some block) : block.length = n := by
  cases data with
  | block bytes => exact Bytes.length_of_load? h
  | «at» source =>
      rw [fetch] at h
      split at h
      · exact Bytes.length_of_load? h
      · cases h

/-- A copy into the message changes the place it is made to. -/
theorem copyIn_cases (d : ServClientCommDI) (start n : Nat) (data : DataPointer) :
    (∃ block d', d.fetch start n data = some block ∧ block.length = n ∧
        start + n ≤ d.message.length ∧ d.copyIn data start n = some d' ∧
        d'.message = Bytes.splice d.message start block) ∨
      ((d.fetch start n data = none ∨ ¬ start + n ≤ d.message.length) ∧
        d.copyIn data start n = none) := by
  rw [copyIn, if_neg (by omega)]
  cases hfetch : d.fetch start n data with
  | none => exact Or.inr ⟨Or.inl rfl, by simp [hfetch]⟩
  | some block =>
      have hlen := length_of_fetch hfetch
      by_cases hfits : start + n ≤ d.message.length
      · refine Or.inl ⟨block, ?_⟩
        simp [hfetch, hlen, hfits]
      · refine Or.inr ⟨Or.inr hfits, ?_⟩
        simp [hfetch, hlen, hfits]

/-- The field is in the message. -/
def Covers (d : ServClientCommDI) (f : CommField) : Prop := f.start + f.width ≤ d.message.length

/-- A copy of at most the field changes neither the type nor another field. -/
structure SameElsewhere (f : CommField) (d d' : ServClientCommDI) : Prop where
  type : d'.getType = d.getType
  others : ∀ g, g ≠ f → ∀ data len,
    d'.getData data len g.identifier = d.getData data len g.identifier

theorem copyLength_le (len width : Int) :
    copyLength len width ≤ width ∧ copyLength len width ≤ len := by
  rw [copyLength]
  split <;> omega

theorem sameElsewhere_of_splice {block : List UInt8}
    (hfits : f.start + block.length ≤ d.message.length) (hwidth : block.length ≤ f.width)
    (hmessage : d'.message = Bytes.splice d.message f.start block) : SameElsewhere f d d' := by
  have hlen : d'.message.length = d.message.length := by
    rw [hmessage, Bytes.length_splice hfits]
  have hstart := f.four_le_start
  refine ⟨?_, fun g hg data len => ?_⟩
  · have hle := copyLength_le d.message.length 4
    have hload : Bytes.load? d'.message 0 (copyLength d.message.length 4).toNat =
        Bytes.load? d.message 0 (copyLength d.message.length 4).toNat := by
      rw [hmessage]
      exact Bytes.load?_splice_apart hfits (Or.inl (by omega))
    rw [getType, getType, hlen, hload]
  · have hle := copyLength_le len g.width
    have hapart := CommField.apart hg
    rw [getData_field, getData_field]
    by_cases hneg : copyLength len g.width < 0
    · rw [copyOut, copyOut, if_pos hneg, if_pos hneg]
    · obtain ⟨n, hn⟩ := Int.eq_ofNat_of_zero_le (not_lt.mp hneg)
      rw [hn] at hle ⊢
      exact copyOut_apart hfits hmessage data (by omega)

/-! ### Blocks -/

/-- What is read of a field that was set. -/
theorem copyOut_set {block data : List UInt8}
    (hfits : f.start + block.length ≤ d.message.length)
    (hmessage : d'.message = Bytes.splice d.message f.start block)
    (hdata : block.length ≤ data.length) :
    d'.copyOut data f.start block.length = some (block ++ data.drop block.length) := by
  rw [copyOut_eq, hmessage, Bytes.load?_splice hfits, Option.bind_some,
    Bytes.store?_eq_some.mpr ⟨by omega, Bytes.splice_zero data block⟩]

/-- A block that is set comes back, and nothing else changes, where the message covers the
field. -/
theorem setData_block {block : List UInt8} (hblock : block.length = f.width) (hd : Covers d f) :
    ∃ d', d.setData (.block block) f.width f.identifier = some d' ∧ SameElsewhere f d d' ∧
      ∀ out, out.length = f.width → d'.getData out f.width f.identifier = some block := by
  have hfetch : d.fetch f.start f.width (.block block) = some block := by
    rw [fetch, Bytes.load?_eq_some]
    exact ⟨by omega, by rw [← hblock, List.drop_zero, List.take_length]⟩
  rw [setData_field, copyLength_width]
  rcases copyIn_cases d f.start f.width (.block block) with
    ⟨read, d', hread, -, hfits, hset, hmessage⟩ | ⟨hno, -⟩
  · obtain rfl : block = read := Option.some.inj (hfetch.symm.trans hread)
    rw [← hblock] at hfits
    refine ⟨d', hset, sameElsewhere_of_splice hfits (le_of_eq hblock) hmessage, fun out hout => ?_⟩
    rw [getData_field, copyLength_width, ← hblock, copyOut_set hfits hmessage (by omega),
      List.drop_of_length_le (by omega), List.append_nil]
  · rw [hfetch] at hno
    exact absurd hd (hno.resolve_left (by simp))

theorem not_setData_block {block : List UInt8} (hd : ¬ Covers d f) :
    d.setData (.block block) f.width f.identifier = none := by
  rw [setData_field, copyLength_width]
  rcases copyIn_cases d f.start f.width (.block block) with ⟨-, -, -, -, hfits, -⟩ | ⟨-, hnone⟩
  · exact absurd hfits hd
  · exact hnone

/-! ### Integers

`SetData` for an `int` casts the value to a pointer and copies from there.  A value that happens to
be the address of its own bytes comes back; any other does not, or is not there to be read.
-/

/-- The bytes that `SetData` takes for the value of an `int`: they stand in the message at the
address it is cast to, apart from where they go. -/
def PointsAt (d : ServClientCommDI) (v : Int32) (f : CommField) (bytes : List UInt8) : Prop :=
  ∃ source, DataPointer.ofInt32 v = .at (d.address + source) ∧
    Bytes.load? d.message source f.intWidth = some bytes ∧
    (source + f.intWidth ≤ f.start ∨ f.start + f.intWidth ≤ source)

theorem fetch_ofInt32 (d : ServClientCommDI) (v : Int32) (f : CommField) (bytes : List UInt8) :
    d.fetch f.start f.intWidth (.ofInt32 v) = some bytes ↔ PointsAt d v f bytes := by
  simp only [PointsAt, DataPointer.ofInt32, DataPointer.at.injEq]
  rw [fetch]
  constructor
  · intro h
    split at h
    · rename_i hin
      obtain ⟨hlow, hapart⟩ := hin
      exact ⟨_, by omega, h, by omega⟩
    · cases h
  · rintro ⟨source, hsource, hload, hapart⟩
    rw [hsource, if_pos ⟨by omega, by omega⟩, Nat.add_sub_cancel_left]
    exact hload

/-- An `int` is set where it points into the message. -/
theorem setInt_cases (d : ServClientCommDI) (v : Int32) (hd : Covers d f) :
    (∃ bytes d', PointsAt d v f bytes ∧ bytes.length = f.intWidth ∧
        d.setInt v f.identifier = some d' ∧
        d'.message = Bytes.splice d.message f.start bytes) ∨
      ((∀ bytes, ¬ PointsAt d v f bytes) ∧ d.setInt v f.identifier = none) := by
  have hwidth := f.intWidth_le_width
  rw [setInt, setData_field, copyLength_int]
  rcases copyIn_cases d f.start f.intWidth (.ofInt32 v) with
    ⟨bytes, d', hfetch, hlen, -, hset, hmessage⟩ | ⟨hno, hnone⟩
  · exact Or.inl ⟨bytes, d', (fetch_ofInt32 d v f bytes).mp hfetch, hlen, hset, hmessage⟩
  · refine Or.inr ⟨fun bytes hbytes => ?_, hnone⟩
    have hfits : f.start + f.intWidth ≤ d.message.length := le_trans (by omega) hd
    rw [(fetch_ofInt32 d v f bytes).mpr hbytes] at hno
    exact hno.elim (by simp) (absurd hfits)

/-- What is then read is the bytes there, and what the `int` held before behind them. -/
theorem getInt_set {bytes : List UInt8} (hd : Covers d f) (hlen : bytes.length = f.intWidth)
    (hmessage : d'.message = Bytes.splice d.message f.start bytes) (w : Int32) :
    d'.getInt w f.identifier = some (toInt32 (bytes ++ (ofInt32 w).drop f.intWidth)) := by
  have hwidth := f.intWidth_le_width
  have hfour := f.intWidth_le_four
  have hfits : f.start + bytes.length ≤ d.message.length := le_trans (by omega) hd
  have hdata : bytes.length ≤ (ofInt32 w).length := by
    rw [length_ofInt32]
    omega
  rw [getInt, getData_field, copyLength_int, ← hlen, copyOut_set hfits hmessage hdata,
    Option.map_some]

/-- One byte does not make an `int`: what is read depends on what was there. -/
theorem toInt32_low_byte (b : UInt8) : toInt32 [b, 0, 0, 0] ≠ toInt32 [b, 1, 0, 0] := by
  have hb := b.toNat_lt
  intro h
  have hlow : Bytes.toInt [b, 0, 0, 0] = b.toNat := by
    rw [Bytes.toInt]
    exact Int.bmod_eq_of_le (by simp [Bytes.toNat]) (by simp [Bytes.toNat]; omega)
  have hhigh : Bytes.toInt [b, 1, 0, 0] = b.toNat + 256 := by
    rw [Bytes.toInt]
    exact Int.bmod_eq_of_le (by simp [Bytes.toNat]; omega) (by simp [Bytes.toNat]; omega)
  have heq := congrArg Int32.toInt h
  rw [toInt32, toInt32, hlow, hhigh, Int32.toInt_ofInt_of_le (by omega) (by omega),
    Int32.toInt_ofInt_of_le (by omega) (by omega)] at heq
  omega

/-! ### The laws -/

/-- The laws of one field: what is set comes back, the rest stays, and every copy is made inside
the message. -/
structure Lawful (d : ServClientCommDI) (f : CommField) (v : Int32) (block : List UInt8) :
    Prop where
  type : d.getType.isSome ∧ ∀ type, (d.setType type).isSome
  get : (∀ w, (d.getInt w f.identifier).isSome) ∧
    ∀ out, out.length = f.width → (d.getData out f.width f.identifier).isSome
  setInt : ∃ d', d.setInt v f.identifier = some d' ∧ SameElsewhere f d d' ∧
    (f ≠ .ip → ∀ w, d'.getInt w f.identifier = some v)
  setBlock : ∃ d', d.setData (.block block) f.width f.identifier = some d' ∧
    SameElsewhere f d d' ∧
    ∀ out, out.length = f.width → d'.getData out f.width f.identifier = some block

/-- The message covers the field, and the value of the `int` is the address of bytes in it that
make the `int`, if the field is to give it back. -/
def Settable (d : ServClientCommDI) (f : CommField) (v : Int32) : Prop :=
  f ≠ .port ∧ Covers d f ∧ ∃ bytes, PointsAt d v f bytes ∧ (f = .ipType → toInt32 bytes = v)

theorem getType_isSome (d : ServClientCommDI) : d.getType.isSome := by
  rw [getType]
  split
  · have hle := copyLength_le d.message.length 4
    obtain ⟨block, hload⟩ : ∃ block,
        Bytes.load? d.message 0 (copyLength d.message.length 4).toNat = some block :=
      ⟨_, Bytes.load?_eq_some.mpr ⟨by omega, rfl⟩⟩
    have hblock := Bytes.length_of_load? hload
    have hstore : Bytes.store? (ofInt32 0) 0 block = some (Bytes.splice (ofInt32 0) 0 block) :=
      Bytes.store?_eq_some.mpr ⟨by rw [length_ofInt32]; omega, rfl⟩
    rw [hload, Option.bind_eq_bind, Option.bind_some, hstore]
    rfl
  · rfl

theorem setType_isSome (d : ServClientCommDI) (type : Int32) : (d.setType type).isSome := by
  rw [setType]
  split
  · have hle := copyLength_le d.message.length 4
    obtain ⟨block, hload⟩ : ∃ block,
        Bytes.load? (ofInt32 type) 0 (copyLength d.message.length 4).toNat = some block :=
      ⟨_, Bytes.load?_eq_some.mpr ⟨by rw [length_ofInt32]; omega, rfl⟩⟩
    have hblock := Bytes.length_of_load? hload
    rw [hload, Option.bind_eq_bind, Option.bind_some]
    have hfetch : d.fetch 0 block.length (.block block) = some block :=
      Bytes.load?_eq_some.mpr ⟨by omega, by rw [List.drop_zero, List.take_length]⟩
    rcases copyIn_cases d 0 block.length (.block block) with
      ⟨-, d', -, -, -, hset, -⟩ | ⟨hno, -⟩
    · have hset' : d.copyIn (.block block) 0 block.length = some d' := hset
      rw [hset']
      rfl
    · rw [hfetch] at hno
      exact absurd (by omega) (hno.resolve_left (by simp))
  · rfl

/-- Reading copies what it can of the field. -/
theorem getData_isSome {data : List UInt8} {n : Nat} (hd : Covers d f) (hn : n ≤ f.width)
    (hdata : n ≤ data.length) : (d.copyOut data f.start n).isSome := by
  have hload : Bytes.load? d.message f.start n = some ((d.message.drop f.start).take n) :=
    Bytes.load?_eq_some.mpr ⟨le_trans (by omega) hd, rfl⟩
  have hlen := Bytes.length_of_load? hload
  rw [copyOut_eq, hload, Option.bind_some, Bytes.store?, if_pos (by omega)]
  rfl

theorem get_isSome (hd : Covers d f) :
    (∀ w, (d.getInt w f.identifier).isSome) ∧
      ∀ out, out.length = f.width → (d.getData out f.width f.identifier).isSome := by
  refine ⟨fun w => ?_, fun out hout => ?_⟩
  · rw [getInt, Option.isSome_map, getData_field, copyLength_int]
    exact getData_isSome hd f.intWidth_le_width (by rw [length_ofInt32]; exact f.intWidth_le_four)
  · rw [getData_field, copyLength_width]
    exact getData_isSome hd le_rfl (le_of_eq hout.symm)

/--
The laws of a field hold if and only if it is not the port, the message reaches its end, and the
value of the `int` is the address of bytes in the message that make it.
-/
theorem lawful_iff (d : ServClientCommDI) (f : CommField) (v : Int32) {block : List UInt8}
    (hblock : block.length = f.width) : Lawful d f v block ↔ Settable d f v := by
  constructor
  · intro h
    have hd : Covers d f := by
      by_contra hd
      obtain ⟨d', hset, -⟩ := h.setBlock
      rw [not_setData_block hd] at hset
      cases hset
    obtain ⟨d', hset, -, hback⟩ := h.setInt
    rcases setInt_cases d v hd with ⟨bytes, d'', hpoints, hlen, hset', hmessage⟩ | ⟨-, hnone⟩
    · obtain rfl : d' = d'' := Option.some.inj (hset.symm.trans hset')
      refine ⟨?_, hd, bytes, hpoints, ?_⟩
      · rintro rfl
        obtain ⟨b, rfl⟩ := List.length_eq_one_iff.mp hlen
        have hread (w : Int32) := (getInt_set hd hlen hmessage w).symm.trans
          (hback (by decide) w)
        exact toInt32_low_byte b (Option.some.inj ((hread 0).trans (hread 256).symm))
      · rintro rfl
        have hread := (getInt_set hd hlen hmessage 0).symm.trans (hback (by decide) 0)
        have hrest : (ofInt32 0).drop CommField.ipType.intWidth = [] := by decide
        rw [hrest, List.append_nil] at hread
        exact Option.some.inj hread
    · rw [hnone] at hset
      cases hset
  · rintro ⟨hport, hd, bytes, hpoints, hvalue⟩
    refine ⟨⟨getType_isSome d, setType_isSome d⟩, get_isSome hd, ?_, setData_block hblock hd⟩
    rcases setInt_cases d v hd with ⟨read, d', hread, hlen, hset, hmessage⟩ | ⟨hno, -⟩
    · have hread' := (fetch_ofInt32 d v f read).mpr hread
      have hpoints' := (fetch_ofInt32 d v f bytes).mpr hpoints
      obtain rfl : read = bytes := Option.some.inj (hread'.symm.trans hpoints')
      have hwidth := f.intWidth_le_width
      have hfits : f.start + read.length ≤ d.message.length := le_trans (by omega) hd
      refine ⟨d', hset, sameElsewhere_of_splice hfits (by omega) hmessage, fun hip w => ?_⟩
      obtain rfl : f = .ipType := by
        cases f
        · exact absurd rfl hip
        · rfl
        · exact absurd rfl hport
      have hrest : (ofInt32 w).drop CommField.ipType.intWidth = [] :=
        List.drop_of_length_le (le_of_eq (length_ofInt32 w))
      rw [getInt_set hd hlen hmessage, hrest, List.append_nil, hvalue rfl]
    · exact absurd hpoints (hno bytes)

/-- Eighteen bytes at the address 1000; the last four make their own address. -/
def selfPointing : ServClientCommDI where
  address := 1000
  message := List.replicate 14 0 ++ [246, 3, 0, 0]
  nonNull := by decide
  inMemory := by decide
  isInt := by decide

theorem lawful_iff_selfPointing :
    Lawful selfPointing .ipType 1014 [1, 2, 3, 4] ↔ Settable selfPointing .ipType 1014 :=
  lawful_iff selfPointing .ipType 1014 (by decide)

/-- The value 1 is taken for an address, and nothing of the message is there. -/
theorem value_as_address : ¬ Lawful selfPointing .ipType 1 [1, 2, 3, 4] := by
  intro h
  obtain ⟨d', hset, -⟩ := h.setInt
  have hnone : selfPointing.setInt 1 CommField.ipType.identifier = none := by decide
  rw [hnone] at hset
  cases hset

end ServClientCommDI

end ServClient
