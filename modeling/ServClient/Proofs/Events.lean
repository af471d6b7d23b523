/-
The wire format of an event, and what decoding gives back.

`WriteTo` leaves a frame at the front of the buffer: type, length, payload.
`ReadFrom` takes the header off and then asks for the payload, and the two compute
their bounds apart from each other: the encoder is content with a buffer of exactly
`WritableSize()` bytes, the decoder wants at least one more.  So a frame comes back
whole from a larger buffer and loses its payload in one that fits.
-/
import ServClient.Events

namespace ServClient

namespace XLThreadEvent

/-! ### Small facts about the definitions -/

@[simp] theorem new_iLength : new.iLength = 0 := rfl
@[simp] theorem reset_iType (e : XLThreadEvent) : e.reset.iType = e.iType := rfl
@[simp] theorem reset_iLength (e : XLThreadEvent) : e.reset.iLength = 0 := rfl
@[simp] theorem reset_pData (e : XLThreadEvent) : e.reset.pData = none := rfl
@[simp] theorem setType_iType (e : XLThreadEvent) (t : Int) : (e.setType t).iType = t := rfl

theorem setData_some (e : XLThreadEvent) (bytes : List UInt8) {length : Int} (h : 0 < length) :
    e.setData (some bytes) length =
      { pData := some (bytes.take length.toNat), iLength := length, iType := e.iType } := by
  simp [setData, h, reset]

theorem payload_of_nonpos {e : XLThreadEvent} (h : e.iLength ≤ 0) : e.payload = [] := by
  have h0 : e.iLength.toNat = 0 := by omega
  simp [payload, h0]

/-- A well-formed event's payload has its recorded length. -/
theorem WellFormed.length_payload {e : XLThreadEvent} (he : e.WellFormed) :
    e.payload.length = e.iLength.toNat := by
  rcases lt_or_ge 0 e.iLength with hpos | hle
  · obtain ⟨bytes, hdata, hlen⟩ := he.buffer hpos
    simp [payload, hdata, hlen]
  · rw [payload_of_nonpos hle]
    simp
    omega

end XLThreadEvent

/-- The event of a message carries exactly the message. -/
theorem Message.event_eq (m : Message) :
    m.event.iType = m.type ∧ m.event.iLength = m.payload.length ∧ m.event.payload = m.payload := by
  unfold Message.event
  rcases Nat.eq_zero_or_pos m.payload.length with hzero | hpos
  · rw [List.length_eq_zero_iff] at hzero
    simp [XLThreadEvent.setData, XLThreadEvent.payload, hzero]
  · rw [XLThreadEvent.setData_some _ _ (by omega)]
    simp [XLThreadEvent.payload]

theorem Message.event_wellFormed (m : Message) : m.event.WellFormed := by
  obtain ⟨ht, hl, hp⟩ := m.event_eq
  have hfits := m.payload_fits
  refine ⟨by rw [ht]; exact m.type_isInt, by omega, by omega, fun hpos => ?_⟩
  refine ⟨m.payload, ?_, by omega⟩
  unfold Message.event
  rw [XLThreadEvent.setData_some _ _ (by omega)]
  simp

namespace XLThreadEvent

/-! ### The frame

The bytes of an event on the wire.  Both ways of encoding it give the frame, and decoding a frame
gives the event back, or what is left of it where the buffer is no longer than the frame.
-/

/-- Type, length, payload: the bytes an event is on the wire. -/
def frame (e : XLThreadEvent) : List UInt8 :=
  Bytes.ofInt 4 e.iType ++ Bytes.ofInt 4 e.iLength ++ e.payload

theorem WellFormed.length_frame {e : XLThreadEvent} (he : e.WellFormed) :
    (e.frame.length : Int) = e.writableSize := by
  have hnonneg := he.nonneg
  simp only [frame, List.length_append, Bytes.length_ofInt, he.length_payload, writableSize,
    metaDataLength]
  omega

/-- A large enough buffer receives the frame at its front and keeps the rest. -/
theorem writeTo_eq {e : XLThreadEvent} {length : Int} (h : e.writableSize ≤ length)
    (buffer : List UInt8) :
    e.writeTo (some buffer) length = some (e.frame ++ buffer.drop e.frame.length) := by
  have hheader : Bytes.splice (Bytes.splice buffer 0 (Bytes.ofInt 4 e.iType)) 4
      (Bytes.ofInt 4 e.iLength)
        = Bytes.ofInt 4 e.iType ++ Bytes.ofInt 4 e.iLength ++ buffer.drop 8 := by
    have := Bytes.splice_append (Bytes.ofInt 4 e.iType) (Bytes.ofInt 4 e.iLength) (buffer.drop 4)
    simpa [List.drop_drop] using this
  simp only [writeTo, Option.map_some, if_pos h, hheader]
  split
  · -- The payload lands right behind the header.
    have := Bytes.splice_append (Bytes.ofInt 4 e.iType ++ Bytes.ofInt 4 e.iLength) e.payload
      (buffer.drop 8)
    simp only [List.length_append, Bytes.length_ofInt, Nat.reduceAdd] at this
    rw [show (e.pData.getD []).take e.iLength.toNat = e.payload from rfl, this, List.drop_drop,
      frame, List.length_append, List.length_append, Bytes.length_ofInt, Bytes.length_ofInt]
  · rename_i hle
    simp [frame, payload_of_nonpos (Int.not_lt.mp hle)]

/-- The buffer `ConvertIntoCharBuffer` returns is the frame, whatever was in it before. -/
theorem convertIntoCharBuffer_eq {e : XLThreadEvent}
    (hlen : (e.frame.length : Int) = e.writableSize) : e.convertIntoCharBuffer = some e.frame := by
  rw [XLThreadEvent.convertIntoCharBuffer, writeTo_eq (Int.le_refl _), List.drop_eq_nil_of_le]
  · simp
  · simp only [List.length_replicate]
    omega

theorem WellFormed.convertIntoCharBuffer {e : XLThreadEvent} (he : e.WellFormed) :
    e.convertIntoCharBuffer = some e.frame :=
  convertIntoCharBuffer_eq he.length_frame

theorem toInt_ofInt_of_isInt {x : Int} (h : IsInt x) : Bytes.toInt (Bytes.ofInt 4 x) = x :=
  Bytes.toInt_ofInt (by have := h.1; norm_num; omega) (by have := h.2; norm_num; omega)

theorem WellFormed.length_isInt {e : XLThreadEvent} (he : e.WellFormed) : IsInt e.iLength := by
  have h0 := he.nonneg
  have h1 := he.fits
  unfold intMax at h1
  constructor <;> omega

/--
What decoding a frame gives.  The type always comes through; the payload only if it is
strictly shorter than the bytes the decoder was told are there.
-/
theorem readFrom_frame {e : XLThreadEvent} (he : e.WellFormed) (old : XLThreadEvent)
    {length : Int} (h : old.writableSize ≤ length) (rest : List UInt8) :
    old.readFrom (some (e.frame ++ rest)) length =
      if 0 < e.iLength ∧ e.iLength < length - 8 then
        { pData := some e.payload, iLength := e.iLength, iType := e.iType }
      else { pData := none, iLength := 0, iType := e.iType } := by
  have htype : (e.frame ++ rest).take 4 = Bytes.ofInt 4 e.iType := by
    simp [frame, List.append_assoc]
  have hlength : ((e.frame ++ rest).drop 4).take 4 = Bytes.ofInt 4 e.iLength := by
    simp [frame, List.append_assoc]
  have hpayload : (e.frame ++ rest).drop 8 = e.payload ++ rest := by
    simp [frame, List.append_assoc, List.drop_append]
  simp only [readFrom, if_pos h, htype, hlength, hpayload, toInt_ofInt_of_isInt he.type,
    toInt_ofInt_of_isInt he.length_isInt]
  split
  · rename_i hguard
    rw [setData_some _ _ hguard.1, ← he.length_payload, List.take_left]
  · rfl

/-! ### Decoding what was encoded -/

/--
A decoded event equals the one written to the buffer exactly when there was no payload to lose
or the buffer is larger than the frame.
-/
theorem decode_encode_iff {e : XLThreadEvent} (he : e.WellFormed) (b : List UInt8) {n : Int}
    (hn : e.writableSize ≤ n) :
    ∃ written, e.writeTo (some b) n = some written ∧
      (((ofBuffer (some written) n).iType = e.iType ∧
          (ofBuffer (some written) n).iLength = e.iLength ∧
          (ofBuffer (some written) n).payload = e.payload) ↔
        e.iLength = 0 ∨ e.writableSize < n) := by
  refine ⟨_, writeTo_eq hn b, ?_⟩
  have hfresh : new.writableSize ≤ n := by
    have := he.nonneg
    simp only [writableSize, new_iLength] at hn ⊢
    omega
  rw [ofBuffer, readFrom_frame he new hfresh]
  have hsize : e.writableSize = e.iLength + 8 := rfl
  have hnonneg := he.nonneg
  split
  · rename_i hguard
    refine ⟨fun _ => Or.inr (by omega), fun _ => ⟨rfl, rfl, ?_⟩⟩
    show (e.payload).take e.iLength.toNat = e.payload
    rw [← he.length_payload, List.take_length]
  · rename_i hguard
    constructor
    · rintro ⟨-, hlen, -⟩
      exact Or.inl hlen.symm
    · rintro (hzero | hlt)
      · refine ⟨rfl, hzero.symm, ?_⟩
        rw [payload_of_nonpos (Int.le_of_eq hzero), payload_of_nonpos (Int.le_refl _)]
      · have hzero : e.iLength = 0 := by omega
        refine ⟨rfl, hzero.symm, ?_⟩
        rw [payload_of_nonpos (Int.le_of_eq hzero), payload_of_nonpos (Int.le_refl _)]

/-- One byte of payload does not survive a buffer of nine. -/
theorem decode_exact_buffer_drops_payload :
    WellFormed ⟨some [65], 1, 17⟩ ∧ writableSize ⟨some [65], 1, 17⟩ ≤ 9 ∧
      ∃ written, writeTo ⟨some [65], 1, 17⟩ (some (List.replicate 9 0)) 9 = some written ∧
        (ofBuffer (some written) 9).payload ≠ payload ⟨some [65], 1, 17⟩ :=
  ⟨⟨by decide, by decide, by decide, fun _ => ⟨[65], rfl, rfl⟩⟩, by decide, _, rfl, by decide⟩

theorem decode_encode_iff_ten :
    ∃ written, writeTo ⟨some [65], 1, 17⟩ (some (List.replicate 10 0)) 10 = some written ∧
      (((ofBuffer (some written) 10).iType = 17 ∧ (ofBuffer (some written) 10).iLength = 1 ∧
          (ofBuffer (some written) 10).payload = [65]) ↔ (1 : Int) = 0 ∨ (9 : Int) < 10) :=
  decode_encode_iff (e := ⟨some [65], 1, 17⟩)
    ⟨by decide, by decide, by decide, fun _ => ⟨[65], rfl, rfl⟩⟩ (List.replicate 10 0) (by decide)

/-! ### Two receivers of one buffer

`ReadFrom` looks at the length the receiver had before.  So two receivers can make different events
of one buffer; where both have room for it they make the same.
-/

/-- The same type, length and payload. -/
def Alike (a b : XLThreadEvent) : Prop :=
  a.iType = b.iType ∧ a.iLength = b.iLength ∧ a.payload = b.payload

/-- The event an event was before fits into a buffer of this size. -/
def Fits (bytes : List UInt8) (e : XLThreadEvent) : Prop := e.writableSize ≤ bytes.length

/-- The length field of a buffer. -/
def lengthField (bytes : List UInt8) : Int := Bytes.toInt ((bytes.drop 4).take 4)

/-- The event says what the buffer does; a payload that is not shorter than the rest of the
buffer counts as none. -/
def Says (bytes : List UInt8) (e : XLThreadEvent) : Prop :=
  e.iType = Bytes.toInt (bytes.take 4) ∧
    if 0 < lengthField bytes ∧ lengthField bytes < bytes.length - 8 then
      e.iLength = lengthField bytes ∧
        e.payload = (bytes.drop 8).take (lengthField bytes).toNat
    else e.iLength = 0

theorem readFrom_fits {bytes : List UInt8} {e : XLThreadEvent} (h : Fits bytes e) :
    Says bytes (e.readFrom (some bytes) bytes.length) := by
  unfold Fits at h
  simp only [readFrom, if_pos h]
  by_cases hguard : 0 < lengthField bytes ∧ lengthField bytes < bytes.length - 8
  · rw [Says, if_pos hguard]
    unfold lengthField at hguard
    rw [if_pos hguard, setData_some _ _ hguard.1]
    refine ⟨rfl, rfl, ?_⟩
    show ((bytes.drop 8).take (lengthField bytes).toNat).take (lengthField bytes).toNat =
      (bytes.drop 8).take (lengthField bytes).toNat
    rw [List.take_take, Nat.min_self]
  · rw [Says, if_neg hguard]
    unfold lengthField at hguard
    rw [if_neg hguard]
    exact ⟨rfl, rfl⟩

theorem readFrom_not_fits {bytes : List UInt8} {e : XLThreadEvent} (h : ¬ Fits bytes e) :
    e.readFrom (some bytes) bytes.length = e := if_neg h

/-- Events that say what a buffer does are alike. -/
theorem Says.alike_iff {bytes : List UInt8} {a b : XLThreadEvent} (ha : Says bytes a) :
    Alike a b ↔ Says bytes b := by
  obtain ⟨htype, hrest⟩ := ha
  unfold Alike Says
  rw [htype]
  by_cases hguard : 0 < lengthField bytes ∧ lengthField bytes < bytes.length - 8
  · rw [if_pos hguard] at hrest ⊢
    obtain ⟨hlength, hpayload⟩ := hrest
    rw [hlength, hpayload]
    exact ⟨fun h => ⟨h.1.symm, h.2.1.symm, h.2.2.symm⟩,
      fun h => ⟨h.1.symm, h.2.1.symm, h.2.2.symm⟩⟩
  · rw [if_neg hguard] at hrest ⊢
    rw [hrest]
    refine ⟨fun h => ⟨h.1.symm, h.2.1.symm⟩, fun h => ⟨h.1.symm, h.2.symm, ?_⟩⟩
    rw [payload_of_nonpos (Int.le_of_eq hrest), payload_of_nonpos (Int.le_of_eq h.2)]

theorem Alike.symm {a b : XLThreadEvent} (h : Alike a b) : Alike b a :=
  ⟨h.1.symm, h.2.1.symm, h.2.2.symm⟩

/--
Two events that decode one buffer are alike afterwards if and only if each of them fitted or
said the same already, or neither fitted and they were alike before.
-/
theorem decode_alike_iff (e₁ e₂ : XLThreadEvent) (bytes : List UInt8) :
    Alike (e₁.readFrom (some bytes) bytes.length) (e₂.readFrom (some bytes) bytes.length) ↔
      (Fits bytes e₁ ∨ Says bytes e₁) ∧ (Fits bytes e₂ ∨ Says bytes e₂) ∨
        ¬ Fits bytes e₁ ∧ ¬ Fits bytes e₂ ∧ Alike e₁ e₂ := by
  by_cases h₁ : Fits bytes e₁
  · have hsaid := readFrom_fits h₁
    by_cases h₂ : Fits bytes e₂
    · simp [h₁, h₂, hsaid.alike_iff.mpr (readFrom_fits h₂)]
    · rw [readFrom_not_fits h₂, hsaid.alike_iff]
      simp [h₁, h₂]
  · rw [readFrom_not_fits h₁]
    by_cases h₂ : Fits bytes e₂
    · have hsaid := readFrom_fits h₂
      have hsymm : Alike e₁ (e₂.readFrom (some bytes) bytes.length) ↔ Says bytes e₁ :=
        ⟨fun h => hsaid.alike_iff.mp h.symm, fun h => (hsaid.alike_iff.mpr h).symm⟩
      rw [hsymm]
      simp [h₁, h₂]
    · rw [readFrom_not_fits h₂]
      simp only [h₁, h₂, false_or, not_false_eq_true, true_and]
      exact ⟨Or.inr, fun h => h.elim (fun hs => hs.1.alike_iff.mpr hs.2) id⟩

/-- 50 bytes: a frame of type 17 with the payload "hi", and zeros. -/
def hiBuffer : List UInt8 := [17, 0, 0, 0, 2, 0, 0, 0, 104, 105] ++ List.replicate 40 0

/-- A new event decodes them; the event of a listening thread, which has room for 50, does not. -/
theorem decode_depends_on_receiver :
    hiBuffer.length = 50 ∧ WellFormed new ∧ WellFormed (ofSize 50 (List.replicate 50 0)) ∧
      (new.readFrom (some hiBuffer) 50).contents = ⟨17, [104, 105]⟩ ∧
      ¬ Alike (new.readFrom (some hiBuffer) 50)
        ((ofSize 50 (List.replicate 50 0)).readFrom (some hiBuffer) 50) :=
  ⟨by decide, ⟨by decide, by decide, by decide, nofun⟩,
    ⟨by decide, by decide, by decide, fun _ => ⟨List.replicate 50 0, rfl, rfl⟩⟩, by decide,
    fun h => absurd h.1 (by decide)⟩

end XLThreadEvent

end ServClient
