/-
What `Write` and `AddData` leave in the payload.

`Stores` says that an event holds exactly some bytes.  A call of `Write` splices its bytes in,
appends them or does nothing; where it appends, it says it has done nothing.  `AddData` appends,
except that a chunk with nothing in it takes everything out.
-/
import ServClient.Proofs.Events

namespace ServClient

namespace XLThreadEvent

/-! ### The bytes an event holds

The payload of an event is a buffer and a length.  `Stores` ties the two to a list of bytes; the
lemmas after this one are about lists.
-/

/-- The event holds these bytes and no others. -/
structure Stores (e : XLThreadEvent) (p : List UInt8) : Prop where
  length : e.iLength = p.length
  bytes : p ≠ [] → e.pData = some p

theorem WellFormed.stores {e : XLThreadEvent} (he : e.WellFormed) : e.Stores e.payload := by
  have hnonneg := he.nonneg
  refine ⟨by rw [he.length_payload]; omega, fun hne => ?_⟩
  have hpos : 0 < e.iLength := by
    by_contra hle
    exact hne (payload_of_nonpos (Int.not_lt.mp hle))
  obtain ⟨bytes, hdata, hlen⟩ := he.buffer hpos
  rw [payload, hdata, Option.getD_some, ← hlen, List.take_length]

variable {e : XLThreadEvent} {p : List UInt8}

theorem Stores.payload_eq (h : e.Stores p) : e.payload = p := by
  rcases eq_or_ne p [] with rfl | hne
  · exact payload_of_nonpos (Int.le_of_eq h.length)
  · rw [payload, h.bytes hne, h.length, Option.getD_some, Int.toNat_natCast, List.take_length]

theorem inPlace_eq_true {place : Int} {k : Nat} (hend : IsInt (place + k)) :
    e.inPlace place k = true ↔ 0 ≤ place ∧ place + k ≤ e.iLength := by
  rw [inPlace, castInt_eq hend, Bool.and_eq_true, decide_eq_true_iff, decide_eq_true_iff]

/-- What is read from a payload. -/
theorem Stores.read (h : e.Stores p) {place : Int} {k : Nat} (hend : IsInt (place + k))
    (hin : 0 ≤ place ∧ place + k ≤ p.length) :
    e.read place k = some ((p.drop place.toNat).take k) := by
  rw [← h.length] at hin
  rw [XLThreadEvent.read, if_pos ((inPlace_eq_true hend).mpr hin)]
  rcases eq_or_ne p [] with rfl | hne
  · have hzero : k = 0 := by
      have := h.length
      simp only [List.length_nil] at this
      omega
    rw [hzero, List.take_zero, List.take_zero]
  · rw [h.bytes hne, Option.getD_some]

/-! ### A chunk -/

/-- The arguments of `AddData`: there are `length` bytes behind a pointer that is not null. -/
structure Chunk where
  data : Option (List UInt8)
  length : Int
  enough : ∀ bytes ∈ data, length ≤ bytes.length

/-- What a chunk has to add. -/
def Chunk.contribution (c : Chunk) : List UInt8 := (c.data.getD []).take c.length.toNat

theorem Chunk.contribution_some {c : Chunk} (h : c.contribution ≠ []) :
    ∃ bytes, c.data = some bytes ∧ 0 < c.length ∧ bytes.take c.length.toNat = c.contribution ∧
      (c.contribution.length : Int) = c.length := by
  obtain ⟨data, length, enough⟩ := c
  cases data with
  | none => exact absurd List.take_nil h
  | some bytes =>
      have hpos : 0 < length := by
        by_contra hle
        have hzero : length.toNat = 0 := by omega
        exact h (by simp [contribution, hzero])
      have hle := enough bytes rfl
      refine ⟨bytes, rfl, hpos, rfl, ?_⟩
      simp only [contribution, Option.getD_some, List.length_take]
      omega

theorem Chunk.contribution_nil {c : Chunk} (h : c.contribution = []) :
    c.data = none ∨ c.length ≤ 0 := by
  obtain ⟨data, length, enough⟩ := c
  cases data with
  | none => exact Or.inl rfl
  | some bytes =>
      have hle := enough bytes rfl
      have hlen := congrArg List.length h
      simp only [contribution, Option.getD_some, List.length_take, List.length_nil] at hlen
      refine Or.inr ?_
      show length ≤ 0
      omega

/-- Without data, or without a length, `AddData` is `Reset`. -/
theorem addData_reset (e : XLThreadEvent) {data : Option (List UInt8)} {length : Int}
    (h : data = none ∨ length ≤ 0) : e.addData data length = e.reset := by
  have hset : e.setData data length = e.reset := by
    rcases h with rfl | hle
    · rfl
    · cases data with
      | none => rfl
      | some bytes => exact if_neg (Int.not_lt.mpr hle)
  unfold addData
  split
  · rename_i hdata
    have hle := h.resolve_left (by rintro ⟨⟩)
    rw [if_neg fun hpos => Int.not_lt.mpr hle hpos.2]
    exact hset
  · exact hset

/-- `AddData` appends what a chunk has to add, and clears the event if that is nothing. -/
theorem Stores.addData (h : e.Stores p) (c : Chunk) :
    (e.addData c.data c.length).Stores
      (if c.contribution = [] then [] else p ++ c.contribution) := by
  split
  · rename_i hnil
    rw [addData_reset e (Chunk.contribution_nil hnil)]
    exact ⟨rfl, fun hne => absurd rfl hne⟩
  · rename_i hne
    obtain ⟨bytes, hdata, hpos, htake, hlen⟩ := Chunk.contribution_some hne
    rw [hdata]
    rcases eq_or_ne p [] with rfl | hp
    · -- The event was empty, and `SetData` does the work.
      have hset : e.addData (some bytes) c.length = e.setData (some bytes) c.length := by
        unfold XLThreadEvent.addData
        split
        · rw [if_neg (by rw [h.length]; simp)]
        · rfl
      rw [hset, setData_some _ _ hpos, htake, List.nil_append]
      exact ⟨hlen.symm, fun _ => rfl⟩
    · have hplen : 0 < p.length := List.length_pos_iff.mpr hp
      simp only [XLThreadEvent.addData, h.bytes hp]
      rw [if_pos ⟨by rw [h.length]; omega, hpos⟩, h.length, Int.toNat_natCast, List.take_length,
        htake]
      refine ⟨?_, fun _ => rfl⟩
      rw [List.length_append]
      show (p.length : Int) + c.length = _
      omega

/-- A chunk with something to add is appended, and so is one without if nothing is stored. -/
theorem Stores.addData_appends (h : e.Stores p) {c : Chunk}
    (hempty : c.contribution = [] → p = []) :
    (e.addData c.data c.length).Stores (p ++ c.contribution) := by
  have hadd := h.addData c
  by_cases hnil : c.contribution = []
  · rw [if_pos hnil] at hadd
    rw [hempty hnil, hnil]
    exact hadd
  · rw [if_neg hnil] at hadd
    exact hadd

/-! ### A field

The two overloads of `Write` differ in what they are given and not in what they do.  A field is
inside of the payload, at its end, or somewhere else, and so there are three lemmas.
-/

/-- A value for `Write<T>`, or a block for `Write(int, const char*, int)`, and its place. -/
structure Field where
  place : Int
  bytes : List UInt8
  block : Bool
  nonempty : bytes ≠ []
  fits : IsInt (place + bytes.length)

/-- `Write`, one overload or the other. -/
def writeField (e : XLThreadEvent) (f : Field) : Option (XLThreadEvent × Bool) :=
  if f.block then e.writeBlock f.place (some f.bytes) f.bytes.length else e.write f.place f.bytes

theorem Field.length_pos (f : Field) : 0 < f.bytes.length := List.length_pos_iff.mpr f.nonempty

/-- Both overloads do the same. -/
theorem writeField_eq (e : XLThreadEvent) (f : Field) :
    e.writeField f = e.write f.place f.bytes := by
  unfold writeField
  split
  · unfold writeBlock write
    simp only [Int.toNat_natCast, List.take_length, Int.natCast_nonneg, if_true]
    by_cases hin : 0 ≤ f.place ∧ f.place + f.bytes.length ≤ e.iLength
    · rw [if_pos hin, if_pos ((inPlace_eq_true f.fits).mpr hin)]
    · rw [if_neg hin, if_neg fun h => hin ((inPlace_eq_true f.fits).mp h)]
  · rfl

/-- A field in the payload is copied over what was there. -/
theorem Stores.writeField_inside (h : e.Stores p) {f : Field}
    (hin : 0 ≤ f.place ∧ f.place + f.bytes.length ≤ p.length) :
    ∃ e', e.writeField f = some (e', true) ∧
      e'.Stores (Bytes.splice p f.place.toNat f.bytes) := by
  have hpos := f.length_pos
  have hne : p ≠ [] := List.ne_nil_of_length_pos (by omega)
  have hstore : Bytes.store? p f.place.toNat f.bytes =
      some (Bytes.splice p f.place.toNat f.bytes) :=
    Bytes.store?_eq_some.mpr ⟨by omega, rfl⟩
  have hin' := hin
  rw [← h.length] at hin'
  refine ⟨_, by
    rw [writeField_eq, write, if_pos ((inPlace_eq_true f.fits).mpr hin'), poke, h.bytes hne,
      Option.getD_some, hstore, Option.map_some, Option.map_some], ?_, fun _ => rfl⟩
  rw [Bytes.length_splice (by omega)]
  exact h.length

/-- A field at the end is appended, and `Write` returns false. -/
theorem Stores.writeField_end (h : e.Stores p) {f : Field} (hend : f.place = p.length) :
    ∃ e', e.writeField f = some (e', false) ∧ e'.Stores (p ++ f.bytes) := by
  have hpos := f.length_pos
  have hout : ¬e.inPlace f.place f.bytes.length = true := fun hin => by
    have := ((inPlace_eq_true f.fits).mp hin).2
    rw [h.length] at this
    omega
  refine ⟨_, by rw [writeField_eq, write, if_neg hout, if_pos (hend.trans h.length.symm)], ?_⟩
  have hadd := h.addData ⟨some f.bytes, f.bytes.length, by rintro bytes ⟨⟩; exact Int.le_refl _⟩
  have hall : Chunk.contribution ⟨some f.bytes, f.bytes.length, by
      rintro bytes ⟨⟩; exact Int.le_refl _⟩ = f.bytes := List.take_length
  rw [hall, if_neg f.nonempty] at hadd
  exact hadd

/-- A field anywhere else is not written. -/
theorem Stores.writeField_outside (h : e.Stores p) {f : Field}
    (hout : ¬(0 ≤ f.place ∧ (f.place + f.bytes.length ≤ p.length ∨ f.place = p.length))) :
    e.writeField f = some (e, false) := by
  have hin : ¬e.inPlace f.place f.bytes.length = true := fun hin => by
    rw [inPlace_eq_true f.fits, h.length] at hin
    exact hout ⟨hin.1, Or.inl hin.2⟩
  have hend : f.place ≠ e.iLength := fun hend => by
    rw [h.length] at hend
    exact hout ⟨by omega, Or.inr hend⟩
  rw [writeField_eq, write, if_neg hin, if_neg hend]

/-- What a call of `Write` returns is what it did. -/
def Tells (e : XLThreadEvent) (f : Field) : Prop :=
  ∃ e' ret, e.writeField f = some (e', ret) ∧
    (ret = true ↔ 0 ≤ f.place ∧ (f.place + f.bytes.length ≤ e.iLength ∨ f.place = e.iLength)) ∧
    (ret = true →
      e'.iLength = max e.iLength (f.place + f.bytes.length) ∧
        e'.payload = Bytes.splice e.payload f.place.toNat f.bytes ∧
        e'.read f.place f.bytes.length = some f.bytes) ∧
    (ret = false → e' = e)

/-- A call of `Write` tells what it did unless it appends. -/
theorem Stores.tells_iff (h : e.Stores p) (f : Field) : e.Tells f ↔ f.place ≠ e.iLength := by
  constructor
  · rintro ⟨e', ret, hwrite, hret, -, -⟩ hend
    rw [h.length] at hend
    obtain ⟨e'', happend, -⟩ := h.writeField_end hend
    rw [happend] at hwrite
    cases hwrite
    have hfalse := hret.mpr ⟨by omega, Or.inr (hend.trans h.length.symm)⟩
    exact absurd hfalse (by decide)
  · intro hend
    by_cases hin : 0 ≤ f.place ∧ f.place + f.bytes.length ≤ p.length
    · obtain ⟨e', hwrite, hstores⟩ := h.writeField_inside hin
      have hlen : (Bytes.splice p f.place.toNat f.bytes).length = p.length :=
        Bytes.length_splice (by omega)
      refine ⟨e', true, hwrite, ?_, fun _ => ⟨?_, ?_, ?_⟩, fun hne => absurd hne (by decide)⟩
      · rw [h.length]
        exact iff_of_true rfl ⟨hin.1, Or.inl hin.2⟩
      · rw [hstores.length, hlen, h.length]
        omega
      · rw [hstores.payload_eq, h.payload_eq]
      · rw [hstores.read f.fits ⟨hin.1, by rw [hlen]; exact hin.2⟩,
          Bytes.window_splice f.bytes (by omega)]
    · have hout : ¬(0 ≤ f.place ∧
          (f.place + f.bytes.length ≤ p.length ∨ f.place = p.length)) := fun hcase =>
        hcase.2.elim (fun hle => hin ⟨hcase.1, hle⟩) fun heq => hend (heq.trans h.length.symm)
      refine ⟨e, false, h.writeField_outside hout, ?_, fun hne => absurd hne (by decide),
        fun _ => rfl⟩
      rw [h.length]
      exact iff_of_false (by decide) hout

/-! ### Fields one after the other

Fields that are written one behind the other are all there at the end.  That `Write` returns false
where it appends is of no consequence for what is stored.
-/

/-- The event after the calls, each made without a look at what the one before returned. -/
def packed (e : XLThreadEvent) (fields : List Field) : Option XLThreadEvent :=
  fields.foldlM (fun e f => (e.writeField f).map Prod.fst) e

/-- Every field is in the payload, or at its end, when it is written. -/
def FieldsFit : Int → List Field → Prop
  | _, [] => True
  | length, f :: rest =>
      0 ≤ f.place ∧ (f.place + f.bytes.length ≤ length ∨ f.place = length) ∧
        FieldsFit (max length (f.place + f.bytes.length)) rest

/-- One field ends before the other begins. -/
def Field.Before (f g : Field) : Prop := f.place + f.bytes.length ≤ g.place

theorem Stores.writeField (h : e.Stores p) {f : Field} (hplace : 0 ≤ f.place)
    (hin : f.place + f.bytes.length ≤ p.length ∨ f.place = p.length) :
    ∃ e' ret, e.writeField f = some (e', ret) ∧
      e'.Stores (Bytes.splice p f.place.toNat f.bytes) := by
  rcases hin with hle | hend
  · obtain ⟨e', hwrite, hstores⟩ := h.writeField_inside ⟨hplace, hle⟩
    exact ⟨e', true, hwrite, hstores⟩
  · obtain ⟨e', hwrite, hstores⟩ := h.writeField_end hend
    refine ⟨e', false, hwrite, ?_⟩
    rw [hend, Int.toNat_natCast, Bytes.splice_end]
    exact hstores

/-- Fields at increasing places are all there at the end, and so is what is before them. -/
theorem Stores.packed (h : e.Stores p) {fields : List Field} (hfit : FieldsFit p.length fields)
    (hrow : fields.Pairwise Field.Before) :
    ∃ e' q, e.packed fields = some e' ∧ e'.Stores q ∧ p.length ≤ q.length ∧
      (∀ f ∈ fields, 0 ≤ f.place ∧ f.place + f.bytes.length ≤ q.length ∧
        (q.drop f.place.toNat).take f.bytes.length = f.bytes) ∧
      ∀ i len : Nat, i + len ≤ p.length → (∀ f ∈ fields, (i + len : Int) ≤ f.place) →
        (q.drop i).take len = (p.drop i).take len := by
  induction fields generalizing e p with
  | nil => exact ⟨e, p, rfl, h, Nat.le_refl _, fun f hf => absurd hf List.not_mem_nil,
      fun _ _ _ _ => rfl⟩
  | cons f rest ih =>
      obtain ⟨hplace, hin, hrest⟩ := hfit
      obtain ⟨hbefore, htail⟩ := List.pairwise_cons.mp hrow
      obtain ⟨e₁, ret, hwrite, hstores⟩ := h.writeField hplace hin
      have hpos : f.place.toNat ≤ p.length := by omega
      have hlen : ((Bytes.splice p f.place.toNat f.bytes).length : Int) =
          max (p.length : Int) (f.place + f.bytes.length) := by
        rcases hin with hle | hend
        · rw [Bytes.length_splice (by omega)]
          omega
        · rw [hend, Int.toNat_natCast, Bytes.splice_end, List.length_append]
          omega
      rw [← hlen] at hrest
      obtain ⟨e', q, hpacked, hq, hmono, hfields, hframe⟩ := ih hstores hrest htail
      refine ⟨e', q, ?_, hq, by omega, ?_, fun i len hle hlater => ?_⟩
      · rw [XLThreadEvent.packed, List.foldlM_cons, hwrite]
        exact hpacked
      · refine List.forall_mem_cons.mpr ⟨⟨hplace, by omega, ?_⟩, hfields⟩
        rw [hframe _ _ (by omega) fun g hg => ?_, Bytes.window_splice f.bytes hpos]
        have := hbefore g hg
        unfold Field.Before at this
        omega
      · have hhead := hlater f List.mem_cons_self
        rw [hframe i len (by omega) fun g hg => hlater g (List.mem_cons_of_mem f hg),
          Bytes.window_splice_before f.bytes hpos (by omega)]

/--
A call of `Write` tells what it did if and only if it does not append.  What it did is right all
the same: fields written at increasing places are read back from there.
-/
theorem write_tells_iff (he : e.WellFormed) :
    (∀ f : Field, e.Tells f ↔ f.place ≠ e.iLength) ∧
      ∀ fields : List Field, FieldsFit e.iLength fields → fields.Pairwise Field.Before →
        ∃ e', e.packed fields = some e' ∧
          ∀ f ∈ fields, e'.read f.place f.bytes.length = some f.bytes := by
  refine ⟨he.stores.tells_iff, fun fields hfit hrow => ?_⟩
  rw [he.stores.length] at hfit
  obtain ⟨e', q, hpacked, hq, -, hfields, -⟩ := he.stores.packed hfit hrow
  refine ⟨e', hpacked, fun f hf => ?_⟩
  obtain ⟨hplace, hend, hwindow⟩ := hfields f hf
  rw [hq.read f.fits ⟨hplace, hend⟩, hwindow]

/-- The four bytes of a job behind the four of an identifier. -/
theorem write_tells_iff_four :
    (∀ f : Field, Tells ⟨some [1, 2, 3, 4], 4, 17⟩ f ↔ f.place ≠ 4) ∧
      ∀ fields : List Field, FieldsFit 4 fields → fields.Pairwise Field.Before →
        ∃ e', packed ⟨some [1, 2, 3, 4], 4, 17⟩ fields = some e' ∧
          ∀ f ∈ fields, e'.read f.place f.bytes.length = some f.bytes :=
  write_tells_iff (e := ⟨some [1, 2, 3, 4], 4, 17⟩)
    ⟨by decide, by decide, by decide, fun _ => ⟨[1, 2, 3, 4], rfl, rfl⟩⟩

/-- The first field of a new event is written, and `Write` returns false. -/
theorem append_returns_false :
    new.writeField ⟨0, [7], false, by decide, by decide⟩ = some (⟨some [7], 1, 0⟩, false) ∧
      ¬new.Tells ⟨0, [7], false, by decide, by decide⟩ := by
  refine ⟨rfl, ?_⟩
  rintro ⟨e', ret, hwrite, hret, -, -⟩
  cases hwrite
  exact absurd (hret.mpr ⟨by decide, Or.inr rfl⟩) (by decide)

/-! ### Chunks one after the other

`AddData` of nothing clears the event, so that a chunk without bytes takes away what the chunks
before it have added.
-/

/-- The event after the calls of `AddData`. -/
def addAll (e : XLThreadEvent) (chunks : List Chunk) : XLThreadEvent :=
  chunks.foldl (fun e c => e.addData c.data c.length) e

/-- What the chunks have to add, in order. -/
def contributions (chunks : List Chunk) : List UInt8 := (chunks.map Chunk.contribution).flatten

theorem contributions_append (before after : List Chunk) :
    contributions (before ++ after) = contributions before ++ contributions after := by
  rw [contributions, List.map_append, List.flatten_append]
  rfl

/-- The calls append what their chunks have to add, and none of them takes anything out. -/
structure Appends (e : XLThreadEvent) (chunks : List Chunk) : Prop where
  payload : (e.addAll chunks).payload = e.payload ++ contributions chunks
  length : (e.addAll chunks).iLength = (e.payload ++ contributions chunks).length
  kept : ∀ before c, before ++ [c] <+: chunks →
    (e.addAll before).payload <+: (e.addAll (before ++ [c])).payload

/-- A chunk that has nothing to add comes only while nothing is stored. -/
def EmptyFirst : List UInt8 → List Chunk → Prop
  | _, [] => True
  | p, c :: rest => (c.contribution = [] → p = []) ∧ EmptyFirst (p ++ c.contribution) rest

theorem EmptyFirst.of_append {before after : List Chunk} (h : EmptyFirst p (before ++ after)) :
    EmptyFirst p before := by
  induction before generalizing p with
  | nil => trivial
  | cons c rest ih => exact ⟨h.1, ih h.2⟩

theorem Stores.emptyFirst (h : e.Stores p) {chunks : List Chunk}
    (hkept : ∀ before c, before ++ [c] <+: chunks →
      (e.addAll before).payload <+: (e.addAll (before ++ [c])).payload) :
    EmptyFirst p chunks := by
  induction chunks generalizing e p with
  | nil => trivial
  | cons c rest ih =>
      have hadd := h.addData c
      have hfirst : c.contribution = [] → p = [] := fun hnil => by
        rw [if_pos hnil] at hadd
        have hprefix : e.payload <+: (e.addData c.data c.length).payload :=
          hkept [] c (List.prefix_append [c] rest)
        rw [h.payload_eq, hadd.payload_eq] at hprefix
        exact List.prefix_nil.mp hprefix
      exact ⟨hfirst, ih (h.addData_appends hfirst) fun before d hprefix =>
        hkept (c :: before) d (List.cons_prefix_cons.mpr ⟨rfl, hprefix⟩)⟩

theorem Stores.addAll (h : e.Stores p) {chunks : List Chunk} (hfirst : EmptyFirst p chunks) :
    (e.addAll chunks).Stores (p ++ contributions chunks) := by
  induction chunks generalizing e p with
  | nil =>
      rw [contributions, List.map_nil, List.flatten_nil, List.append_nil]
      exact h
  | cons c rest ih =>
      obtain ⟨hempty, hrest⟩ := hfirst
      have htail := ih (h.addData_appends hempty) hrest
      rw [List.append_assoc] at htail
      exact htail

/-- Nothing is stored that was not there before or in a chunk. -/
theorem Stores.addAll_le (h : e.Stores p) (chunks : List Chunk) :
    ∃ q, (e.addAll chunks).Stores q ∧ q.length ≤ (p ++ contributions chunks).length := by
  induction chunks generalizing e p with
  | nil => exact ⟨p, h, by rw [List.length_append]; omega⟩
  | cons c rest ih =>
      obtain ⟨q, hq, hle⟩ := ih (h.addData c)
      have hsplit : contributions (c :: rest) = c.contribution ++ contributions rest := rfl
      refine ⟨q, hq, ?_⟩
      rw [List.length_append] at hle
      rw [hsplit, List.length_append, List.length_append]
      split at hle
      · rw [List.length_nil] at hle
        omega
      · rw [List.length_append] at hle
        omega

/-- A call of `AddData` makes no length that is not an `int`. -/
theorem Stores.addAll_isInt (h : e.Stores p) {chunks before : List Chunk}
    (hfits : ((p ++ contributions chunks).length : Int) ≤ intMax) (hbefore : before <+: chunks) :
    IsInt (e.addAll before).iLength := by
  obtain ⟨after, rfl⟩ := hbefore
  obtain ⟨q, hq, hle⟩ := h.addAll_le before
  rw [contributions_append, ← List.append_assoc, List.length_append] at hfits
  unfold intMax at hfits
  rw [hq.length]
  constructor <;> omega

/--
Where the bytes of all the chunks fit, so does the length after each call, and the calls append
if and only if those that have nothing to add come while nothing is stored.
-/
theorem addAll_appends_iff (h : e.Stores p) {chunks : List Chunk}
    (hfits : ((p ++ contributions chunks).length : Int) ≤ intMax) :
    (∀ before, before <+: chunks → IsInt (e.addAll before).iLength) ∧
      (e.Appends chunks ↔ EmptyFirst p chunks) := by
  refine ⟨fun before hbefore => h.addAll_isInt hfits hbefore,
    fun happends => h.emptyFirst happends.kept, fun hfirst => ?_⟩
  have hall := h.addAll hfirst
  refine ⟨by rw [hall.payload_eq, h.payload_eq], by rw [hall.length, h.payload_eq], ?_⟩
  intro before c hprefix
  obtain ⟨after, rfl⟩ := hprefix
  have hlonger := h.addAll (EmptyFirst.of_append hfirst)
  have hshorter := h.addAll (EmptyFirst.of_append (EmptyFirst.of_append hfirst))
  rw [hshorter.payload_eq, hlonger.payload_eq, contributions_append, ← List.append_assoc]
  exact List.prefix_append _ _

/-- Two bytes and a null chunk. -/
def twoAndNull : List Chunk :=
  [⟨some [1, 2], 2, by rintro bytes ⟨⟩; decide⟩, ⟨none, 3, by rintro bytes ⟨⟩⟩]

theorem addAll_appends_iff_new :
    (∀ before, before <+: twoAndNull → IsInt (new.addAll before).iLength) ∧
      (new.Appends twoAndNull ↔ EmptyFirst [] twoAndNull) :=
  addAll_appends_iff (e := new) ⟨rfl, fun hne => absurd rfl hne⟩ (by decide)

/-- The null chunk takes the two bytes out. -/
theorem null_chunk_clears :
    (new.addAll twoAndNull).payload = [] ∧ contributions twoAndNull = [1, 2] ∧
      ¬new.Appends twoAndNull :=
  ⟨rfl, rfl, fun h => absurd h.length (by decide)⟩

end XLThreadEvent

end ServClient
