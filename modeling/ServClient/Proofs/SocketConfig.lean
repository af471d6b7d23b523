/-
What a sent `SocketConfig` is read back as.

`WriteToSend` copies the whole host into the record and then lays the integers over what
lies beyond the host's 20 bytes.  Up to 44 bytes of host the record stays inside its 44
bytes and is the first 20 bytes of the padded host, the integers, and what the buffer held
behind them.  The reader takes everything up to the first zero for the host, so a host of 20
bytes or more comes back only where the integers happen to continue it.
-/
import ServClient.SocketConfig

namespace ServClient

namespace SocketConfig

/-! ### Integers -/

@[simp] theorem length_ofInt32 (x : Int32) : (ofInt32 x).length = 4 := Bytes.length_ofInt _ _

@[simp] theorem toInt32_ofInt32 (x : Int32) : toInt32 (ofInt32 x) = x := by
  have hlo := x.le_toInt
  have hhi := x.toInt_lt
  rw [toInt32, ofInt32, Bytes.toInt_ofInt (by omega) (by omega), Int32.ofInt_toInt]

/-! ### The record -/

/-- The six integers, as they are sent. -/
def fields (c : SocketConfig) : List (List UInt8) :=
  [ofInt32 c.portNumber, ofInt32 c.connectionType, ofInt32 c.iPFormat, ofInt32 c.iPProtocol,
    ofInt32 c.connectionTries, ofInt32 c.numberofClients]

theorem length_fields (c : SocketConfig) : c.fields.flatten.length = 24 := rfl

/-- The first 20 bytes of a record. -/
def hostField (c : SocketConfig) : List UInt8 :=
  (c.hostNumber.bytes ++ List.replicate 20 0).take 20

theorem length_hostField (c : SocketConfig) : c.hostField.length = 20 := by
  rw [hostField, List.length_take_of_le]
  rw [List.length_append, List.length_replicate]
  omega

theorem writes_eq (c : SocketConfig) {n : Int} (h : 44 ≤ n) :
    c.writes n =
      (0, List.replicate 20 0) :: (0, c.hostNumber.bytes) :: Bytes.inRow 20 c.fields :=
  if_neg (Int.not_lt.mpr h)

/-- The copies stay in the record's 44 bytes exactly when the host does. -/
theorem writes_fit_iff (c : SocketConfig) {n : Int} (h : 44 ≤ n) :
    (∀ w ∈ c.writes n, w.1 + w.2.length ≤ 44) ↔ c.hostNumber.bytes.length ≤ 44 := by
  rw [writes_eq c h]
  simp [Bytes.inRow, fields]

/-- The host, copied over 20 zeros. -/
def overZeros (c : SocketConfig) (rest : List UInt8) : List UInt8 :=
  c.hostNumber.bytes ++ (List.replicate 20 0 ++ rest).drop c.hostNumber.bytes.length

theorem length_overZeros (c : SocketConfig) (rest : List UInt8) :
    20 + rest.length ≤ (c.overZeros rest).length := by
  simp only [overZeros, List.length_append, List.length_drop, List.length_replicate]
  omega

theorem take_overZeros (c : SocketConfig) (rest : List UInt8) :
    (c.overZeros rest).take 20 = c.hostField := by
  have hzeros : (List.replicate 20 (0 : UInt8) ++ rest).take 20 = List.replicate 20 0 :=
    List.take_left' List.length_replicate
  rw [overZeros, hostField, List.take_append, List.take_append, ← List.drop_take, hzeros,
    List.drop_replicate, List.take_replicate, Nat.min_eq_left (by omega)]

theorem drop_overZeros {c : SocketConfig} (rest : List UInt8)
    (h : c.hostNumber.bytes.length ≤ 44) : (c.overZeros rest).drop 44 = rest.drop 24 := by
  rw [overZeros, List.drop_append, List.drop_eq_nil_of_le h, List.nil_append, List.drop_drop,
    Nat.add_sub_cancel' h, List.drop_append, List.drop_eq_nil_of_le (by simp), List.nil_append,
    List.length_replicate]

/-- What `WriteToSend` leaves of a buffer. -/
theorem writeToSend_eq {c : SocketConfig} {buffer : List UInt8} (h : 44 ≤ buffer.length)
    (hhost : c.hostNumber.bytes.length ≤ 44) :
    c.writeToSend buffer buffer.length =
      some (c.hostField ++ (c.fields.flatten ++ buffer.drop 44)) := by
  have hn : (44 : Int) ≤ buffer.length := by exact_mod_cast h
  have hfit : ∀ w ∈ c.writes buffer.length, w.1 + w.2.length ≤ buffer.length := fun w hw =>
    Nat.le_trans ((writes_fit_iff c hn).mpr hhost w hw) h
  have hlen : 20 + c.fields.flatten.length ≤ (c.overZeros (buffer.drop 20)).length := by
    have := length_overZeros c (buffer.drop 20)
    rw [List.length_drop] at this
    rw [length_fields]
    omega
  rw [writeToSend, Bytes.storeAll?_eq hfit, writes_eq c hn, List.foldl_cons, List.foldl_cons,
    Bytes.splice_zero, Bytes.splice_zero, List.length_replicate]
  show some ((Bytes.inRow 20 c.fields).foldl (fun b w => Bytes.splice b w.1 w.2)
    (c.overZeros (buffer.drop 20))) = _
  rw [Bytes.foldl_inRow hlen, Bytes.splice, length_fields, take_overZeros,
    drop_overZeros _ hhost, List.drop_drop, List.append_assoc]

/-! ### The host -/

/-- A host that fits its field is read back, whatever comes after it. -/
theorem hostField_short {c : SocketConfig} (rest : List UInt8)
    (h : c.hostNumber.bytes.length < 20) :
    c.hostNumber.bytes ++ [0] <+: c.hostField ++ rest := by
  have hpad : List.replicate (20 - c.hostNumber.bytes.length) (0 : UInt8) =
      0 :: List.replicate (19 - c.hostNumber.bytes.length) 0 := by
    rw [← List.replicate_succ]
    congr 1
    omega
  rw [hostField, List.take_append, List.take_of_length_le (Nat.le_of_lt h), List.take_replicate,
    Nat.min_eq_left (by omega), hpad]
  exact ⟨List.replicate (19 - c.hostNumber.bytes.length) 0 ++ rest, by simp⟩

/-- A longer one is read back where what comes after the field continues it. -/
theorem hostField_long {c : SocketConfig} (rest : List UInt8)
    (h : 20 ≤ c.hostNumber.bytes.length) :
    c.hostNumber.bytes ++ [0] <+: c.hostField ++ rest ↔
      c.hostNumber.bytes.drop 20 ++ [0] <+: rest := by
  have hfield : c.hostField = c.hostNumber.bytes.take 20 := by
    rw [hostField, List.take_append_of_le_length h]
  have hsplit : c.hostNumber.bytes ++ [0] =
      c.hostNumber.bytes.take 20 ++ (c.hostNumber.bytes.drop 20 ++ [0]) := by
    rw [← List.append_assoc, List.take_append_drop]
  rw [hfield, hsplit, List.prefix_append_right_inj]

/-! ### Reading the record

`ReadFrom` reads the host as a string and then the six integers by their place.  A host without a
zero in its field is read on into the first of them.
-/

theorem ofBuffer_record (c : SocketConfig) (rest : List UInt8) {n : Int} (h : 44 ≤ n) :
    ofBuffer (c.hostField ++ (c.fields.flatten ++ rest)) n =
      (CString.read (c.hostField ++ (c.fields.flatten ++ rest))).map fun s =>
        { c with hostNumber := (new.setHostNumber (some s)).hostNumber } := by
  have hload : ∀ w ∈ Bytes.inRow 20 c.fields,
      Bytes.load? (c.hostField ++ (c.fields.flatten ++ rest)) w.1 w.2.length = some w.2 :=
    Bytes.load?_inRow (length_hostField c)
  simp only [Bytes.inRow, fields, List.mem_cons, List.not_mem_nil, or_false, forall_eq_or_imp,
    forall_eq, length_ofInt32] at hload
  obtain ⟨hport, htype, hformat, hprotocol, htries, hclients⟩ := hload
  rw [ofBuffer, if_pos (show totalWriteLength ≤ n from h)]
  cases CString.read (c.hostField ++ (c.fields.flatten ++ rest)) with
  | none => rfl
  | some s =>
      simp only [fields, hport, htype, hformat, hprotocol, htries, hclients, toInt32_ofInt32,
        Option.bind_eq_bind, Option.bind_some, Option.pure_def, Option.map_some]

/-- A new object takes a host over as it is: an empty one is what it has already. -/
theorem setHostNumber_new {s : CString} (h : s.bytes.length ≤ 44) :
    (new.setHostNumber (some s)).hostNumber = s := by
  have hcast : castInt s.bytes.length = s.bytes.length := castInt_eq ⟨by omega, by omega⟩
  simp only [setHostNumber, hcast]
  split
  · rfl
  · rename_i hempty
    exact CString.ext (List.length_eq_zero_iff.mp (by omega)).symm

theorem setHostNumber_new_cases (s : CString) :
    (new.setHostNumber (some s)).hostNumber = s ∨
      (new.setHostNumber (some s)).hostNumber = .empty := by
  rw [setHostNumber]
  split
  · exact Or.inl rfl
  · exact Or.inr rfl

/-- Two objects that differ in the host alone. -/
theorem with_hostNumber_eq_iff {c : SocketConfig} {s : CString} :
    { c with hostNumber := s } = c ↔ s = c.hostNumber := by
  constructor
  · intro h
    exact congrArg hostNumber h
  · rintro rfl
    rfl

/-- The object read back is the one sent exactly when the string read is its host. -/
theorem read_host_iff {c : SocketConfig} {memory : List UInt8}
    (hhost : c.hostNumber.bytes.length ≤ 44)
    (hshort : c.hostNumber.bytes.length < 20 → c.hostNumber.bytes ++ [0] <+: memory) :
    ((CString.read memory).map fun s =>
        { c with hostNumber := (new.setHostNumber (some s)).hostNumber }) = some c ↔
      c.hostNumber.bytes ++ [0] <+: memory := by
  rw [Option.map_eq_some_iff, ← CString.read_eq_some]
  simp only [with_hostNumber_eq_iff]
  constructor
  · rintro ⟨s, hs, hset⟩
    rcases setHostNumber_new_cases s with htaken | hempty
    · rw [hs, ← hset, htaken]
    · have hlen : c.hostNumber.bytes.length < 20 := by
        rw [← hset, hempty]
        decide
      exact CString.read_eq_some.mpr (hshort hlen)
  · intro hs
    exact ⟨c.hostNumber, hs, setHostNumber_new hhost⟩

/-! ### The round trip -/

/-- `WriteToSend` writes to the record alone, and the object read from it is the one sent. -/
def RoundTrips (c : SocketConfig) (buffer : List UInt8) : Prop :=
  (∀ w ∈ c.writes buffer.length, w.1 + w.2.length ≤ 44) ∧
    ∃ written, c.writeToSend buffer buffer.length = some written ∧
      ofBuffer written written.length = some c

/-- The host is shorter than its field, or what it has beyond the field is what follows the
field anyway, up to the first zero. -/
def HostFits (c : SocketConfig) (buffer : List UInt8) : Prop :=
  c.hostNumber.bytes.length < 20 ∨
    c.hostNumber.bytes.length ≤ 44 ∧
      c.hostNumber.bytes.drop 20 ++ [0] <+: c.fields.flatten ++ buffer.drop 44

theorem roundTrips_iff (c : SocketConfig) {buffer : List UInt8} (h : 44 ≤ buffer.length) :
    c.RoundTrips buffer ↔ c.HostFits buffer := by
  have hn : (44 : Int) ≤ buffer.length := by exact_mod_cast h
  rw [RoundTrips, writes_fit_iff c hn, HostFits]
  by_cases hhost : c.hostNumber.bytes.length ≤ 44
  · have hlen : (c.hostField ++ (c.fields.flatten ++ buffer.drop 44)).length =
        buffer.length := by
      simp only [List.length_append, length_hostField, length_fields, List.length_drop]
      omega
    have hback : (∃ written, c.writeToSend buffer buffer.length = some written ∧
        ofBuffer written written.length = some c) ↔
          c.hostNumber.bytes ++ [0] <+: c.hostField ++ (c.fields.flatten ++ buffer.drop 44) := by
      rw [writeToSend_eq h hhost, ← read_host_iff hhost (hostField_short _),
        ← ofBuffer_record c (buffer.drop 44) hn]
      constructor
      · rintro ⟨written, hw, hread⟩
        cases hw
        rwa [hlen] at hread
      · intro hread
        exact ⟨_, rfl, by rwa [hlen]⟩
    rw [hback]
    rcases Nat.lt_or_ge c.hostNumber.bytes.length 20 with hlt | hge
    · simp only [hhost, hlt, hostField_short _ hlt, true_or, and_self]
    · simp only [hhost, Nat.not_lt.mpr hge, hostField_long _ hge, true_and, false_or]
  · have hlt : ¬ c.hostNumber.bytes.length < 20 := by omega
    simp only [hhost, hlt, false_and, or_self]

/-- A host of `n` letters, and a port. -/
def ofLetters (n : Nat) : SocketConfig where
  hostNumber := ⟨List.replicate n 97, fun h => absurd (List.eq_of_mem_replicate h) (by decide)⟩
  portNumber := 80
  connectionType := 1
  iPFormat := 2
  iPProtocol := 6
  connectionTries := 5
  numberofClients := 2

theorem roundTrips_iff_ofLetters :
    RoundTrips (ofLetters 19) (List.replicate 44 7) ↔
      HostFits (ofLetters 19) (List.replicate 44 7) :=
  roundTrips_iff (ofLetters 19) (by decide)

/-- With 20 letters the zero that ends the host is lost, and the port is read into it. -/
theorem twentyLetters_not_roundTrips :
    44 ≤ (List.replicate 44 (7 : UInt8)).length ∧
      ¬ RoundTrips (ofLetters 20) (List.replicate 44 7) := by
  refine ⟨by decide, ?_⟩
  rintro ⟨-, written, hw, hread⟩
  have hback : ((ofLetters 20).writeToSend (List.replicate 44 7) 44).bind
      (fun w => ofBuffer w w.length) = some (ofLetters 20) := by
    rw [show (ofLetters 20).writeToSend (List.replicate 44 7) 44 = some written from hw]
    exact hread
  exact absurd hback (by decide)

end SocketConfig

end ServClient
