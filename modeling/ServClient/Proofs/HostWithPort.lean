/-
What comes back of a host and its port.

The second call of `strtok` is given the text again, in place of null, so it starts over.  By
then a zero stands behind the host, and all there is to split is the host: the port that
`SetHostWithPort` sets is what `atoi` makes of it.  The port itself is behind the zero, where
nothing looks.
-/
import ServClient.HostWithPort

namespace ServClient

namespace SocketConfig

open CText

variable {c d : SocketConfig} {text host : CString}

theorem textAt_eq {memory behind : List UInt8} {start : Nat} {s : CString}
    (h : memory.drop start = s.bytes ++ 0 :: behind) : textAt memory start = some s := by
  rw [textAt, h, CString.read_eq_some]
  exact ⟨behind, by simp⟩

@[simp] theorem setHostNumber_portNumber (c : SocketConfig) (hostnumber : Option CString) :
    (c.setHostNumber hostnumber).portNumber = c.portNumber := by
  unfold setHostNumber
  split
  · split <;> rfl
  · rfl

@[simp] theorem setPortNumber_hostNumber (c : SocketConfig) (value : Int32) :
    (c.setPortNumber value).hostNumber = c.hostNumber := rfl

@[simp] theorem setPortNumber_portNumber (c : SocketConfig) (value : Int32) :
    (c.setPortNumber value).portNumber = value := rfl

/-- A host is taken over if its length is positive as an `int`. -/
theorem setHostNumber_eq_iff :
    (d.setHostNumber (some host)).hostNumber = host ↔
      (castInt host.bytes.length ≤ 0 → d.hostNumber = host) := by
  by_cases hpos : 0 < castInt host.bytes.length
  · simp [setHostNumber, hpos]
  · simp [setHostNumber, hpos, not_lt.mp hpos]

/-! ### Where the second call looks

`strtok` puts a zero where the colon was, and the second call begins at the front again.  So the
port is read from the host.
-/

/-- The first call of `strtok` finds what is before the colon, and puts a zero behind it. -/
theorem strtok_colon {e : UInt8} {later : List UInt8} (hne : host.bytes ≠ [])
    (hcolon : ∀ b ∈ host.bytes, b ∉ colon) (he : e = 0 ∨ e ∈ colon) :
    strtok colon (host.bytes ++ e :: later) = some (some 0, host.bytes ++ 0 :: later) := by
  have hnone : ∀ b ∈ ([] : List UInt8), b ∈ colon := by simp
  exact strtok_found hnone hne (fun b hb => ⟨fun h => host.noNul (h ▸ hb), hcolon b hb⟩) he

/-- The second one finds a part of the host. -/
theorem takePort_blanks (later : List UInt8) :
    ((strtok blanks (host.bytes ++ 0 :: later)).bind fun found => d.takePort found.2 found.1) =
      if firstToken blanks host.bytes = [] then some d
      else (atoi (firstToken blanks host.bytes)).map d.setPortNumber := by
  rcases strtok_text later (by decide : 0 ∉ blanks) host.noNul with
    ⟨hnone, hfound⟩ | ⟨hne, start, memory, behind, hfound, hmemory⟩
  · rw [if_pos hnone, hfound]
    rfl
  · have hfree : 0 ∉ firstToken blanks host.bytes := fun h => host.noNul
      ((List.takeWhile_sublist _).trans (List.dropWhile_sublist _) |>.subset h)
    have htext : textAt memory start = some ⟨firstToken blanks host.bytes, hfree⟩ :=
      textAt_eq hmemory
    rw [if_neg hne, hfound, Option.bind_some]
    simp only [takePort, htext, Option.bind_eq_bind, Option.bind_some, Option.map_eq_bind]
    rfl

/-- The port is what `atoi` makes of the host. -/
theorem setHostWithPort_eq {e : UInt8} {later : List UInt8} (hpos : 0 < castInt text.bytes.length)
    (hfits : castInt text.bytes.length + 2 ≤ intMax)
    (htext : text.bytes ++ [0] = host.bytes ++ e :: later) (hne : host.bytes ≠ [])
    (hcolon : ∀ b ∈ host.bytes, b ∉ colon) (he : e = 0 ∨ e ∈ colon) :
    d.setHostWithPort (some text) =
      if firstToken blanks host.bytes = [] then some (d.setHostNumber (some host))
      else (atoi (firstToken blanks host.bytes)).map
        (d.setHostNumber (some host)).setPortNumber := by
  have hhost : textAt (host.bytes ++ 0 :: later) 0 = some host := textAt_eq List.drop_zero
  rw [← takePort_blanks later, setHostWithPort]
  simp only [if_pos hpos, if_neg (not_lt.mpr hfits), htext, strtok_colon hne hcolon he]
  simp only [takeHost, hhost, Option.bind_eq_bind, Option.bind_some, Option.map_some]

/-- The text of `c` up to its colon, and what is behind it. -/
theorem getHostWithPort_bytes (c : SocketConfig) :
    c.getHostWithPort.bytes ++ [0] =
      c.hostNumber.bytes ++ 58 :: (ofInt c.portNumber.toInt ++ [0]) := by
  simp [getHostWithPort, colon]

/-! ### The laws -/

/-- The host and the port of `c` come back. -/
def ComesBack (c d : SocketConfig) : Prop :=
  ∃ d', d.setHostWithPort (some c.getHostWithPort) = some d' ∧
    d'.hostNumber = c.hostNumber ∧ d'.portNumber = c.portNumber

/-- The text leaves the port alone. -/
def KeepsPort (text : CString) (d : SocketConfig) : Prop :=
  ∃ d', d.setHostWithPort (some text) = some d' ∧ d'.portNumber = d.portNumber

/-- A host that can be told from its port. -/
structure PlainHost (host : CString) : Prop where
  nonempty : host.bytes ≠ []
  colon : ∀ b ∈ host.bytes, b ∉ colon
  blanks : ∀ b ∈ host.bytes, b ∉ blanks

/-- The host is text that `atoi` makes the port of, and the lengths are positive as `int`s. -/
def HostIsPort (c d : SocketConfig) : Prop :=
  if 0 < castInt c.getHostWithPort.bytes.length then
    castInt c.getHostWithPort.bytes.length + 2 ≤ intMax ∧
      (castInt c.hostNumber.bytes.length ≤ 0 → d.hostNumber = c.hostNumber) ∧
      atoi c.hostNumber.bytes = some c.portNumber
  else d.hostNumber = c.hostNumber ∧ d.portNumber = c.portNumber

/-- The text is blank, or its first word is text that `atoi` makes the port of. -/
def WordIsPort (text : CString) (d : SocketConfig) : Prop :=
  0 < castInt text.bytes.length → castInt text.bytes.length + 2 ≤ intMax ∧
    (firstToken blanks text.bytes = [] ∨ atoi (firstToken blanks text.bytes) = some d.portNumber)

theorem setHostWithPort_long (hpos : ¬ 0 < castInt text.bytes.length) :
    d.setHostWithPort (some text) = some d := by
  rw [setHostWithPort]
  exact if_neg hpos

theorem setHostWithPort_overflow (hpos : 0 < castInt text.bytes.length)
    (hfits : ¬ castInt text.bytes.length + 2 ≤ intMax) : d.setHostWithPort (some text) = none := by
  rw [setHostWithPort]
  simp only [if_pos hpos, if_pos (not_le.mp hfits)]

theorem comesBack_iff_hostIsPort (hc : PlainHost c.hostNumber) (d : SocketConfig) :
    ComesBack c d ↔ HostIsPort c d := by
  unfold ComesBack HostIsPort
  split
  · rename_i hpos
    by_cases hfits : castInt c.getHostWithPort.bytes.length + 2 ≤ intMax
    · have hself : firstToken blanks c.hostNumber.bytes = c.hostNumber.bytes :=
        firstToken_self hc.blanks
      rw [setHostWithPort_eq hpos hfits (getHostWithPort_bytes c) hc.nonempty hc.colon
        (Or.inr (by decide)), hself, if_neg hc.nonempty, ← setHostNumber_eq_iff]
      constructor
      · rintro ⟨d', hd', hhost, hport⟩
        obtain ⟨port, hatoi, rfl⟩ := Option.map_eq_some_iff.mp hd'
        rw [setPortNumber_hostNumber] at hhost
        rw [setPortNumber_portNumber] at hport
        exact ⟨hfits, hhost, by rw [hatoi, hport]⟩
      · rintro ⟨-, hhost, hatoi⟩
        refine ⟨(d.setHostNumber (some c.hostNumber)).setPortNumber c.portNumber, ?_, ?_, ?_⟩
        · simp only [hatoi, Option.map_some]
        · rw [setPortNumber_hostNumber, hhost]
        · rw [setPortNumber_portNumber]
    · rw [setHostWithPort_overflow hpos hfits]
      simp [hfits]
  · rename_i hpos
    rw [setHostWithPort_long hpos]
    simp

theorem keepsPort_iff_wordIsPort (htext : ∀ b ∈ text.bytes, b ∉ colon) (d : SocketConfig) :
    KeepsPort text d ↔ WordIsPort text d := by
  unfold KeepsPort WordIsPort
  by_cases hpos : 0 < castInt text.bytes.length
  · by_cases hfits : castInt text.bytes.length + 2 ≤ intMax
    · have hne : text.bytes ≠ [] := fun h => by
        rw [h] at hpos
        exact absurd hpos (by decide)
      rw [setHostWithPort_eq hpos hfits rfl hne htext (Or.inl rfl)]
      split
      · rename_i hblank
        simp [hpos, hfits, hblank]
      · rename_i hword
        simp only [hpos, hfits, hword, true_and, false_or, forall_const]
        constructor
        · rintro ⟨d', hd', hport⟩
          obtain ⟨port, hatoi, rfl⟩ := Option.map_eq_some_iff.mp hd'
          rw [setPortNumber_portNumber] at hport
          rw [hatoi, hport]
        · intro hatoi
          refine ⟨(d.setHostNumber (some text)).setPortNumber d.portNumber, ?_, ?_⟩
          · simp only [hatoi, Option.map_some]
          · rw [setPortNumber_portNumber]
    · rw [setHostWithPort_overflow hpos hfits]
      simp [hpos, hfits]
  · rw [setHostWithPort_long hpos]
    simp [hpos]

/--
A host without colon or blanks and its port come back if and only if `atoi` makes the port of the
host, and a text without colon leaves the port if and only if it is blank or `atoi` makes the port
of its first word, as long as the lengths are positive `int`s.
-/
theorem setHostWithPort_iff (hc : PlainHost c.hostNumber) (htext : ∀ b ∈ text.bytes, b ∉ colon)
    (d : SocketConfig) :
    (ComesBack c d ↔ HostIsPort c d) ∧ (KeepsPort text d ↔ WordIsPort text d) :=
  ⟨comesBack_iff_hostIsPort hc d, keepsPort_iff_wordIsPort htext d⟩

/-- `"80"`, with port 80. -/
def eighty : SocketConfig :=
  { new with hostNumber := ⟨[56, 48], by decide⟩, portNumber := 80 }

/-- `"h"`, with port 80. -/
def letter : SocketConfig :=
  { new with hostNumber := ⟨[104], by decide⟩, portNumber := 80 }

theorem plainHost_eighty : PlainHost eighty.hostNumber := by
  constructor <;> simp [eighty, colon, blanks]

theorem plainHost_letter : PlainHost letter.hostNumber := by
  constructor <;> simp [letter, colon, blanks]

theorem setHostWithPort_iff_eighty :
    (ComesBack eighty new ↔ HostIsPort eighty new) ∧
      (KeepsPort letter.hostNumber new ↔ WordIsPort letter.hostNumber new) :=
  setHostWithPort_iff plainHost_eighty plainHost_letter.colon new

/-- The port 80 of the host `"h"` comes back as 0. -/
theorem port_lost : PlainHost letter.hostNumber ∧ ¬ ComesBack letter new := by
  refine ⟨plainHost_letter, fun h => ?_⟩
  obtain ⟨d', hd', -, hport⟩ := h
  have hset : new.setHostWithPort (some letter.getHostWithPort) =
      some { letter with portNumber := 0 } := by decide
  rw [hset] at hd'
  cases hd'
  exact absurd hport (by decide)

end SocketConfig

end ServClient
