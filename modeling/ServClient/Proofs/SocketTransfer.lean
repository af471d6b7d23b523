/-
What the codes of `Send` and `Recieve` are worth.

Without Windows' error numbers every error is `SocketNoError`, and the number of bytes is compared
with -1 only.  So both calls always report success, with the size they were called with, and
they are right exactly where the system has done all that was asked for.
-/
import Mathlib.Data.List.TakeDrop
import ServClient.SocketTransfer

namespace ServClient

/-- What `recv` may answer for a buffer of this size. -/
def RecvResult.Fits (r : RecvResult) (bufflen : Nat) : Prop :=
  ∀ chunk, r = .bytes chunk → 1 ≤ chunk.length ∧ chunk.length ≤ bufflen

/-- The bytes that the kernel has. -/
def handed (msg : List UInt8) (numbytes : Int) : List UInt8 := msg.take numbytes.toNat

namespace XLSocket

variable {s : XLSocket} {msg buff : List UInt8} {numbytes : Int} {r : RecvResult}

/-- A `Send` that succeeds, or says so to the listener, has handed over the whole message. -/
structure SendSound (s : XLSocket) (msg : List UInt8) (numbytes : Int) : Prop where
  code : (s.send msg numbytes).1 = .socketNoError → handed msg numbytes = msg
  report : .onSend msg msg.length ∈ (s.send msg numbytes).2 → handed msg numbytes = msg

/-- A `Recieve` that succeeds has stored something, and says to the listener how much. -/
structure RecieveSound (s : XLSocket) (buff : List UInt8) (r : RecvResult) : Prop where
  stored : (s.recieveReporting buff r).2.1 = .socketNoError → 1 ≤ r.stored.length
  report : (s.recieveReporting buff r).2.1 = .socketNoError → s.listener = true →
    (s.recieveReporting buff r).2.2 =
      [.onRecieve (s.recieveReporting buff r).1 r.stored.length]

/-! ### Both always succeed -/

theorem send_eq (s : XLSocket) (msg : List UInt8) (numbytes : Int) :
    s.send msg numbytes =
      (.socketNoError, if s.listener then [.onSend msg msg.length] else []) := by
  have hcode : SocketUtility.send numbytes = .socketNoError := by
    unfold SocketUtility.send SocketUtility.getErrorCode
    split <;> rfl
  cases hl : s.listener <;> simp [send, hcode, hl]

theorem recieve_succeeds (buff : List UInt8) (r : RecvResult) :
    SocketUtility.recieve buff r = (Bytes.splice buff 0 r.stored, .socketNoError) := by
  unfold SocketUtility.recieve SocketUtility.getErrorCode
  dsimp only
  split <;> rfl

theorem recieveReporting_eq (s : XLSocket) (buff : List UInt8) (r : RecvResult) :
    s.recieveReporting buff r = (Bytes.splice buff 0 r.stored, .socketNoError,
      if s.listener then
        [.onRecieve (Bytes.splice buff 0 r.stored) (Bytes.splice buff 0 r.stored).length]
      else []) := by
  unfold recieveReporting
  rw [recieve_succeeds]
  cases hl : s.listener <;> simp

/-- The receive loop looks at the buffer and the code alone. -/
theorem recieve_eq (s : XLSocket) (buff : List UInt8) (r : RecvResult) :
    recieve buff r =
      ((s.recieveReporting buff r).1, (s.recieveReporting buff r).2.1) := by
  rw [recieveReporting_eq, recieve, recieve_succeeds]

/-! ### When they are right to -/

theorem sendSound_iff (hbytes : numbytes ≤ msg.length) :
    SendSound s msg numbytes ↔ numbytes.toNat = msg.length := by
  have hhanded : handed msg numbytes = msg ↔ numbytes.toNat = msg.length := by
    rw [handed, List.take_eq_self_iff]
    omega
  rw [← hhanded]
  constructor
  · intro h
    exact h.code (by rw [send_eq])
  · intro h
    exact ⟨fun _ => h, fun _ => h⟩

theorem recieveSound_iff (hfits : r.Fits buff.length) :
    RecieveSound s buff r ↔
      ∃ chunk, r = .bytes chunk ∧ (s.listener = true → chunk.length = buff.length) := by
  have hlen : (Bytes.splice buff 0 r.stored).length = buff.length := by
    refine Bytes.length_splice ?_
    cases r with
    | bytes chunk =>
        rw [Nat.zero_add]
        exact (hfits chunk rfl).2
    | closed | failed => exact Nat.zero_le _
  constructor
  · intro h
    have hstored := h.stored (by rw [recieveReporting_eq])
    cases r with
    | bytes chunk =>
        refine ⟨chunk, rfl, fun hl => ?_⟩
        have hreport := h.report (by rw [recieveReporting_eq]) hl
        rw [recieveReporting_eq, hl, if_pos rfl, hlen] at hreport
        simp only [List.cons.injEq, SocketReport.onRecieve.injEq, and_true, true_and] at hreport
        exact (Int.ofNat_inj.mp hreport).symm
    | closed | failed => exact absurd hstored (by decide)
  · rintro ⟨chunk, rfl, hwhole⟩
    refine ⟨fun _ => (hfits chunk rfl).1, fun _ hl => ?_⟩
    rw [recieveReporting_eq, hl, if_pos rfl, hlen, ← hwhole hl]
    rfl

/--
The codes are sound if and only if the kernel has taken the whole message, and `recv` has stored
something and, where there is a listener, has filled the buffer.
-/
theorem codes_sound_iff (s : XLSocket) {msg buff : List UInt8} {numbytes : Int} {r : RecvResult}
    (hbytes : -1 ≤ numbytes ∧ numbytes ≤ msg.length) (hfits : r.Fits buff.length) :
    (SendSound s msg numbytes ↔ numbytes.toNat = msg.length) ∧
      (RecieveSound s buff r ↔
        ∃ chunk, r = .bytes chunk ∧ (s.listener = true → chunk.length = buff.length)) :=
  ⟨sendSound_iff hbytes.2, recieveSound_iff hfits⟩

/-- Two bytes are sent, and one arrives in a buffer of one byte. -/
theorem codes_sound_iff_short :
    (SendSound (new SocketConfig.new true true) [1, 2] 2 ↔ (2 : Int).toNat = 2) ∧
      (RecieveSound (new SocketConfig.new true true) [0] (.bytes [7]) ↔
        ∃ chunk, RecvResult.bytes [7] = .bytes chunk ∧ (true = true → chunk.length = 1)) :=
  codes_sound_iff (new SocketConfig.new true true) (by decide) (fun chunk h => by cases h; decide)

/-- A `send` that fails, and a connection that the peer has closed. -/
theorem failures_succeed :
    ¬ SendSound (new SocketConfig.new true true) [1, 2] (-1) ∧
      ¬ RecieveSound (new SocketConfig.new true true) [0] .closed :=
  ⟨fun h => absurd (h.code rfl) (by decide), fun h => absurd (h.stored rfl) (by decide)⟩

end XLSocket

end ServClient
