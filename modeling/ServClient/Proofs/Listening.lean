/-
What the listening thread makes of a server's stream.

Nothing: `m_Event` is built with a payload of `MAX_MESS_LENGTH` bytes, so the guard
of `ReadFrom`, which asks for room for the event's old payload and a header, fails on
a buffer of `MAX_MESS_LENGTH` bytes.  It fails again on the next call, since the event
has not changed.  Each `recv`, whatever it brings, hands the listener the same event
of type 0 with the 50 bytes its buffer happened to hold.
-/
import ServClient.Listening
import ServClient.Proofs.Events

namespace ServClient

theorem Message.wire_eq (m : Message) : m.wire = m.event.frame := by
  have hlen := m.event_wellFormed.length_frame
  rw [Message.wire, m.event_wellFormed.convertIntoCharBuffer, Option.getD_some,
    List.take_of_length_le (by omega)]

/-- A message is eight bytes longer on the wire. -/
theorem Message.length_wire (m : Message) : m.wire.length = m.payload.length + 8 := by
  have hlen := m.event_wellFormed.length_frame
  obtain ⟨-, hl, -⟩ := m.event_eq
  rw [m.wire_eq]
  unfold XLThreadEvent.writableSize XLThreadEvent.metaDataLength at hlen
  omega

/-! ### The event that never changes

The listening thread decodes into an event whose payload has 50 bytes, and its buffer has 50: there
is never room for 58.  Whatever arrives, the event is the one it started with.
-/

/-- A buffer with no room for the event's old payload and a header is not decoded. -/
theorem XLThreadEvent.readFrom_of_small {e : XLThreadEvent} {length : Int}
    (h : length < e.writableSize) (source : Option (List UInt8)) :
    e.readFrom source length = e := by
  unfold readFrom
  cases source with
  | none => rfl
  | some bytes => simp only [if_neg (Int.not_le.mpr h)]

namespace SocketUtility

theorem recieve_noError (msg : List UInt8) (r : RecvResult) :
    (recieve msg r).2 = .socketNoError := by
  unfold recieve
  split <;> rfl

end SocketUtility

namespace XLListeningThread

/-- What the loop keeps: a listener, no exit request, and an event too large to be replaced. -/
structure Deaf (t : XLListeningThread) (e : XLThreadEvent) : Prop where
  running : t.bExit = false
  listener : t.listener = true
  event : t.event = e
  large : (maxMessLength : Int) < e.writableSize

theorem deaf_new (uninitEvent uninitStorage : Vector UInt8 maxMessLength) :
    Deaf (new uninitEvent uninitStorage).setListener
      { pData := some uninitEvent.toList, iLength := maxMessLength, iType := 0 } :=
  ⟨rfl, rfl, rfl, by show (50 : Int) < 50 + 8; decide⟩

theorem receive_deaf {t : XLListeningThread} {e : XLThreadEvent} (h : Deaf t e) (r : RecvResult) :
    Deaf (t.receive r).1 e ∧ (t.receive r).2 = some e := by
  have hread := XLThreadEvent.readFrom_of_small h.large
    (some (SocketUtility.recieve t.dataStorage r).1)
  simp only [receive, XLSocket.recieve, SocketUtility.recieve_noError, if_true, h.listener,
    h.event, hread]
  exact ⟨⟨h.running, rfl, rfl, h.large⟩, trivial⟩

/-- One and the same event for every call, whatever the calls answer. -/
theorem runProgram_deaf {e : XLThreadEvent} :
    ∀ {t : XLListeningThread} (results : List RecvResult), Deaf t e →
      t.runProgram results = List.replicate results.length e := by
  intro t results
  induction results generalizing t with
  | nil => intro _; rfl
  | cons r rest ih =>
      intro h
      obtain ⟨hdeaf, hout⟩ := receive_deaf h r
      rw [runProgram, if_neg (by rw [h.running]; decide)]
      simp only [hout, ih hdeaf, Option.toList_some, List.length_cons, List.replicate_succ,
        List.singleton_append]

end XLListeningThread

/-! ### Counting bytes -/

theorem length_flatten_le {k : Nat} :
    ∀ {chunks : List (List UInt8)}, (∀ c ∈ chunks, c.length ≤ k) →
      chunks.flatten.length ≤ k * chunks.length := by
  intro chunks
  induction chunks with
  | nil => intro _; simp
  | cons c rest ih =>
      intro h
      have hc := h c (by simp)
      have hrest := ih fun d hd => h d (by simp [hd])
      simp only [List.flatten_cons, List.length_append, List.length_cons, Nat.mul_add]
      omega

theorem length_wireStream {k : Nat} :
    ∀ {sent : List Message}, (∀ m ∈ sent, m.payload.length = k) →
      (wireStream sent).length = (k + 8) * sent.length := by
  intro sent
  induction sent with
  | nil => intro _; rfl
  | cons m rest ih =>
      intro h
      have hm := h m (by simp)
      have hrest := ih fun m' hm' => h m' (by simp [hm'])
      simp only [wireStream] at hrest ⊢
      simp only [List.flatMap_cons, List.length_append, m.length_wire, hm, hrest,
        List.length_cons, Nat.mul_add]
      omega

/--
The listener is handed the sequence that was sent only when nothing was sent and no `recv` call
returned.  A stream of `n` events of 50 bytes is 58 `n` bytes long and takes more than `n` calls.
-/
theorem delivered_eq_sent_iff (uninitEvent uninitStorage : Vector UInt8 maxMessLength)
    {sent : List Message} {results : List RecvResult}
    (h : IsDelivery (wireStream sent) results) :
    ((XLListeningThread.new uninitEvent uninitStorage).setListener.runProgram results).map
        XLThreadEvent.contents = sent.map Message.toContents ↔
      sent = [] ∧ results = [] := by
  have hdeaf := XLListeningThread.deaf_new uninitEvent uninitStorage
  rw [XLListeningThread.runProgram_deaf results hdeaf, List.map_replicate]
  constructor
  · intro heq
    -- Every message sent is the stale event, so its payload is 50 bytes.
    have hcount : results.length = sent.length := by simpa using congrArg List.length heq
    have hpayload : ∀ m ∈ sent, m.payload.length = maxMessLength := by
      intro m hm
      have hmem : m.toContents ∈ sent.map Message.toContents := List.mem_map_of_mem hm
      rw [← heq] at hmem
      rw [(List.mem_replicate.mp hmem).2]
      simp [XLThreadEvent.contents, XLThreadEvent.payload]
    obtain ⟨chunks, closes, rfl, hflat, hsize⟩ := h
    have hbytes := length_wireStream hpayload
    have hcalls := length_flatten_le fun c hc => (hsize c hc).2
    rw [hflat, hbytes] at hcalls
    simp only [List.length_append, List.length_map, List.length_replicate] at hcount
    simp only [maxMessLength] at hcalls
    have hnil : sent.length = 0 := by omega
    refine ⟨List.length_eq_zero_iff.mp hnil, ?_⟩
    rw [← List.length_eq_zero_iff, List.length_append, List.length_map, List.length_replicate]
    omega
  · rintro ⟨rfl, rfl⟩
    rfl

/-- A broadcast of two letters. -/
def hello : Message where
  type := 17
  payload := [104, 105]
  type_isInt := by decide
  payload_fits := by decide

theorem hello_delivery : IsDelivery (wireStream [hello]) [.bytes hello.wire] :=
  ⟨[hello.wire], 0, rfl, by simp [wireStream], by decide⟩

/-- The two letters, received in one piece, are not what the listener is handed. -/
theorem hello_not_delivered :
    IsDelivery (wireStream [hello]) [.bytes hello.wire] ∧
      ((XLListeningThread.new (Vector.replicate 50 0)
        (Vector.replicate 50 0)).setListener.runProgram
          [.bytes hello.wire]).map XLThreadEvent.contents ≠ [hello.toContents] :=
  ⟨hello_delivery, by decide⟩

theorem delivered_eq_sent_iff_hello :
    ((XLListeningThread.new (Vector.replicate 50 0) (Vector.replicate 50 0)).setListener.runProgram
        [.bytes hello.wire]).map XLThreadEvent.contents = [hello].map Message.toContents ↔
      [hello] = [] ∧ [RecvResult.bytes hello.wire] = [] :=
  delivered_eq_sent_iff _ _ hello_delivery

end ServClient
