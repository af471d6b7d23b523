/-
The messages of a serving thread's owner: `Broadcast` to all clients, `Send` to one.

`Broadcast` packs the message alone, and its handler sends on what it gets.  `Send` packs
an `int` and the message behind it, and its handler looks up the pointer it reads from the
first eight bytes: those of the `int` and four of the message.  `find` makes a handle from
that pointer, and the handle deletes what the pointer points to before `Send` is called on it.
So nothing is ever sent (`sends_onEvent_send`).
-/
import ServClient.Proofs.Events
import ServClient.Proofs.ServingThread

namespace ServClient.XLServingThread

open Runs

/-! ### Frames -/

/-- What a buffer of a whole event is sent as: type, length, payload. -/
theorem frame_eq {e : XLThreadEvent} (he : e.WellFormed) : frame e = e.frame := by
  rw [frame, he.convertIntoCharBuffer, Option.getD_some, ← he.length_frame, Int.toNat_natCast,
    List.take_length]

/-- The frame of `Broadcast(msg, len)`. -/
theorem frame_broadcastEvent {msg : List UInt8} {len : Int} (hlen : 0 < len)
    (hfits : len ≤ intMax - 8) (hmsg : len ≤ msg.length) :
    frame (broadcastEvent (some msg) len) =
      Bytes.ofInt 4 usrMsgBdcst ++ Bytes.ofInt 4 len ++ msg.take len.toNat := by
  have hevent : broadcastEvent (some msg) len =
      { pData := some (msg.take len.toNat), iLength := len, iType := usrMsgBdcst } := by
    rw [broadcastEvent, XLThreadEvent.setData_some _ _ hlen]
    rfl
  have hlength : (msg.take len.toNat).length = len.toNat := by
    rw [List.length_take]
    omega
  have hwell : (broadcastEvent (some msg) len).WellFormed := by
    rw [hevent]
    exact ⟨show IsInt usrMsgBdcst by decide, Int.le_of_lt hlen, hfits, fun _ => ⟨_, rfl, hlength⟩⟩
  rw [frame_eq hwell, XLThreadEvent.frame, hevent, XLThreadEvent.payload, Option.getD_some,
    List.take_take, Nat.min_self]

/-! ### An addressed message

`Send(id, msg, len)` writes an `int` and the message, and the handler reads a pointer.  What it
looks up is therefore not the client that was meant, except by chance, and the search itself deletes
a client that is found.
-/

/-- The payload of `Send(id, msg, len)`: the `int` and the message. -/
def sendPayload (id : Int) (msg : List UInt8) : List UInt8 := Bytes.ofInt 4 id ++ msg

@[simp] theorem length_sendPayload (id : Int) (msg : List UInt8) :
    (sendPayload id msg).length = 4 + msg.length := by
  simp [sendPayload]

theorem sendEvent_eq (id : Int) (msg : List UInt8) :
    sendEvent id (some msg) msg.length = some
      { pData := some (sendPayload id msg), iLength := 4 + msg.length, iType := usrMsg } := by
  have hfirst : XLThreadEvent.new.write 0 (Bytes.ofInt 4 id) =
      some ({ pData := some (Bytes.ofInt 4 id), iLength := 4, iType := 0 }, false) := by
    have hplace : XLThreadEvent.new.inPlace 0 (Bytes.ofInt 4 id).length = false := by
      rw [Bytes.length_ofInt]
      rfl
    rw [XLThreadEvent.write, hplace, if_neg (by decide), XLThreadEvent.new_iLength, if_pos rfl,
      Bytes.length_ofInt]
    simp [XLThreadEvent.addData, XLThreadEvent.new, XLThreadEvent.setData_some,
      List.take_of_length_le]
  rw [sendEvent, hfirst, Option.bind_some]
  cases msg with
  | nil =>
      -- A message of no bytes fits, and is written in place.
      simp [XLThreadEvent.writeBlock, XLThreadEvent.poke, Bytes.store?, Bytes.splice,
        XLThreadEvent.setType, sendPayload]
  | cons b rest =>
      have hroom : ¬ ((0 : Int) ≤ 4 ∧ 4 + ((b :: rest).length : Int) ≤ 4) := by
        rw [List.length_cons]
        omega
      simp only [XLThreadEvent.writeBlock, if_neg hroom, if_pos]
      simp [XLThreadEvent.addData, XLThreadEvent.setType, sendPayload,
        List.take_of_length_le]

/-- The pointer that the handler takes the `int` and the first bytes of the message for. -/
def lookedUp (id : Int) (msg : List UInt8) : UInt64 :=
  UInt64.ofNat (Bytes.toNat (sendPayload id (msg.take 4)))

theorem usrMsgID_send (id : Int) (msg : List UInt8) {e : XLThreadEvent}
    (he : sendEvent id (some msg) msg.length = some e) :
    usrMsgID e = if 4 ≤ msg.length ∧ lookedUp id msg ≠ 0 then some (lookedUp id msg) else none := by
  rw [sendEvent_eq, Option.some.injEq] at he
  subst he
  have hplace : ∀ pData, XLThreadEvent.inPlace
      { pData := pData, iLength := 4 + msg.length, iType := usrMsg } 0 8 =
        decide (4 ≤ msg.length) := by
    intro pData
    have hcast : castInt (0 + (8 : Nat)) = 8 := by decide
    rw [XLThreadEvent.inPlace, hcast, decide_eq_true (Int.le_refl 0), Bool.true_and,
      decide_eq_decide]
    dsimp only
    omega
  have hbytes : (sendPayload id msg).take 8 = sendPayload id (msg.take 4) := by
    rw [sendPayload, sendPayload, List.take_append, Bytes.length_ofInt,
      List.take_of_length_le (by simp)]
  rw [usrMsgID, XLThreadEvent.read, hplace]
  by_cases hlen : 4 ≤ msg.length
  · simp [hlen, hbytes, lookedUp, ite_not]
  · simp [hlen]

/-- What the handler does with it. -/
theorem onEvent_send (t : XLServingThread) {id : Int} {msg : List UInt8} {e : XLThreadEvent}
    (he : sendEvent id (some msg) msg.length = some e) :
    t.onEvent e =
      if 4 ≤ msg.length ∧ lookedUp id msg ≠ 0 then
        { t with
          heap := (t.heap.adopt (some (lookedUp id msg))).drop (some t.heap.counters.length)
          fault := t.fault || !(some (lookedUp id msg) ∈ t.heap.adopted &&
            t.heap.timesDeleted (lookedUp id msg) = 0) }.send
          (t.clientIDs.find? fun c => t.heap.getData c = some (lookedUp id msg)).toList e
      else t := by
  have htype : e.iType = usrMsg := by
    rw [sendEvent_eq, Option.some.injEq] at he
    rw [← he]
  rw [onEvent, if_neg (by rw [htype]; decide), tOnEvent, if_neg (by rw [htype]; decide),
    if_neg (by rw [htype]; decide), if_neg (by rw [htype]; decide),
    if_neg (by rw [htype]; decide), if_pos htype, usrMsgID_send id msg he]
  split
  · rename_i hsome
    split at hsome
    · rename_i hlong
      cases hsome
      rw [if_pos hlong]
    · cases hsome
  · rename_i hnone
    split at hnone
    · cases hnone
    · rename_i hshort
      rw [if_neg hshort]

/-- What is looked up is deleted, client or not. -/
theorem timesDeleted_onEvent_send (t : XLServingThread) {id : Int} {msg : List UInt8}
    {e : XLThreadEvent} (he : sendEvent id (some msg) msg.length = some e)
    (hlong : 4 ≤ msg.length) (hnull : lookedUp id msg ≠ 0) :
    (t.onEvent e).heap.timesDeleted (lookedUp id msg) =
      t.heap.timesDeleted (lookedUp id msg) + 1 := by
  rw [onEvent_send t he, if_pos ⟨hlong, hnull⟩]
  show PtrHeap.timesDeleted ((t.heap.adopt _).drop _) _ = _
  rw [PtrHeap.drop, PtrHeap.releaseData, PtrHeap.adopt_release]
  simp [PtrHeap.timesDeleted]

/-- A handle to a socket that has been deleted. -/
theorem socketAt_eq_none {h : PtrHeap UInt64} {p : Option Nat} {a : UInt64}
    (ha : h.getData p = some a) (hdeleted : h.timesDeleted a ≠ 0) : socketAt h p = none := by
  rw [socketAt, ha, Option.filter_some, if_neg (by simpa using hdeleted)]

/-- The handle made for the search leaves the others as they were. -/
theorem getData_search {h : PtrHeap UInt64} {p : Option Nat} {a : UInt64} (d : UInt64)
    (ha : h.getData p = some a) :
    ((h.adopt (some d)).drop (some h.counters.length)).getData p = some a := by
  cases p with
  | none => cases ha
  | some b =>
      obtain ⟨c, hc, hca⟩ := PtrHeap.Counted.getData_eq_some.mp ha
      rw [PtrHeap.drop, PtrHeap.releaseData, PtrHeap.adopt_release]
      exact PtrHeap.Counted.getData_eq_some.mpr
        ⟨c, (List.getElem?_append_left (Calls.lt_of_getElem?_eq_some hc)).trans hc, hca⟩

/-- The client that was found is gone when `Send` is called on it. -/
theorem socketAt_search (t : XLServingThread) {id : Int} {msg : List UInt8} {e : XLThreadEvent}
    (he : sendEvent id (some msg) msg.length = some e) (hlong : 4 ≤ msg.length)
    (hnull : lookedUp id msg ≠ 0) {p : Option Nat}
    (hp : t.heap.getData p = some (lookedUp id msg)) :
    socketAt ((t.heap.adopt (some (lookedUp id msg))).drop (some t.heap.counters.length)) p =
      none := by
  refine socketAt_eq_none (getData_search _ hp) ?_
  have hdeleted := timesDeleted_onEvent_send t he hlong hnull
  rw [onEvent_send t he, if_pos ⟨hlong, hnull⟩] at hdeleted
  exact hdeleted ▸ Nat.succ_ne_zero _

/-- Whoever the message is for, nobody gets it. -/
theorem sends_onEvent_send (t : XLServingThread) {id : Int} {msg : List UInt8} {e : XLThreadEvent}
    (he : sendEvent id (some msg) msg.length = some e) : (t.onEvent e).sends = t.sends := by
  rw [onEvent_send t he]
  split
  · rename_i hread
    cases hfound : t.clientIDs.find? fun c => t.heap.getData c = some (lookedUp id msg) with
    | none => simp [send]
    | some p =>
        have hgone := socketAt_search t he hread.1 hread.2 (by simpa using List.find?_some hfound)
        simp [send, hgone]
  · rfl

/-- And a client that is found is called all the same. -/
theorem fault_onEvent_send (t : XLServingThread) {id : Int} {msg : List UInt8} {e : XLThreadEvent}
    (he : sendEvent id (some msg) msg.length = some e) (hlong : 4 ≤ msg.length)
    (hnull : lookedUp id msg ≠ 0) {p : Option Nat} (hp : p ∈ t.clientIDs)
    (hclient : t.heap.getData p = some (lookedUp id msg)) : (t.onEvent e).fault = true := by
  obtain ⟨c, hfound⟩ : ∃ c, (t.clientIDs.find? fun c =>
      t.heap.getData c = some (lookedUp id msg)) = some c :=
    Option.isSome_iff_exists.mp (List.find?_isSome.mpr ⟨p, hp, by simpa using hclient⟩)
  have hgone := socketAt_search t he hlong hnull (by simpa using List.find?_some hfound)
  rw [onEvent_send t he, if_pos ⟨hlong, hnull⟩, hfound]
  simp [send, hgone]

/-- What `Send` promises: one frame with the message to `c`, none to anyone else, and the clients
stay as they are. -/
structure SentTo (c : UInt64) (msg : List UInt8) (t t' : XLServingThread) : Prop where
  written : t'.sends =
    t.sends ++ [(c, Bytes.ofInt 4 usrMsg ++ Bytes.ofInt 4 msg.length ++ msg)]
  clients : t'.clientIDs = t.clientIDs
  lives : ∀ p ∈ t.clientIDs, ∀ a, t.heap.getData p = some a →
    t'.heap.timesDeleted a = t.heap.timesDeleted a

/--
Whatever thread handles the event, and whoever the message is for: nobody gets it.  Where the bytes
make a pointer, what the pointer names is deleted, and if that is a client it is called after that.
-/
theorem never_sent_to (t : XLServingThread) (c : UInt64) (id : Int) (msg : List UInt8) :
    ∃ e, sendEvent id (some msg) msg.length = some e ∧ ¬ SentTo c msg t (t.onEvent e) ∧
      (t.onEvent e).sends = t.sends ∧
      if 4 ≤ msg.length ∧ lookedUp id msg ≠ 0 then
        (t.onEvent e).heap.timesDeleted (lookedUp id msg) =
            t.heap.timesDeleted (lookedUp id msg) + 1 ∧
          ∀ p ∈ t.clientIDs, t.heap.getData p = some (lookedUp id msg) →
            (t.onEvent e).fault = true
      else t.onEvent e = t := by
  have he := sendEvent_eq id msg
  refine ⟨_, he, fun hsent => ?_, sends_onEvent_send t he, ?_⟩
  · have hwritten := hsent.written
    rw [sends_onEvent_send t he] at hwritten
    exact absurd (List.self_eq_append_right.mp hwritten) (by simp)
  · split
    · rename_i hread
      exact ⟨timesDeleted_onEvent_send t he hread.1 hread.2,
        fun p hp hclient => fault_onEvent_send t he hread.1 hread.2 hp hclient⟩
    · rename_i hshort
      rw [onEvent_send t he, if_neg hshort]

/-- A client whose socket is at 32, to which four zeros are sent: its socket is deleted, and then
called. -/
theorem send_deletes_the_client :
    ∃ t t', exec next (new true) [.start true (some 16), .event, .accept 32, .event] = some t ∧
      exec next t (((sendEvent 32 (some [0, 0, 0, 0]) 4).map ServingStep.sendSelfEvent).toList ++
        [.event]) = some t' ∧
      t.clientIDs.map t.heap.getData = [some 32] ∧ t.fault = false ∧
      t'.sends = t.sends ∧ t'.heap.timesDeleted 32 = 1 ∧ t'.fault = true ∧
      ¬ SentTo 32 [0, 0, 0, 0] t t' := by
  obtain ⟨t, ht, hclient⟩ := (Option.any_eq_true _ _).mp
    (show (exec next (new true) [.start true (some 16), .event, .accept 32, .event]).any
      (fun t => t.clientIDs.map t.heap.getData = [some 32] && !t.fault &&
        (exec next t (((sendEvent 32 (some [0, 0, 0, 0]) 4).map ServingStep.sendSelfEvent).toList ++
          [.event])).any fun t' =>
            t'.sends = t.sends && t'.heap.timesDeleted 32 = 1 && t'.fault) = true by decide)
  simp only [Bool.and_eq_true, decide_eq_true_eq, Bool.not_eq_true'] at hclient
  obtain ⟨⟨hclients, hsound⟩, hafter⟩ := hclient
  obtain ⟨t', ht', hend⟩ := (Option.any_eq_true _ _).mp hafter
  simp only [Bool.and_eq_true, decide_eq_true_eq] at hend
  obtain ⟨⟨hsends, hdeleted⟩, hfault⟩ := hend
  refine ⟨t, t', ht, ht', hclients, hsound, hsends, hdeleted, hfault, fun hsent => ?_⟩
  have hwritten := hsent.written
  rw [hsends] at hwritten
  exact absurd (List.self_eq_append_right.mp hwritten) (by simp)

end ServClient.XLServingThread
