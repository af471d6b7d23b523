/-
Whether the registry of a server is what it is for.

The map holds the services that run, and `Registry` is what that is to mean.  Starting a
service keeps the two together (`Sound`): a row of the map leads to a service that has not been
deleted, no two rows to one, and to every one there is a row.  So does a message, where the queue of
each service it is for takes it; and what the threads of a service do leaves its messages alone
(`posted_next`).

`StopAService` deletes the service, then uses it, and leaves its row in the map.  So the two part at
the first stop of a service that runs, or at the first message a queue drops.
-/
import ServClient.Server
import ServClient.Proofs.ServingThread

namespace ServClient

open Runs

/-! ### What a queue has had

A service that has been started has a queue, and what was broadcast to it is in that queue or has
been taken out.  A queue that is full or not created drops the message.
-/

namespace XLServingThread

variable {t t' : XLServingThread} {e : XLThreadEvent}

/-- The messages in the queue. -/
def messages (t : XLServingThread) : List XLThreadEvent :=
  t.events.pending.filter fun e => e.iType = usrMsgBdcst

/-- Another event is none of them, and there may be no room for it. -/
theorem messages_put (t : XLServingThread) (he : e.iType ≠ usrMsgBdcst) :
    (t.put e).messages = t.messages := by
  unfold put
  split
  · by_cases hroom : t.events.pending.length < t.events.maxSize
    · simp [messages, (XLLFQ.push_room hroom e).2, he]
    · simp [messages, (XLLFQ.push_full hroom e).2]
  · rfl

theorem messages_onAccept (t : XLServingThread) (p : Option Nat) :
    (t.onAccept p).messages = t.messages := by
  have hput := messages_put (t.pushIncoming p) (e := acceptEvent) (by decide)
  unfold onAccept
  dsimp only
  split <;> exact hput

theorem tOnEvent_events (t : XLServingThread) (e : XLThreadEvent) :
    (t.tOnEvent e).events = t.events := by
  have hinsert (p : Option Nat) (u : XLServingThread) : (u.insert p).events = u.events := by
    unfold insert
    split <;> rfl
  unfold tOnEvent
  split
  · split <;> rfl
  · split
    · split
      · split
        · dsimp only
          split
          · exact hinsert _ _
          · rfl
        · rfl
      · rfl
    · split
      · split <;> rfl
      · split
        · rfl
        · split
          · split <;> rfl
          · rfl

theorem onEvent_events (t : XLServingThread) (e : XLThreadEvent) :
    (t.onEvent e).events = t.events := by
  unfold onEvent
  split
  · rfl
  · exact tOnEvent_events t e

theorem messages_start (id : UInt64) (created : Bool) (socket : Option UInt64) :
    ((XLCService.new id).start created socket).service.messages = [] := by
  cases created <;> rfl

end XLServingThread

namespace XLCService

variable {o o' : XLCService}

/-- The threads of a service take its messages out and post none. -/
theorem posted_next {l : ServingStep} (hown : l.isOwn = true) (hl : o.next l = some o') :
    o'.posted = o.posted := by
  obtain ⟨service, hservice, rfl⟩ := Option.map_eq_some_iff.mp hl
  have hsame (hmessages : service.messages = o.service.messages) :
      posted { o with service := service } = o.posted := by
    rw [posted, posted, List.filter_append, List.filter_append]
    exact congrArg _ hmessages
  cases XLServingThread.moves_of_next hservice with
  | start | stop | destroy => cases hown
  | sendSelfEvent e =>
      refine hsame (XLServingThread.messages_put _ fun he => ?_)
      rw [ServingStep.isOwn, decide_eq_true_eq, he] at hown
      exact absurd hown (by decide)
  | accept ha => exact hsame (XLServingThread.messages_onAccept _ _)
  | @acceptSSL a accepted ha =>
      refine hsame ?_
      cases accepted with
      | false => rfl
      | true => exact XLServingThread.messages_onAccept _ _
  | @event q e he =>
      have hpop : o.service.events.pop = some (q, e) := by
        rw [XLServingThread.nextEvent] at he
        split at he
        · exact he
        · cases he
      simp only [posted, he, Option.map_some, Option.toList_some, XLServingThread.onEvent_events,
        XLLFQ.pop_eq_some hpop, List.append_assoc, List.singleton_append]

theorem posted_start (id : UInt64) (created : Bool) (socket : Option UInt64) :
    ((new id).start created socket).posted = [] := XLServingThread.messages_start id created socket

/-- A queue with room has the message. -/
theorem posted_broadcast (hroom : o.hasRoom = true) (msg : Option (List UInt8)) (len : Int) :
    (o.broadcast msg len).posted = o.posted ++ [XLServingThread.broadcastEvent msg len] := by
  obtain ⟨hcreated, hfits⟩ := (Bool.and_eq_true _ _).mp hroom
  have htype : (XLServingThread.broadcastEvent msg len).iType = XLServingThread.usrMsgBdcst := rfl
  rw [broadcast, posted, XLServingThread.put, if_pos hcreated]
  dsimp only
  rw [(XLLFQ.push_room (of_decide_eq_true hfits) _).2, posted, ← List.append_assoc,
    List.filter_append, List.filter_singleton, decide_eq_true htype]
  rfl

/-- Any other drops it. -/
theorem posted_broadcast_dropped (hroom : o.hasRoom = false) (msg : Option (List UInt8))
    (len : Int) : (o.broadcast msg len).posted = o.posted := by
  rw [broadcast, posted, XLServingThread.put]
  split
  · rename_i hcreated
    have hfull : ¬ o.service.events.pending.length < o.service.events.maxSize := fun hfits => by
      rw [hasRoom, hcreated, decide_eq_true hfits] at hroom
      cases hroom
    dsimp only
    rw [(XLLFQ.push_full hfull _).2, posted]
  · rfl

end XLCService

namespace XLServer

variable {s s' : XLServer} {i j : Nat} {id : UInt64} {f : XLCService → XLCService}

/-! ### Rows and objects -/

theorem mem_keys {row : UInt64 × Nat} (h : row ∈ s.clientServices) : row.1 ∈ s.keys :=
  List.mem_map_of_mem h

theorem find_eq_none : s.find id = none ↔ id ∉ s.keys := by
  simp only [find, List.find?_eq_none, keys, List.mem_map, not_exists, not_and, decide_eq_true_eq]

theorem mem_of_find {row : UInt64 × Nat} (h : s.find id = some row) :
    row ∈ s.clientServices ∧ row.1 = id :=
  ⟨List.mem_of_find?_eq_some h, by simpa using List.find?_some h⟩

theorem find_isSome : (s.find id).isSome = true ↔ id ∈ s.keys := by
  rw [← not_iff_not, ← find_eq_none]
  simp

theorem isAlive_iff : s.isAlive i = true ↔ ∃ o, s.objects[i]? = some o ∧ o.deleted = false := by
  simp [isAlive, Option.any_eq_true]

theorem use_eq (h : s.isAlive i = true) (f : XLCService → XLCService) :
    s.use i f = { s with objects := s.objects.modify i f } := if_pos h

@[simp] theorem isAlive_modify (hf : ∀ o, (f o).deleted = o.deleted) :
    ({ s with objects := s.objects.modify i f } : XLServer).isAlive j = s.isAlive j := by
  unfold isAlive
  rw [List.getElem?_modify]
  cases s.objects[j]? with
  | none => rfl
  | some o => by_cases h : i = j <;> simp [h, hf]

/-- The same is done with several objects, one after the other. -/
theorem foldl_use {rows : List (UInt64 × Nat)} (hf : ∀ o, (f o).deleted = o.deleted)
    (hnodup : (rows.map Prod.snd).Nodup) (halive : ∀ row ∈ rows, s.isAlive row.2 = true) :
    ∃ objects, rows.foldl (fun s row => s.use row.2 f) s = { s with objects := objects } ∧
      ∀ i, objects[i]? = s.objects[i]?.map fun o => if i ∈ rows.map Prod.snd then f o else o := by
  induction rows generalizing s with
  | nil => exact ⟨s.objects, rfl, fun i => by simp⟩
  | cons row rest ih =>
      rw [List.map_cons, List.nodup_cons] at hnodup
      obtain ⟨objects, hfold, hobjects⟩ :=
        ih (s := { s with objects := s.objects.modify row.2 f }) hnodup.2 fun row' hrow' => by
          rw [isAlive_modify hf]
          exact halive row' (List.mem_cons_of_mem row hrow')
      refine ⟨objects, by rw [List.foldl_cons, use_eq (halive row List.mem_cons_self), hfold],
        fun i => ?_⟩
      rw [hobjects, List.getElem?_modify, List.map_cons]
      cases s.objects[i]? with
      | none => rfl
      | some o =>
          by_cases hi : row.2 = i
          · subst hi
            simp [hnodup.1]
          · simp only [Option.map_eq_map, Option.map_some, if_neg hi]
            refine congrArg some (if_congr ?_ rfl rfl)
            rw [List.mem_cons, or_iff_right (Ne.symm hi)]

/-! ### The map and the registry

The source keeps a row for a service that was stopped.  As long as nobody stops one, the rows and
the registry are the same.
-/

/-- Object `i` has not been deleted, and its queue takes another event. -/
def queueHasRoom (s : XLServer) (i : Nat) : Bool := s.objects[i]?.any XLCService.hasRoom

theorem hasRoom_of_queue {o : XLCService} (ho : s.objects[i]? = some o)
    (hroom : s.queueHasRoom i = true) : o.hasRoom = true := by
  rwa [queueHasRoom, ho] at hroom

/-- Each open id has its one service, which has taken or still has what the registry says. -/
structure Sound (s : XLServer) (r : Registry UInt64 XLThreadEvent) : Prop where
  nodup : s.keys.Nodup
  alive : ∀ row ∈ s.clientServices, ∃ o, s.objects[row.2]? = some o ∧ o.deleted = false ∧
    o.id = row.1 ∧ r row.1 = some o.posted
  closed : ∀ id, id ∉ s.keys → r id = none
  listed : ∀ (i : Nat) (o : XLCService), s.objects[i]? = some o → o.deleted = false →
    (o.id, i) ∈ s.clientServices
  fault : s.fault = false

namespace Sound

variable {r r' : Registry UInt64 XLThreadEvent} {row row' : UInt64 × Nat}

theorem start : Sound new Registry.empty where
  nodup := List.nodup_nil
  alive := by simp [new]
  closed := fun _ _ => rfl
  listed := by simp [new]
  fault := rfl

/-- One row for a key. -/
theorem row_eq (h : Sound s r) (hrow : row ∈ s.clientServices) (hrow' : row' ∈ s.clientServices)
    (hkey : row.1 = row'.1) : row = row' :=
  List.inj_on_of_nodup_map h.nodup hrow hrow' hkey

/-- One row for an object. -/
theorem place_eq (h : Sound s r) (hrow : row ∈ s.clientServices)
    (hrow' : row' ∈ s.clientServices) (hplace : row.2 = row'.2) : row = row' := by
  obtain ⟨o, ho, -, hid, -⟩ := h.alive row hrow
  obtain ⟨o', ho', -, hid', -⟩ := h.alive row' hrow'
  rw [hplace, ho', Option.some.injEq] at ho
  exact h.row_eq hrow hrow' (by rw [← hid, ← hid', ho])

theorem places_nodup (h : Sound s r) : (s.clientServices.map Prod.snd).Nodup :=
  List.Nodup.map_on (fun _ hrow _ hrow' hplace => h.place_eq hrow hrow' hplace)
    (List.Nodup.of_map Prod.fst h.nodup)

theorem isAlive (h : Sound s r) (hrow : row ∈ s.clientServices) : s.isAlive row.2 = true := by
  obtain ⟨o, ho, hd, -⟩ := h.alive row hrow
  exact isAlive_iff.mpr ⟨o, ho, hd⟩

/-- The objects go on, each by itself. -/
theorem update (h : Sound s r) (g : Nat → XLCService → XLCService)
    (hsame : ∀ i o, s.objects[i]? = some o → (g i o).id = o.id ∧ (g i o).deleted = o.deleted)
    (hobjects : ∀ i, s'.objects[i]? = s.objects[i]?.map (g i))
    (hclients : s'.clientServices = s.clientServices) (hfault : s'.fault = s.fault)
    (hposted : ∀ row ∈ s.clientServices, ∀ o, s.objects[row.2]? = some o →
      r row.1 = some o.posted → r' row.1 = some (g row.2 o).posted)
    (hclosed : ∀ id, id ∉ s.keys → r' id = none) : Sound s' r' where
  nodup := by
    rw [keys, hclients]
    exact h.nodup
  alive := by
    intro row hrow
    rw [hclients] at hrow
    obtain ⟨o, ho, hd, hkey, hr⟩ := h.alive row hrow
    obtain ⟨hid, hdeleted⟩ := hsame row.2 o ho
    refine ⟨g row.2 o, ?_, hdeleted.trans hd, hid.trans hkey, hposted row hrow o ho hr⟩
    rw [hobjects, ho]
    rfl
  closed := by
    rw [keys, hclients]
    exact hclosed
  listed := by
    intro i o' ho' hd'
    rw [hobjects, Option.map_eq_some_iff] at ho'
    obtain ⟨o, ho, rfl⟩ := ho'
    obtain ⟨hid, hdeleted⟩ := hsame i o ho
    rw [hclients, hid]
    exact h.listed i o ho (hdeleted.symm.trans hd')
  fault := hfault.trans h.fault

/-- A message to one service, whose queue has it. -/
theorem broadcastTo (h : Sound s r) (msg : Option (List UInt8)) (len : Int) (id : UInt64)
    (hroom : ∀ row ∈ s.clientServices, row.1 = id → s.queueHasRoom row.2 = true) :
    Sound (s.broadcastTo msg len id)
      (r.next (.post id (XLServingThread.broadcastEvent msg len))) := by
  unfold XLServer.broadcastTo
  split
  · rename_i key i hfind
    obtain ⟨hmem, rfl⟩ := mem_of_find hfind
    rw [use_eq (h.isAlive hmem)]
    refine h.update (fun j o => if i = j then o.broadcast msg len else o) (fun j o _ => ?_)
      (fun j => List.getElem?_modify ..) rfl rfl (fun row hrow o ho hr => ?_) fun id' hid' => ?_
    · split <;> exact ⟨rfl, rfl⟩
    · by_cases hplace : i = row.2
      · cases h.place_eq hmem hrow hplace
        rw [Registry.post_self, hr, if_pos rfl,
          XLCService.posted_broadcast (hasRoom_of_queue ho (hroom _ hmem rfl))]
        rfl
      · rw [if_neg hplace, Registry.post_of_ne fun hkey => hplace ?_, hr]
        rw [h.row_eq hrow hmem hkey]
    · rw [Registry.post_of_ne, h.closed id' hid']
      rintro rfl
      exact hid' (mem_keys hmem)
  · rename_i hfind
    rw [Registry.post_of_none (h.closed id (find_eq_none.mp hfind))]
    exact h

/-- A message to every service. -/
theorem broadcast (h : Sound s r) (msg : Option (List UInt8)) (len : Int)
    (hroom : ∀ row ∈ s.clientServices, s.queueHasRoom row.2 = true) :
    Sound (s.broadcast msg len)
      (r.next (.postAll (XLServingThread.broadcastEvent msg len))) := by
  obtain ⟨objects, hfold, hobjects⟩ := foldl_use (s := s) (f := .broadcast msg len)
    (fun _ => rfl) h.places_nodup fun row hrow => h.isAlive hrow
  rw [XLServer.broadcast, hfold]
  refine h.update
    (fun i o => if i ∈ s.clientServices.map Prod.snd then o.broadcast msg len else o)
    (fun i o _ => ?_) hobjects rfl rfl (fun row hrow o ho hr => ?_) fun id' hid' => ?_
  · split <;> exact ⟨rfl, rfl⟩
  · rw [Registry.postAll_apply, hr, if_pos (List.mem_map_of_mem hrow),
      XLCService.posted_broadcast (hasRoom_of_queue ho (hroom row hrow))]
    rfl
  · rw [Registry.postAll_apply, h.closed id' hid']
    rfl

/-- The threads of one service. -/
theorem service (h : Sound s r) {o o' : XLCService} (ho : s.objects[i]? = some o)
    {l : ServingStep} (hown : l.isOwn = true) (hl : o.next l = some o') :
    Sound { s with objects := s.objects.set i o' } r := by
  have hposted := XLCService.posted_next hown hl
  refine h.update (fun j a => if i = j then o' else a) (fun j a ha => ?_) (fun j => ?_) rfl rfl
    (fun row hrow a ha hr => ?_) h.closed
  · split
    · rename_i hij
      subst hij
      cases ho.symm.trans ha
      obtain ⟨service, -, rfl⟩ := Option.map_eq_some_iff.mp hl
      exact ⟨rfl, rfl⟩
    · exact ⟨rfl, rfl⟩
  · by_cases hij : i = j
    · subst hij
      simp [ho, List.getElem?_set_self (Calls.lt_of_getElem?_eq_some ho)]
    · simp [hij]
  · rw [hr]
    split
    · rename_i hij
      subst hij
      cases ho.symm.trans ha
      rw [hposted]
    · rfl

end Sound

/-- The service `StartAService` makes. -/
def startedService (id : UInt64) (created : Bool) (socket : Option UInt64) : XLCService :=
  { (XLCService.new id).start created socket with gate := XLSemaPhore.raise ⟨0, 1, true⟩ }

theorem modify_concat {α : Type} (l : List α) (a : α) (f : α → α) :
    (l ++ [a]).modify l.length f = l ++ [f a] := by
  induction l with
  | nil => rfl
  | cons b rest ih => simp [ih]

/-- `Take` does not have to wait. -/
theorem startAService_eq (hnew : id ∉ s.keys) (created : Bool) (socket : Option UInt64) :
    s.startAService id created socket = some
      { s with
        clientServices :=
          s.clientServices.orderedInsert (fun a b => a.1 ≤ b.1) (id, s.objects.length)
        objects := s.objects ++ [startedService id created socket] } := by
  have hinsert : ∀ objects i, XLServer.insert { s with objects := objects } id i = { s with
      clientServices := s.clientServices.orderedInsert (fun a b => a.1 ≤ b.1) (id, i)
      objects := objects } := by
    intro objects i
    rw [XLServer.insert, if_neg]
    show ¬ (s.find id).isSome = true
    rw [find_isSome]
    exact hnew
  simp only [startAService, hinsert]
  rw [use_eq (isAlive_iff.mpr ⟨_, List.getElem?_concat_length, rfl⟩)]
  have htake : ((XLCService.new id).start created socket).gate.take =
      some (XLSemaPhore.raise ⟨0, 1, true⟩) := rfl
  simp only [modify_concat, List.getElem?_concat_length, Option.bind_some, htake,
    Option.map_some]
  rw [use_eq (isAlive_iff.mpr ⟨_, List.getElem?_concat_length, rfl⟩)]
  simp only [modify_concat]
  rfl

variable {r : Registry UInt64 XLThreadEvent} {l : ServerStep}

/-- An address where there is no serving thread is not in the map. -/
theorem Sound.not_mem_keys (h : Sound s r) (hnew : s.isNew id = true) : id ∉ s.keys := by
  intro hmem
  obtain ⟨row, hrow, rfl⟩ := List.mem_map.mp hmem
  obtain ⟨o, ho, hd, hid, -⟩ := h.alive row hrow
  simp only [isNew, Bool.and_eq_true, List.all_eq_true] at hnew
  have := hnew.2 o (List.mem_of_getElem? ho)
  simp [hd, hid] at this

theorem Sound.startAService (h : Sound s r) (hnew : id ∉ s.keys) {created : Bool}
    {socket : Option UInt64} (hs : s.startAService id created socket = some s') :
    Sound s' (r.next (.opened id)) := by
  rw [startAService_eq hnew, Option.some.injEq] at hs
  subst hs
  have hperm := List.perm_orderedInsert (fun a b : UInt64 × Nat => a.1 ≤ b.1)
    (id, s.objects.length) s.clientServices
  have hlt : ∀ row ∈ s.clientServices, row.2 < s.objects.length := by
    intro row hrow
    obtain ⟨o, ho, -⟩ := h.alive row hrow
    exact Calls.lt_of_getElem?_eq_some ho
  refine ⟨?_, fun row hrow => ?_, fun id' hid' => ?_, fun i o ho hd => ?_, h.fault⟩
  · rw [keys, (hperm.map Prod.fst).nodup_iff, List.map_cons, List.nodup_cons]
    exact ⟨hnew, h.nodup⟩
  · rcases List.mem_cons.mp (hperm.mem_iff.mp hrow) with rfl | hold
    · refine ⟨_, List.getElem?_concat_length, rfl, rfl, Registry.opened_self.trans ?_⟩
      exact congrArg some (XLCService.posted_start id created socket).symm
    · obtain ⟨o, ho, hd, hid, hr⟩ := h.alive row hold
      refine ⟨o, by rw [List.getElem?_append_left (hlt row hold), ho], hd, hid, ?_⟩
      rw [Registry.opened_of_ne, hr]
      rintro hkey
      exact hnew (hkey ▸ mem_keys hold)
  · rw [keys, (hperm.map Prod.fst).mem_iff, List.map_cons, List.mem_cons, not_or] at hid'
    rw [Registry.opened_of_ne hid'.1]
    exact h.closed id' hid'.2
  · rw [hperm.mem_iff]
    rcases Calls.getElem?_concat ho with ⟨rfl, rfl⟩ | hold
    · exact List.mem_cons_self
    · exact List.mem_cons_of_mem _ (h.listed i o hold hd)

/-! ### Runs of the two together -/

/-- What a call means for the registry. -/
def op : ServerStep → Option (Registry.Op UInt64 XLThreadEvent)
  | .startAService id _ _ => some (.opened id)
  | .stopAService id => some (.closed id)
  | .broadcastTo msg len id => some (.post id (XLServingThread.broadcastEvent msg len))
  | .broadcast msg len => some (.postAll (XLServingThread.broadcastEvent msg len))
  | .service _ _ => none

/-- The server and the registry make the same step. -/
def nextBoth (p : XLServer × Registry UInt64 XLThreadEvent) (l : ServerStep) :
    Option (XLServer × Registry UInt64 XLThreadEvent) :=
  (p.1.next l).map fun s => (s, (op l).elim p.2 p.2.next)

/-- The map is the registry. -/
structure Consistent (p : XLServer × Registry UInt64 XLThreadEvent) : Prop where
  keys : ∀ id, id ∈ p.1.keys ↔ p.2.IsOpen id
  alive : ∀ row ∈ p.1.clientServices, ∃ o, p.1.objects[row.2]? = some o ∧ o.deleted = false ∧
    o.id = row.1
  /-- To stop a service that does not run changes nothing. -/
  stopUnknown : ∀ id, ¬ p.2.IsOpen id → p.1.stopAService id = p.1
  /-- What has been posted to each service that runs, and to no other. -/
  posted : ∀ (i : Nat) (o : XLCService), p.1.objects[i]? = some o → o.deleted = false →
    p.2 o.id = some o.posted
  fault : p.1.fault = false

/-- No service that is in the map is stopped, and a message finds room in the queue of each service
in the map that it is for. -/
def KeepsRegistry (p : XLServer × Registry UInt64 XLThreadEvent) : ServerStep → Prop
  | .stopAService id => id ∉ p.1.keys
  | .broadcastTo _ _ id => ∀ row ∈ p.1.clientServices, row.1 = id → p.1.queueHasRoom row.2 = true
  | .broadcast _ _ => ∀ row ∈ p.1.clientServices, p.1.queueHasRoom row.2 = true
  | .startAService _ _ _ | .service _ _ => True

instance (p : XLServer × Registry UInt64 XLThreadEvent) : ∀ l, Decidable (KeepsRegistry p l)
  | .stopAService id => inferInstanceAs (Decidable (id ∉ p.1.keys))
  | .broadcastTo _ _ id => inferInstanceAs
      (Decidable (∀ row ∈ p.1.clientServices, row.1 = id → p.1.queueHasRoom row.2 = true))
  | .broadcast _ _ => inferInstanceAs
      (Decidable (∀ row ∈ p.1.clientServices, p.1.queueHasRoom row.2 = true))
  | .startAService _ _ _ | .service _ _ => isTrue trivial

theorem stopAService_of_not_mem (h : id ∉ s.keys) : s.stopAService id = s := by
  rw [stopAService, find_eq_none.mpr h]

theorem Sound.isOpen_iff (h : Sound s r) : r.IsOpen id ↔ id ∈ s.keys := by
  constructor
  · intro hopen
    by_contra hno
    rw [Registry.IsOpen, h.closed id hno] at hopen
    cases hopen
  · intro hmem
    obtain ⟨row, hrow, rfl⟩ := List.mem_map.mp hmem
    obtain ⟨o, -, -, -, hr⟩ := h.alive row hrow
    rw [Registry.IsOpen, hr]
    rfl

theorem Sound.consistent (h : Sound s r) : Consistent (s, r) where
  keys := fun _ => h.isOpen_iff.symm
  alive := by
    intro row hrow
    obtain ⟨o, ho, hd, hid, -⟩ := h.alive row hrow
    exact ⟨o, ho, hd, hid⟩
  stopUnknown := fun id hno => stopAService_of_not_mem fun hmem => hno (h.isOpen_iff.mpr hmem)
  posted := by
    intro i o ho hd
    obtain ⟨o', ho', -, -, hr⟩ := h.alive _ (h.listed i o ho hd)
    cases ho.symm.trans ho'
    exact hr
  fault := h.fault

theorem Sound.step (h : Sound s r) (hQ : KeepsRegistry (s, r) l)
    {p' : XLServer × Registry UInt64 XLThreadEvent} (hp : nextBoth (s, r) l = some p') :
    Sound p'.1 p'.2 := by
  obtain ⟨s', hs', rfl⟩ := Option.map_eq_some_iff.mp hp
  cases l with
  | startAService id created socket =>
      simp only [next] at hs'
      split at hs'
      · rename_i hguard
        rw [Bool.and_eq_true] at hguard
        exact h.startAService (h.not_mem_keys hguard.1) hs'
      · cases hs'
  | stopAService id =>
      cases hs'
      show Sound (s.stopAService id) (r.next (.closed id))
      rw [stopAService_of_not_mem hQ, Registry.closed_of_none (h.closed id hQ)]
      exact h
  | broadcastTo msg len id =>
      cases hs'
      exact h.broadcastTo msg len id hQ
  | broadcast msg len =>
      cases hs'
      exact h.broadcast msg len hQ
  | service i sl =>
      simp only [next] at hs'
      split at hs'
      · rename_i o ho
        split at hs'
        · rename_i hguard
          obtain ⟨o', ho', rfl⟩ := Option.map_eq_some_iff.mp hs'
          exact h.service ho ((Bool.and_eq_true _ _).mp hguard).2 ho'
        · cases hs'
      · cases hs'

@[simp] theorem use_clientServices (s : XLServer) (i : Nat) (f : XLCService → XLCService) :
    (s.use i f).clientServices = s.clientServices := by
  unfold use
  split <;> rfl

/-- `StopAService` leaves the map as it is. -/
theorem stopAService_keys (s : XLServer) (id : UInt64) : (s.stopAService id).keys = s.keys := by
  unfold stopAService
  split
  · simp [keys]
  · rfl

/-- A stop of a service that runs leaves its key. -/
theorem inconsistent_of_stop {p' : XLServer × Registry UInt64 XLThreadEvent} (hmem : id ∈ s.keys)
    (hp : nextBoth (s, r) (.stopAService id) = some p') : ¬ Consistent p' := by
  cases hp
  intro hlaw
  have hmem' : id ∈ (s.stopAService id).keys := by
    rw [stopAService_keys]
    exact hmem
  have hopen : (r.next (.closed id)).IsOpen id := (hlaw.keys id).mp hmem'
  rw [Registry.IsOpen, Registry.closed_self] at hopen
  cases hopen

/-- A message that a queue drops is not posted, and the registry has it. -/
theorem Sound.not_consistent_of_drop (h : Sound s r) {row : UInt64 × Nat}
    (hrow : row ∈ s.clientServices) (hfull : ¬ s.queueHasRoom row.2 = true)
    {r' : Registry UInt64 XLThreadEvent} {msg : Option (List UInt8)} {len : Int}
    (hr' : r' row.1 = (r row.1).map (· ++ [XLServingThread.broadcastEvent msg len]))
    (hobject : ∀ o, s.objects[row.2]? = some o →
      s'.objects[row.2]? = some (o.broadcast msg len)) : ¬ Consistent (s', r') := by
  intro hlaw
  obtain ⟨o, ho, hd, hid, hr⟩ := h.alive row hrow
  have hdropped : o.hasRoom = false := by
    rw [queueHasRoom, ho] at hfull
    exact Bool.eq_false_iff.mpr hfull
  have hposted := hlaw.posted row.2 _ (hobject o ho) hd
  rw [XLCService.posted_broadcast_dropped hdropped] at hposted
  have hsame : some (o.posted ++ [XLServingThread.broadcastEvent msg len]) = some o.posted := by
    rw [← hposted]
    show _ = r' o.id
    rw [hid, hr', hr]
    rfl
  exact absurd (Option.some.inj hsame) (by simp)

theorem Sound.not_consistent (h : Sound s r) (hQ : ¬ KeepsRegistry (s, r) l)
    {p' : XLServer × Registry UInt64 XLThreadEvent} (hp : nextBoth (s, r) l = some p') :
    ¬ Consistent p' := by
  cases l with
  | startAService | service => exact absurd trivial hQ
  | stopAService id => exact inconsistent_of_stop (not_not.mp hQ) hp
  | broadcastTo msg len id =>
      cases hp
      simp only [KeepsRegistry, not_forall] at hQ
      obtain ⟨row, hrow, rfl, hfull⟩ := hQ
      refine h.not_consistent_of_drop hrow hfull Registry.post_self fun o ho => ?_
      obtain ⟨row', hfind⟩ := Option.isSome_iff_exists.mp (find_isSome.mpr (mem_keys hrow))
      obtain ⟨hmem, hkey⟩ := mem_of_find hfind
      cases h.row_eq hmem hrow hkey
      show (s.broadcastTo msg len row.1).objects[row.2]? = _
      rw [XLServer.broadcastTo, hfind]
      dsimp only
      rw [use_eq (h.isAlive hrow), List.getElem?_modify, ho]
      simp
  | broadcast msg len =>
      cases hp
      simp only [KeepsRegistry, not_forall] at hQ
      obtain ⟨row, hrow, hfull⟩ := hQ
      refine h.not_consistent_of_drop hrow hfull Registry.postAll_apply fun o ho => ?_
      obtain ⟨objects, hfold, hobjects⟩ := foldl_use (s := s) (f := .broadcast msg len)
        (fun _ => rfl) h.places_nodup fun row hrow => h.isAlive hrow
      show (s.broadcast msg len).objects[row.2]? = _
      rw [XLServer.broadcast, hfold, hobjects, ho, Option.map_some,
        if_pos (List.mem_map_of_mem hrow)]

/--
In every run of a server, and whatever its services do meanwhile, the map is the registry
throughout exactly if no `StopAService` names a service that is in the map and each message finds
room in the queue of every service it is for.
-/
theorem registry_consistent_iff {ls : List ServerStep}
    {p : XLServer × Registry UInt64 XLThreadEvent}
    (hrun : exec nextBoth (new, Registry.empty) ls = some p) :
    Throughout nextBoth Consistent (new, Registry.empty) ls ↔
      Along nextBoth KeepsRegistry (new, Registry.empty) ls :=
  throughout_iff_along (I := fun p => Sound p.1 p.2) (fun _ h => h.consistent)
    (fun _ _ _ h hQ hp => h.step hQ hp) (fun _ _ _ h hQ hp => h.not_consistent hQ hp)
    Sound.start hrun

/-- Two services, of which one gets a message to it and one to all; some other id is stopped. -/
def twoServices : List ServerStep :=
  [.startAService 64 true (some 16), .startAService 32 true (some 24), .service 0 .event,
    .stopAService 48, .broadcastTo (some [72, 105]) 2 64, .broadcast (some [33]) 1,
    .service 0 .event]

theorem registry_consistent_iff_two_services :
    Throughout nextBoth Consistent (new, Registry.empty) twoServices ∧
      ∃ p, exec nextBoth (new, Registry.empty) twoServices = some p ∧ p.1.keys = [32, 64] ∧
        p.2 64 = some [XLServingThread.broadcastEvent (some [72, 105]) 2,
          XLServingThread.broadcastEvent (some [33]) 1] := by
  obtain ⟨p, hp, hend⟩ := (Option.any_eq_true _ _).mp
    (show (exec nextBoth (new, Registry.empty) twoServices).any
      (fun p => p.1.keys = [32, 64] && p.2 64 =
        some [XLServingThread.broadcastEvent (some [72, 105]) 2,
          XLServingThread.broadcastEvent (some [33]) 1]) = true by decide)
  rw [Bool.and_eq_true, decide_eq_true_eq, decide_eq_true_eq] at hend
  exact ⟨(registry_consistent_iff hp).mpr (by decide), p, hp, hend.1, hend.2⟩

/-- A service is stopped: its row stays and leads to a deleted service.  When its memory is used
for the next one, that one is not in the map, and a message to it goes nowhere. -/
theorem stopped_service_stays :
    ∃ p p', exec nextBoth (new, Registry.empty)
        [.startAService 64 true (some 16), .stopAService 64] = some p ∧
      p.1.keys = [64] ∧ p.1.objects.map XLCService.deleted = [true] ∧ p.1.fault = true ∧
      ¬ Consistent p ∧
      exec nextBoth p [.startAService 64 true (some 16), .broadcastTo (some [33]) 1 64] = some p' ∧
      p'.1.objects.map XLCService.posted = [[], []] ∧ ¬ Consistent p' := by
  obtain ⟨p, hp, hend⟩ := (Option.any_eq_true _ _).mp
    (show (exec nextBoth (new, Registry.empty)
        [.startAService 64 true (some 16), .stopAService 64]).any (fun p => p.1.keys = [64] &&
          p.1.objects.map XLCService.deleted = [true] && p.1.fault &&
          (exec nextBoth p [.startAService 64 true (some 16), .broadcastTo (some [33]) 1 64]).any
            fun p' => p'.1.objects.map XLCService.posted = [[], []] && p'.1.fault) = true by decide)
  simp only [Bool.and_eq_true, decide_eq_true_eq] at hend
  obtain ⟨⟨⟨hkeys, hdeleted⟩, hfault⟩, hlater⟩ := hend
  obtain ⟨p', hp', hend'⟩ := (Option.any_eq_true _ _).mp hlater
  rw [Bool.and_eq_true, decide_eq_true_eq] at hend'
  exact ⟨p, p', hp, hkeys, hdeleted, hfault,
    fun hlaw => absurd (hlaw.fault.symm.trans hfault) (by decide), hp', hend'.1,
    fun hlaw => absurd (hlaw.fault.symm.trans hend'.2) (by decide)⟩

end XLServer

end ServClient
