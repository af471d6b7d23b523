/-
Who owns the sockets of a serving thread.

The counters keep up with the handles at every step (`Inv`): a null block is only ever
under `m_pSocket`, which no handle is copied from.  So a socket with one block is deleted
once, when its last handle goes.

What is not kept is one block a socket.  Two places make a second one: `XLAcceptorThread`
takes `m_pSocket` as a raw pointer, and so does `find` with the pointer out of a `USR_MSG`.
A run keeps one owner for a socket precisely if neither happens to it.
-/
import ServClient.ServingThread
import ServClient.Proofs.LockFreeQueue
import ServClient.Proofs.RefCount
import ServClient.Lib.Runs

namespace ServClient

open Runs

namespace PtrHeap

variable {T : Type} {h : PtrHeap T}

@[simp] theorem drop_adopted (h : PtrHeap T) (p : Option Nat) :
    (h.drop p).adopted = h.adopted := releaseData_adopted h p

@[simp] theorem dropAll_adopted (ps : List (Option Nat)) :
    ∀ h : PtrHeap T, (h.dropAll ps).adopted = h.adopted := by
  induction ps with
  | nil => intro h; rfl
  | cons p rest ih => intro h; exact (ih (h.drop p)).trans (drop_adopted h p)

/-- The handles besides the one in `pSocket` are to blocks with a payload. -/
structure Kept (h : PtrHeap T) (pSocket : Option Nat) (others : List (Option Nat)) : Prop where
  holds : h.Holds .delete (pSocket :: others)
  backed : ∀ b, some b ∈ others → ∃ d, h.adopted[b]? = some (some d)

namespace Kept

variable {pSocket p : Option Nat} {others others' : List (Option Nat)} {b : Nat}

theorem perm (hI : Kept h pSocket others) (hp : others.Perm others') : Kept h pSocket others' where
  holds := hI.holds.perm (hp.cons pSocket)
  backed := fun b hb => hI.backed b (hp.mem_iff.mpr hb)

theorem of_count (hI : Kept h pSocket others) (hcount : ∀ p, others'.count p = others.count p) :
    Kept h pSocket others' :=
  hI.perm (List.perm_iff_count.mpr fun p => (hcount p).symm)

theorem share (hI : Kept h pSocket others) (hp : p ∈ others) :
    Kept (h.share p) pSocket (p :: others) where
  holds := (hI.holds.share fun b hb => hb ▸ List.mem_cons_of_mem _ hp).perm (List.Perm.swap _ _ _)
  backed := by
    intro b hb
    rw [share_adopted]
    rcases List.mem_cons.mp hb with rfl | hold
    · exact hI.backed b hp
    · exact hI.backed b hold

theorem adopt (hI : Kept h pSocket others) (d : T) :
    Kept (h.adopt (some d)) pSocket (some h.counters.length :: others) where
  holds := (hI.holds.adopt (some d)).perm (List.Perm.swap _ _ _)
  backed := by
    intro b hb
    show ∃ e, (h.adopted ++ [some d])[b]? = some (some e)
    rcases List.mem_cons.mp hb with hnew | hold
    · cases hnew
      exact ⟨d, by rw [← hI.holds.sizes]; simp⟩
    · obtain ⟨e, he⟩ := hI.backed b hold
      exact ⟨e, by rw [List.getElem?_append_left (Calls.lt_of_getElem?_eq_some he), he]⟩

/-- A block under one of the other handles is not null. -/
theorem not_holdsNull (hI : Kept h pSocket others) (hb : some b ∈ others) : ¬ h.HoldsNull b := by
  rintro ⟨c, hc, hnull⟩
  obtain ⟨d, hd⟩ := hI.backed b hb
  rw [hI.holds.adopted b c hc, hnull] at hd
  cases hd

theorem drop (hI : Kept h pSocket (p :: others)) : Kept (h.drop p) pSocket others where
  holds := (hI.holds.perm (List.Perm.swap _ _ _)).releaseData fun b hb hnull =>
    absurd hnull (hI.not_holdsNull (hb ▸ List.mem_cons_self))
  backed := by
    intro b hb
    rw [drop_adopted]
    exact hI.backed b (List.mem_cons_of_mem _ hb)

theorem dropAll {ps : List (Option Nat)} :
    ∀ {h : PtrHeap T}, Kept h pSocket (ps ++ others) → Kept (h.dropAll ps) pSocket others := by
  induction ps with
  | nil => exact id
  | cons p rest ih => exact fun hI => ih hI.drop

/-- Empty handles do not matter. -/
theorem cons_none (hI : Kept h pSocket others) : Kept h pSocket (none :: others) where
  holds := hI.holds.cons_none.perm (List.Perm.swap _ _ _)
  backed := by
    intro b hb
    exact hI.backed b (by simpa using hb)

theorem dropSocket (hI : Kept h pSocket others) : Kept (h.drop pSocket) none others where
  holds := (hI.holds.releaseData fun b hb hnull hmem =>
    hI.not_holdsNull hmem hnull).cons_none
  backed := by
    intro b hb
    rw [drop_adopted]
    exact hI.backed b hb

theorem adoptSocket (hI : Kept h none others) (data : Option T) :
    Kept (h.adopt data) (some h.counters.length) others where
  holds := hI.holds.of_cons_none.adopt data
  backed := by
    intro b hb
    obtain ⟨d, hd⟩ := hI.backed b hb
    refine ⟨d, ?_⟩
    show (h.adopted ++ [data])[b]? = some (some d)
    rw [List.getElem?_append_left (Calls.lt_of_getElem?_eq_some hd), hd]

end Kept

end PtrHeap

namespace XLServingThread

variable {t t' : XLServingThread} {l : ServingStep} {d : UInt64} {p : Option Nat}
  {temps : List (Option Nat)}

/-! ### What one step can do -/

/-- The steps of a thread that has not been destroyed. -/
inductive Moves (t : XLServingThread) : ServingStep → XLServingThread → Prop
  | start {created socket} (hnew : socket.all t.isNew = true) :
      Moves t (.start created socket) (t.start created socket)
  | sendSelfEvent (e) : Moves t (.sendSelfEvent e) (t.put e)
  | accept {a} (ha : t.accepts a = true) : Moves t (.accept a) (t.acceptConnection a)
  | acceptSSL {a accepted} (ha : t.accepts a = true) :
      Moves t (.acceptSSL a accepted) (t.acceptSSLConnection a accepted)
  | event {q e} (he : t.nextEvent = some (q, e)) :
      Moves t .event ({ t with events := q }.onEvent e)
  | stop : Moves t .stop t.stop
  | destroy : Moves t .destroy t.destroy

theorem moves_of_next (hl : t.next l = some t') : Moves t l t' := by
  unfold next at hl
  split at hl
  · cases hl
  · cases l with
    | start created socket =>
        dsimp only at hl
        split at hl
        · rename_i hnew; cases hl; exact .start hnew
        · cases hl
    | sendSelfEvent e => cases hl; exact .sendSelfEvent e
    | accept a =>
        dsimp only at hl
        split at hl
        · rename_i ha; cases hl; exact .accept ha
        · cases hl
    | acceptSSL a accepted =>
        dsimp only at hl
        split at hl
        · rename_i ha; cases hl; exact .acceptSSL ha
        · cases hl
    | event =>
        obtain ⟨⟨q, e⟩, he, rfl⟩ := Option.map_eq_some_iff.mp hl
        exact .event he
    | stop => cases hl; exact .stop
    | destroy => cases hl; exact .destroy

/-! ### The handles and the heap

Every handle of the thread is on one list, with those of the call in progress.  The heap counts that
list.
-/

/-- The handles besides `m_pSocket`. -/
def others (t : XLServingThread) : List (Option Nat) :=
  t.clientIDs ++ t.incomingQueue.nodes ++ t.acceptorThread.toList

/-- `temps` are the parameters and local variables of the call in progress. -/
def Inv (temps : List (Option Nat)) (t : XLServingThread) : Prop :=
  t.heap.Kept t.pSocket (temps ++ t.others)

namespace Inv

theorem init (listener : Bool) : Inv [] (new listener) where
  holds := (PtrHeap.Holds.empty.cons_none.adopt none)
  backed := by simp [others, new, XLLFQ.new]

theorem put (h : Inv temps t) (e : XLThreadEvent) : Inv temps (t.put e) := by
  unfold XLServingThread.put
  split <;> exact h

theorem pushIncoming (h : Inv temps t) (hp : p ∈ temps) : Inv temps (t.pushIncoming p) := by
  have hnodes : ∀ a, (t.incomingQueue.nodes.take t.incomingQueue.head).count a +
      (t.incomingQueue.nodes.drop t.incomingQueue.head).count a =
        t.incomingQueue.nodes.count a := fun a => by
    rw [← List.count_append, List.take_append_drop]
  have hdropped : (t.heap.dropAll (t.incomingQueue.nodes.take t.incomingQueue.head)).Kept t.pSocket
      (temps ++ (t.clientIDs ++ t.incomingQueue.nodes.drop t.incomingQueue.head ++
        t.acceptorThread.toList)) := by
    refine PtrHeap.Kept.dropAll (h.of_count fun a => ?_)
    have := hnodes a
    simp only [others, List.count_append]
    omega
  unfold XLServingThread.pushIncoming XLLFQ.push
  dsimp only
  split
  · exact hdropped
  · refine (hdropped.share (List.mem_append_left _ hp)).of_count fun a => ?_
    simp only [others, List.count_append, List.count_cons, List.count_nil]
    omega

theorem onAccept (h : Inv temps t) (hp : p ∈ temps) : Inv temps (t.onAccept p) := by
  unfold XLServingThread.onAccept
  have hput := (h.pushIncoming hp).put (XLThreadEvent.new.setType acceptIncoming)
  dsimp only
  split
  · exact (hput.share (List.mem_append_left _ hp)).drop
  · exact hput

theorem acceptConnection (h : Inv [] t) (a : UInt64) : Inv [] (t.acceptConnection a) := by
  have hnew : Inv [some t.heap.counters.length] { t with heap := t.heap.adopt (some a) } :=
    h.adopt a
  exact (hnew.onAccept List.mem_cons_self).drop

theorem acceptSSLConnection (h : Inv [] t) (a : UInt64) (accepted : Bool) :
    Inv [] (t.acceptSSLConnection a accepted) := by
  have hnew : Inv [some t.heap.counters.length] { t with heap := t.heap.adopt (some a) } :=
    h.adopt a
  unfold XLServingThread.acceptSSLConnection
  cases accepted with
  | false => exact hnew.drop
  | true =>
      have hparam : Inv [some t.heap.counters.length, some t.heap.counters.length]
          { t with heap := (t.heap.adopt (some a)).share (some t.heap.counters.length) } :=
        hnew.share List.mem_cons_self
      exact ((hparam.onAccept List.mem_cons_self).drop).drop

theorem send (h : Inv temps t) (ps : List (Option Nat)) (e : XLThreadEvent) :
    Inv temps (t.send ps e) := h

theorem insert (h : Inv temps t) (hp : p ∈ temps) : Inv temps (t.insert p) := by
  unfold XLServingThread.insert
  split
  · exact h
  · refine (h.share (List.mem_append_left _ hp)).of_count fun a => ?_
    have hins := (List.perm_orderedInsert
      (fun a b => key t.heap a ≤ key t.heap b) p t.clientIDs).count_eq a
    simp only [others, List.count_append, List.count_cons] at hins ⊢
    omega

theorem popIncoming (h : Inv temps t) {q : XLLFQ (Option Nat)}
    (hpop : t.incomingQueue.pop = some (q, p)) :
    Inv (p :: temps) { t with heap := t.heap.share p, incomingQueue := q } := by
  obtain ⟨hnodes, hmem⟩ := XLLFQ.pop_nodes hpop
  have hp : p ∈ temps ++ t.others := by
    simp only [others, List.mem_append]
    exact Or.inr (Or.inl (Or.inr hmem))
  have hothers : XLServingThread.others { t with heap := t.heap.share p, incomingQueue := q } =
      t.others := by
    rw [others, others, hnodes]
  rw [Inv, hothers]
  exact h.share hp

theorem tOnEvent (h : Inv temps t) (e : XLThreadEvent) : Inv temps (t.tOnEvent e) := by
  unfold XLServingThread.tOnEvent
  split
  · split
    · rename_i socket hnone hsocket
      refine (h.adopt socket).of_count fun a => ?_
      simp only [others, hnone, List.count_append, List.count_cons, List.count_nil,
        Option.toList_some, Option.toList_none]
      omega
    · exact h
  · split
    · split
      · split
        · rename_i q id hpop
          have hid := h.popIncoming hpop
          dsimp only
          split
          · exact ((hid.insert List.mem_cons_self).send [id] e).drop
          · exact hid.drop
        · exact h
      · exact h
    · split
      · split
        · exact h.send _ e
        · exact h
      · split
        · exact h.send _ e
        · split
          · split
            · rename_i id _
              exact (h.adopt id).drop
            · exact h
          · exact h

theorem start (h : Inv [] t) (created : Bool) (socket : Option UInt64) :
    Inv [] (t.start created socket) := by
  unfold XLServingThread.start
  split
  · exact h
  · split
    · dsimp only
      split
      · apply Inv.put
        exact h.dropSocket.adoptSocket socket
      · exact h
    · exact h

theorem stop (h : Inv [] t) : Inv [] t.stop := by
  unfold XLServingThread.stop
  split
  · dsimp only
    split
    · rename_i p hp
      apply Inv.put
      refine PtrHeap.Kept.drop (h.of_count fun a => ?_)
      simp only [others, hp, List.count_append, List.count_cons, List.count_nil,
        Option.toList_some, Option.toList_none, List.nil_append]
      omega
    · exact h.put _
  · exact h

theorem destroy (h : Inv [] t) : Inv [] t.destroy := by
  unfold XLServingThread.destroy
  have hmembers : (t.heap.dropAll (t.incomingQueue.nodes ++ t.clientIDs)).Kept t.pSocket
      t.acceptorThread.toList := by
    refine PtrHeap.Kept.dropAll (h.of_count fun a => ?_)
    simp only [others, List.count_append, List.nil_append]
    omega
  have hdrop : t.heap.dropAll (t.incomingQueue.nodes ++ t.clientIDs ++ [t.pSocket]) =
      (t.heap.dropAll (t.incomingQueue.nodes ++ t.clientIDs)).drop t.pSocket := by
    simp [PtrHeap.dropAll]
  have hnodes : XLServingThread.others { t with
      heap := (t.heap.dropAll (t.incomingQueue.nodes ++ t.clientIDs)).drop t.pSocket
      incomingQueue := XLLFQ.new
      clientIDs := []
      pSocket := none
      created := false
      destroyed := true } = none :: t.acceptorThread.toList := rfl
  rw [hdrop, Inv, hnodes]
  exact hmembers.dropSocket.cons_none

theorem next (h : Inv [] t) (hl : t.next l = some t') : Inv [] t' := by
  cases moves_of_next hl with
  | @start created socket hnew => exact h.start created socket
  | sendSelfEvent e => exact h.put e
  | @accept a ha => exact h.acceptConnection a
  | @acceptSSL a accepted ha => exact h.acceptSSLConnection a accepted
  | @event q e he =>
      have hq : Inv [] { t with events := q } := h
      unfold XLServingThread.onEvent
      split
      · exact hq
      · exact hq.tOnEvent e
  | stop => exact h.stop
  | destroy => exact h.destroy

end Inv

/-! ### The blocks a step makes -/

/-- The raw pointers that handling an event makes blocks for. -/
def eventAdopts (t : XLServingThread) (e : XLThreadEvent) : List (Option UInt64) :=
  if e.iType = startThread then
    match t.acceptorThread, t.heap.getData t.pSocket with
    | none, some socket => [some socket]
    | _, _ => []
  else if e.iType = usrMsg then (usrMsgID e).toList.map some
  else []

/-- The sockets that a step makes counters for. -/
def adopts (t : XLServingThread) : ServingStep → List (Option UInt64)
  | .start created socket =>
      if !t.created && created && (t.heap.getData t.pSocket).isNone then [socket] else []
  | .accept clientSock | .acceptSSL clientSock _ => [some clientSock]
  | .event => (t.nextEvent.map fun r => t.eventAdopts r.2).getD []
  | _ => []

@[simp] theorem put_heap (t : XLServingThread) (e : XLThreadEvent) : (t.put e).heap = t.heap := by
  unfold put
  split <;> rfl

@[simp] theorem pushIncoming_adopted (t : XLServingThread) (p : Option Nat) :
    (t.pushIncoming p).heap.adopted = t.heap.adopted := by
  unfold pushIncoming
  dsimp only
  split <;> simp

@[simp] theorem onAccept_adopted (t : XLServingThread) (p : Option Nat) :
    (t.onAccept p).heap.adopted = t.heap.adopted := by
  unfold onAccept
  dsimp only
  split <;> simp

@[simp] theorem insert_adopted (t : XLServingThread) (p : Option Nat) :
    (t.insert p).heap.adopted = t.heap.adopted := by
  unfold insert
  split <;> simp

theorem acceptConnection_adopted (t : XLServingThread) (a : UInt64) :
    (t.acceptConnection a).heap.adopted = t.heap.adopted ++ [some a] := by
  simp [acceptConnection, PtrHeap.adopt]

theorem acceptSSLConnection_adopted (t : XLServingThread) (a : UInt64) (accepted : Bool) :
    (t.acceptSSLConnection a accepted).heap.adopted = t.heap.adopted ++ [some a] := by
  unfold acceptSSLConnection
  cases accepted <;> simp [PtrHeap.adopt]

theorem start_adopted (t : XLServingThread) (created : Bool) (socket : Option UInt64) :
    (t.start created socket).heap.adopted = t.heap.adopted ++ t.adopts (.start created socket) := by
  unfold start adopts
  dsimp only
  split
  · rename_i h
    simp [h]
  · rename_i h
    split
    · rename_i hcreated
      split
      · rename_i hnull
        simp [h, hcreated, hnull, PtrHeap.adopt]
      · rename_i hsome
        simp [hsome]
    · rename_i hcreated
      simp [hcreated]

theorem tOnEvent_adopted (t : XLServingThread) (e : XLThreadEvent) :
    (t.tOnEvent e).heap.adopted = t.heap.adopted ++ t.eventAdopts e := by
  unfold tOnEvent eventAdopts
  by_cases hstart : e.iType = startThread
  · rw [if_pos hstart, if_pos hstart]
    cases t.acceptorThread with
    | none => cases t.heap.getData t.pSocket <;> simp [PtrHeap.adopt]
    | some _ => simp
  · rw [if_neg hstart, if_neg hstart]
    by_cases hmsg : e.iType = usrMsg
    · rw [if_pos hmsg, if_neg (by rw [hmsg]; decide), if_neg (by rw [hmsg]; decide),
        if_neg (by rw [hmsg]; decide), if_pos hmsg]
      cases usrMsgID e with
      | none => simp
      | some id => simp [send, PtrHeap.adopt]
    · rw [if_neg hmsg, if_neg hmsg, List.append_nil]
      split
      · split
        · split
          · dsimp only
            split <;> simp [send]
          · rfl
        · rfl
      · split
        · split <;> rfl
        · split <;> rfl

theorem next_adopted (hl : t.next l = some t') :
    t'.heap.adopted = t.heap.adopted ++ t.adopts l := by
  cases moves_of_next hl with
  | @start created socket hnew => exact start_adopted t created socket
  | sendSelfEvent e => simp [adopts]
  | @accept a ha => exact acceptConnection_adopted t a
  | @acceptSSL a accepted ha => exact acceptSSLConnection_adopted t a accepted
  | @event q e he =>
      simp only [adopts, he, Option.map_some, Option.getD_some]
      unfold onEvent
      split
      · rename_i hexit
        simp [eventAdopts, hexit, eventThreadEventTypeExit, startThread, usrMsg, usrMsgBdcst,
          lifeBeat, acceptIncoming, eventThreadEventTypeMax]
      · exact tOnEvent_adopted _ e
  | stop =>
      unfold stop
      simp only [adopts, List.append_nil]
      split
      · split <;> simp
      · rfl
  | destroy => simp [destroy, adopts]

/-! ### One owner

A raw pointer that is made into a handle gets a block of its own.  Two steps do that for a socket
that has one already, and these are the two that the condition excludes.
-/

/-- Socket `d` has at most one block, and is not deleted while a handle to it is held, nor twice. -/
structure OneOwner (d : UInt64) (t : XLServingThread) : Prop where
  one : ∀ b b', t.heap.getData (some b) = some d → t.heap.getData (some b') = some d → b = b'
  once : t.heap.timesDeleted d ≤ 1
  held : ∀ p ∈ t.held, t.heap.getData p = some d → t.heap.timesDeleted d = 0

/-- The event handled does not start an acceptor on `d`, nor is it a `USR_MSG` with the address
of `d` when `d` has had a block. -/
def KeepsOwner (d : UInt64) (t : XLServingThread) (l : ServingStep) : Prop :=
  l = .event → ∀ q e, t.nextEvent = some (q, e) →
    (e.iType = startThread → t.acceptorThread = none → t.heap.getData t.pSocket ≠ some d) ∧
    (e.iType = usrMsg → usrMsgID e = some d → some d ∉ t.heap.adopted)

/-- The socket has one counter, and the counters are in order. -/
structure Owned (d : UInt64) (t : XLServingThread) : Prop where
  inv : Inv [] t
  one : t.heap.adopted.count (some d) ≤ 1

namespace Owned

theorem oneOwner (h : Owned d t) : t.OneOwner d where
  one := fun _ _ hb hb' => Calls.eq_of_count_le_one h.one (h.inv.holds.adopted_of_getData hb)
    (h.inv.holds.adopted_of_getData hb')
  once := h.inv.holds.timesDeleted_le_one h.one
  held := by
    intro p hp hd
    cases p with
    | none => cases hd
    | some b =>
        have hpos : 0 < t.held.count (some b) := List.count_pos_iff.mpr hp
        rw [h.inv.holds.timesDeleted_eq h.one (h.inv.holds.adopted_of_getData hd)]
        exact if_neg (Nat.ne_of_gt hpos)

theorem init (listener : Bool) (d : UInt64) : Owned d (new listener) where
  inv := Inv.init listener
  one := by simp [new, PtrHeap.adopt, PtrHeap.empty]

/-- A step makes one block at most. -/
theorem adopts_count (t : XLServingThread) (l : ServingStep) : (t.adopts l).count (some d) ≤ 1 := by
  have hevent : ∀ e, (t.eventAdopts e).length ≤ 1 := by
    intro e
    unfold eventAdopts
    split
    · split <;> simp
    · split
      · cases usrMsgID e <;> simp
      · simp
  refine Nat.le_trans List.count_le_length ?_
  unfold adopts
  cases l with
  | start created socket => dsimp only; split <;> simp
  | accept | acceptSSL => exact Nat.le_refl 1
  | sendSelfEvent | stop | destroy => exact Nat.zero_le 1
  | event =>
      cases t.nextEvent with
      | none => exact Nat.zero_le 1
      | some r => exact hevent r.2

theorem not_mem_of_isNew (h : t.isNew d = true) : some d ∉ t.heap.adopted := by
  unfold isNew at h
  simp only [ne_eq, decide_not, Bool.and_eq_true, Bool.not_eq_true', decide_eq_false_iff_not] at h
  exact h.2

/-- It is not for `d` if there has been one. -/
theorem adopts_fresh (hl : t.next l = some t') (hkeep : t.KeepsOwner d l)
    (hd : some d ∈ t.adopts l) : some d ∉ t.heap.adopted := by
  cases moves_of_next hl with
  | start hnew =>
      simp only [adopts] at hd
      split at hd
      · rw [List.mem_singleton] at hd
        subst hd
        exact not_mem_of_isNew hnew
      · cases hd
  | accept ha | acceptSSL ha =>
      cases List.mem_singleton.mp hd
      exact not_mem_of_isNew ((Bool.and_eq_true _ _).mp ha).2
  | sendSelfEvent | stop | destroy => cases hd
  | @event q e he =>
      obtain ⟨hstart, hmsg⟩ := hkeep rfl q e he
      simp only [adopts, he, Option.map_some, Option.getD_some, eventAdopts] at hd
      split at hd
      · rename_i htype
        split at hd
        · rename_i socket hnone hsocket
          cases List.mem_singleton.mp hd
          exact absurd hsocket (hstart htype hnone)
        · cases hd
      · split at hd
        · rename_i htype
          obtain ⟨id, hid, heq⟩ := List.mem_map.mp hd
          cases heq
          exact hmsg htype (Option.mem_toList.mp hid)
        · cases hd

theorem next (h : Owned d t) (hkeep : t.KeepsOwner d l) (hl : t.next l = some t') :
    Owned d t' where
  inv := h.inv.next hl
  one := by
    have honce := adopts_count (d := d) t l
    have hold := h.one
    rw [next_adopted hl, List.count_append]
    by_cases hd : some d ∈ t.adopts l
    · have := List.count_eq_zero.mpr (adopts_fresh hl hkeep hd)
      omega
    · have := List.count_eq_zero.mpr hd
      omega

/-- An acceptor started on `d` has a block of its own for it. -/
theorem breaks_start {e : XLThreadEvent} (htype : e.iType = startThread)
    (hnone : t.acceptorThread = none) (hd : t.heap.getData t.pSocket = some d) :
    ¬ (t.onEvent e).OneOwner d := by
  have hevent : (t.onEvent e) =
      { t with
        heap := t.heap.adopt (some d)
        acceptorThread := some (some t.heap.counters.length) } := by
    rw [onEvent, if_neg (by rw [htype]; decide), tOnEvent, if_pos htype]
    simp only [hnone, hd]
  rw [hevent]
  intro hone
  cases hp : t.pSocket with
  | none =>
      rw [hp] at hd
      cases hd
  | some b =>
      rw [hp] at hd
      obtain ⟨c, hc, hcd⟩ := PtrHeap.Counted.getData_eq_some.mp hd
      have hlt := Calls.lt_of_getElem?_eq_some hc
      have hsame := hone.one b t.heap.counters.length
        (PtrHeap.Counted.getData_eq_some.mpr
          ⟨c, (List.getElem?_append_left hlt).trans hc, hcd⟩)
        (PtrHeap.Counted.getData_eq_some.mpr ⟨.new (some d), by simp [PtrHeap.adopt], by simp⟩)
      omega

/-- Looking up the address of `d` deletes the socket. -/
theorem breaks_usrMsg (h : Owned d t) {e : XLThreadEvent} (htype : e.iType = usrMsg)
    (hid : usrMsgID e = some d) (hmem : some d ∈ t.heap.adopted) :
    ¬ (t.onEvent e).OneOwner d := by
  have hevent : (t.onEvent e).heap = (t.heap.adopt (some d)).drop (some t.heap.counters.length) ∧
      (t.onEvent e).held = t.held := by
    rw [onEvent, if_neg (by rw [htype]; decide), tOnEvent, if_neg (by rw [htype]; decide),
      if_neg (by rw [htype]; decide), if_neg (by rw [htype]; decide),
      if_neg (by rw [htype]; decide), if_pos htype, hid]
    exact ⟨rfl, rfl⟩
  rw [PtrHeap.drop, PtrHeap.releaseData, PtrHeap.adopt_release] at hevent
  have htimes : (t.onEvent e).heap.timesDeleted d = t.heap.timesDeleted d + 1 := by
    rw [hevent.1]
    simp [PtrHeap.timesDeleted]
  intro hone
  obtain ⟨b, hb⟩ := List.getElem?_of_mem hmem
  have hbefore : t.heap.timesDeleted d = if t.held.count (some b) = 0 then 1 else 0 :=
    h.inv.holds.timesDeleted_eq h.one hb
  by_cases hheld : t.held.count (some b) = 0
  · have := hone.once
    rw [if_pos hheld] at hbefore
    omega
  · obtain ⟨c, hc⟩ := h.inv.holds.standing (List.count_pos_iff.mp (Nat.pos_of_ne_zero hheld))
    have hcd : c.pData = some d := by
      have := h.inv.holds.adopted b c hc
      rw [hb] at this
      exact (Option.some.inj this).symm
    have := hone.held (some b)
      (by rw [hevent.2]; exact List.count_pos_iff.mp (Nat.pos_of_ne_zero hheld))
      (PtrHeap.Counted.getData_eq_some.mpr ⟨c, by
        rw [hevent.1]
        exact (List.getElem?_append_left (Calls.lt_of_getElem?_eq_some hc)).trans hc, hcd⟩)
    omega

theorem breaks (h : Owned d t) (hkeep : ¬ t.KeepsOwner d l) (hl : t.next l = some t') :
    ¬ t'.OneOwner d := by
  simp only [KeepsOwner, not_forall] at hkeep
  obtain ⟨rfl, q, e, hnext, hmiss⟩ := hkeep
  have ht' : t' = { t with events := q }.onEvent e := by
    cases moves_of_next hl with
    | event he =>
        cases hnext.symm.trans he
        rfl
  have hq : Owned d { t with events := q } := { inv := h.inv, one := h.one }
  rw [ht']
  by_cases hstart :
      e.iType = startThread → t.acceptorThread = none → t.heap.getData t.pSocket ≠ some d
  · have hmsg : ¬ (e.iType = usrMsg → usrMsgID e = some d → some d ∉ t.heap.adopted) :=
      fun hm => hmiss ⟨hstart, hm⟩
    simp only [not_forall, not_not] at hmsg
    obtain ⟨htype, hid, hmem⟩ := hmsg
    exact hq.breaks_usrMsg htype hid hmem
  · simp only [not_forall, not_not] at hstart
    obtain ⟨htype, hnone, hd⟩ := hstart
    exact breaks_start htype hnone hd

end Owned

/--
A socket keeps one owner throughout a run precisely when no step of the run starts an acceptor
on it or looks up its address for a `USR_MSG`.
-/
theorem one_owner_iff {listener : Bool} {steps : List ServingStep}
    (hrun : exec XLServingThread.next (new listener) steps = some t) (d : UInt64) :
    Throughout XLServingThread.next (OneOwner d) (new listener) steps ↔
      Along XLServingThread.next (KeepsOwner d) (new listener) steps :=
  throughout_iff_along (I := Owned d) (fun _ => Owned.oneOwner)
    (fun _ _ _ h hkeep hl => h.next hkeep hl) (fun _ _ _ h hkeep hl => h.breaks hkeep hl)
    (Owned.init listener d) hrun

/-- A client is accepted, and the server stopped before the loop has seen it. -/
theorem one_owner_iff_client :
    Throughout XLServingThread.next (OneOwner 32) (new true)
      [.start true (some 16), .event, .accept 32, .stop, .destroy] := by
  obtain ⟨t, ht⟩ := Option.isSome_iff_exists.mp (show (exec XLServingThread.next (new true)
    [.start true (some 16), .event, .accept 32, .stop, .destroy]).isSome = true by decide)
  refine (one_owner_iff ht 32).mpr ⟨nofun, fun t₁ h₁ => ⟨fun _ q e he => ?_, fun _ _ => ⟨nofun,
    fun _ _ => ⟨nofun, fun _ _ => ⟨nofun, fun _ _ => trivial⟩⟩⟩⟩⟩
  -- The event is the one `Start` posted, and the acceptor is for the socket at 16.
  cases h₁
  cases he
  exact ⟨fun _ _ => by decide, nofun⟩

/-- `Start`, and the event it posts: two blocks for the listening socket.  `Stop` deletes it,
and `m_pSocket` still points to it. -/
theorem acceptor_owns_too :
    ∃ t t', exec XLServingThread.next (new false) [.start true (some 16), .event] = some t ∧
      ¬ t.OneOwner 16 ∧ t.next .stop = some t' ∧ t'.heap.timesDeleted 16 = 1 ∧
      t'.heap.getData t'.pSocket = some 16 := by
  refine ⟨_, _, rfl, fun hone => ?_, rfl, rfl, rfl⟩
  exact absurd (hone.one 1 2 rfl rfl) (by decide)

end XLServingThread

end ServClient
