/-
The clients of a serving thread and the sockets that wait to become clients.

No two of them are handles of one socket, and the handle of each keeps its block, so what
`GetData` gives is the socket the block was made for (`madeFor`), whatever happens to the
rest of the heap.  An accepted socket is therefore never taken for a client there is
already, and each event has one of three effects (`Handled`): none that shows, a new
client with one frame to it, or one frame to each client.
-/
import ServClient.ServingRun
import ServClient.Proofs.ServingThread

namespace ServClient

namespace PtrHeap

variable {T : Type} {h h' : PtrHeap T} {p : Option Nat}

/-- The payload the block of a handle was made for. -/
def madeFor (h : PtrHeap T) (p : Option Nat) : Option T := p.bind fun b => h.adopted[b]?.join

theorem madeFor_congr (ha : h'.adopted = h.adopted) : h'.madeFor = h.madeFor := by
  funext p
  rw [madeFor, madeFor, ha]

theorem prefix_of_eq (ha : h'.adopted = h.adopted) : h.adopted <+: h'.adopted :=
  ⟨[], by rw [List.append_nil, ha]⟩

/-- It does not change. -/
theorem madeFor_of_prefix {d : T} (ha : h.adopted <+: h'.adopted) (hp : h.madeFor p = some d) :
    h'.madeFor p = some d := by
  obtain ⟨rest, hrest⟩ := ha
  cases p with
  | none => cases hp
  | some b =>
      rw [madeFor, Option.bind_some, Option.join_eq_some_iff] at hp ⊢
      rw [← hrest, List.getElem?_append_left (Calls.lt_of_getElem?_eq_some hp), hp]

theorem mem_adopted_of_madeFor {d : T} (hp : h.madeFor p = some d) : some d ∈ h.adopted := by
  cases p with
  | none => cases hp
  | some b => exact List.mem_of_getElem? (Option.join_eq_some_iff.mp hp)

/-- A handle that is there keeps its block. -/
theorem Holds.getData {form : DeleteForm} {held : List (Option Nat)} (hI : h.Holds form held)
    (hp : p ∈ held) : h.getData p = h.madeFor p := by
  cases p with
  | none => rfl
  | some b =>
      obtain ⟨c, hc⟩ := hI.standing hp
      rw [madeFor, Option.bind_some, hI.adopted b c hc, PtrHeap.getData, hc]
      rfl

end PtrHeap

namespace XLServingThread

variable {t t' : XLServingThread} {temps temps' : List (Option Nat)} {p : Option Nat}
  {e : XLThreadEvent}

/-- The handles of clients and of sockets that wait. -/
def rows (t : XLServingThread) : List (Option Nat) := t.clientIDs ++ t.incomingQueue.pending

theorem Inv.getData (h : Inv temps t) (hp : p ∈ t.pSocket :: (temps ++ t.others)) :
    t.heap.getData p = t.heap.madeFor p := h.holds.getData hp

/-- A socket is there as long as a handle leads to its one block. -/
theorem Inv.socketAt (h : Inv temps t) (hp : p ∈ t.pSocket :: (temps ++ t.others)) {a : UInt64}
    (ha : t.heap.madeFor p = some a) (hone : t.heap.adopted.count (some a) ≤ 1) :
    socketAt t.heap p = some a := by
  rw [XLServingThread.socketAt, h.getData hp, ha, Option.filter_some, if_pos]
  rw [decide_eq_true_eq]
  cases p with
  | none => cases ha
  | some b =>
      have hb : t.heap.adopted[b]? = some (some a) := Option.join_eq_some_iff.mp ha
      have hheld : 0 < (t.pSocket :: (temps ++ t.others)).count (some b) :=
        List.count_pos_iff.mpr hp
      rw [h.holds.timesDeleted_eq hone hb, if_neg (Nat.ne_of_gt hheld)]

theorem mem_held_of_rows (temps : List (Option Nat)) (hp : p ∈ t.rows) :
    p ∈ t.pSocket :: (temps ++ t.others) := by
  have hmem : p ∈ t.clientIDs ∨ p ∈ t.incomingQueue.nodes :=
    (List.mem_append.mp hp).imp_right List.mem_of_mem_drop
  simp only [others, List.mem_cons, List.mem_append]
  tauto

/-- Every client is there under one name, and nothing has gone wrong. -/
structure Roster (temps : List (Option Nat)) (t : XLServingThread) : Prop where
  inv : Inv temps t
  named : ∀ p ∈ t.rows, p ≠ none
  distinct : (t.rows.map t.heap.madeFor).Nodup
  /-- No other block has been made for the socket of one of them. -/
  single : ∀ p ∈ t.rows, ∀ a, t.heap.madeFor p = some a → t.heap.adopted.count (some a) ≤ 1
  sound : t.fault = false
  socketed : t.acceptorThread.isSome = true → (t.heap.madeFor t.pSocket).isSome = true
  populated : t.acceptorThread = none → t.rows = []

namespace Roster

theorem init (listener : Bool) : Roster [] (new listener) where
  inv := Inv.init listener
  named := by simp [rows, new, XLLFQ.new, XLLFQ.pending]
  distinct := by simp [rows, new, XLLFQ.new, XLLFQ.pending]
  single := by simp [rows, new, XLLFQ.new, XLLFQ.pending]
  sound := rfl
  socketed := by simp [new]
  populated := by simp [rows, new, XLLFQ.new, XLLFQ.pending]

theorem getData (h : Roster temps t) (hp : p ∈ t.rows) : t.heap.getData p = t.heap.madeFor p :=
  h.inv.getData (mem_held_of_rows temps hp)

/-- Each of them is the handle of a socket. -/
theorem socket (h : Roster temps t) (hp : p ∈ t.rows) : ∃ a, t.heap.madeFor p = some a := by
  cases p with
  | none => exact absurd rfl (h.named none hp)
  | some b =>
      have hothers : some b ∈ temps ++ t.others :=
        (List.mem_cons.mp (mem_held_of_rows temps hp)).elim
          (fun hsocket => by
            have hmem : some b ∈ t.clientIDs ∨ some b ∈ t.incomingQueue.nodes :=
              (List.mem_append.mp hp).imp_right List.mem_of_mem_drop
            simp only [others, List.mem_append]
            tauto) id
      obtain ⟨d, hd⟩ := h.inv.backed b hothers
      exact ⟨d, by rw [PtrHeap.madeFor, Option.bind_some, hd]; rfl⟩

theorem socketAt (h : Roster temps t) (hp : p ∈ t.rows) :
    socketAt t.heap p = t.heap.madeFor p := by
  obtain ⟨a, ha⟩ := h.socket hp
  rw [ha]
  exact h.inv.socketAt (mem_held_of_rows temps hp) ha (h.single p hp a ha)

/-- Nothing is adopted, so nothing more for their sockets. -/
theorem single_of_eq (h : Roster temps t) {adopted : List (Option UInt64)}
    (ha : adopted = t.heap.adopted) :
    ∀ p ∈ t.rows, ∀ a, t.heap.madeFor p = some a → adopted.count (some a) ≤ 1 := by
  rw [ha]
  exact h.single

/-- What is adopted is a socket that there has not been. -/
theorem single_of_isNew (h : Roster temps t) {d : UInt64} (hnew : t.isNew d = true) :
    ∀ p ∈ t.rows, ∀ a, t.heap.madeFor p = some a →
      (t.heap.adopted ++ [some d]).count (some a) ≤ 1 := by
  intro p hp a ha
  have hne : some d ≠ some a := by
    rintro hsame
    cases hsame
    exact Owned.not_mem_of_isNew hnew (PtrHeap.mem_adopted_of_madeFor ha)
  rw [List.count_append, List.count_singleton, if_neg (by simpa using hne), Nat.add_zero]
  exact h.single p hp a ha

/-- A step that does not touch the two lists. -/
theorem move (h : Roster temps t) (hinv : Inv temps' t')
    (hadopted : t.heap.adopted <+: t'.heap.adopted)
    (hsingle : ∀ p ∈ t.rows, ∀ a, t.heap.madeFor p = some a →
      t'.heap.adopted.count (some a) ≤ 1)
    (hsound : t'.fault = t.fault) (hrows : t'.rows.Perm t.rows)
    (hsocket : t'.acceptorThread.isSome = true → (t'.heap.madeFor t'.pSocket).isSome = true)
    (hacceptor : t'.acceptorThread = none → t.acceptorThread = none) : Roster temps' t' where
  inv := hinv
  named := fun p hp => h.named p (hrows.mem_iff.mp hp)
  distinct := by
    have hsame : t'.rows.map t'.heap.madeFor = t'.rows.map t.heap.madeFor :=
      List.map_congr_left fun p hp => by
        obtain ⟨a, ha⟩ := h.socket (hrows.mem_iff.mp hp)
        rw [ha, PtrHeap.madeFor_of_prefix hadopted ha]
    rw [hsame]
    exact (hrows.map t.heap.madeFor).nodup_iff.mpr h.distinct
  single := fun p hp a ha => by
    obtain ⟨b, hb⟩ := h.socket (hrows.mem_iff.mp hp)
    rw [PtrHeap.madeFor_of_prefix hadopted hb] at ha
    cases ha
    exact hsingle p (hrows.mem_iff.mp hp) _ hb
  sound := hsound.trans h.sound
  socketed := hsocket
  populated := fun hnone => by
    rw [h.populated (hacceptor hnone)] at hrows
    exact List.perm_nil.mp hrows

/-- A step of the threads' own handles. -/
theorem heap (h : Roster temps t) {heap : PtrHeap UInt64}
    (hinv : Inv temps' { t with heap := heap }) (hadopted : t.heap.adopted <+: heap.adopted)
    (hsingle : ∀ p ∈ t.rows, ∀ a, t.heap.madeFor p = some a → heap.adopted.count (some a) ≤ 1) :
    Roster temps' { t with heap := heap } := by
  refine h.move hinv hadopted hsingle rfl (List.Perm.refl _) (fun hacc => ?_) id
  obtain ⟨d, hd⟩ := Option.isSome_iff_exists.mp (h.socketed hacc)
  exact Option.isSome_iff_exists.mpr ⟨d, PtrHeap.madeFor_of_prefix hadopted hd⟩

/-- `Start` assigns `m_pSocket`. -/
theorem setSocket (h : Roster temps t) (hnull : t.heap.getData t.pSocket = none) (a : UInt64) :
    Roster temps (t.setSocket (some a)) := by
  have hnone : t.acceptorThread = none := by
    by_contra hacc
    have hsome := h.socketed (Option.ne_none_iff_isSome.mp hacc)
    rw [← h.inv.getData List.mem_cons_self, hnull] at hsome
    cases hsome
  have hrows := h.populated hnone
  have hrows' : (t.setSocket (some a)).rows = [] := hrows
  exact {
    inv := h.inv.dropSocket.adoptSocket (some a)
    named := by simp [hrows']
    distinct := by simp [hrows']
    single := by simp [hrows']
    sound := h.sound
    socketed := fun hacc => by
      rw [show (t.setSocket (some a)).acceptorThread = none from hnone] at hacc
      cases hacc
    populated := fun _ => hrows' }

/-- A socket is accepted and pushed; where there is no room it only stays in the acceptor's
handles. -/
theorem pushIncoming (h : Roster temps t) (hp : p ∈ temps) {a : UInt64}
    (hfor : t.heap.madeFor p = some a) (hnew : ∀ r ∈ t.rows, t.heap.madeFor r ≠ some a)
    (hone : t.heap.adopted.count (some a) ≤ 1)
    (hacc : t.acceptorThread.isSome = true) : Roster temps (t.pushIncoming p) := by
  have hinv := h.inv.pushIncoming hp
  have hadopted := pushIncoming_adopted t p
  have hmade := PtrHeap.madeFor_congr hadopted
  have hqueue : (t.pushIncoming p).incomingQueue = (t.incomingQueue.push p).1 := rfl
  by_cases hroom : t.incomingQueue.pending.length < t.incomingQueue.maxSize
  · have hrows : (t.pushIncoming p).rows = t.rows ++ [p] := by
      rw [rows, hqueue, (XLLFQ.push_room hroom p).2, rows, List.append_assoc]
      rfl
    exact {
      inv := hinv
      named := by
        rw [hrows]
        intro r hr
        rcases List.mem_append.mp hr with hold | hlast
        · exact h.named r hold
        · rw [List.mem_singleton.mp hlast]
          rintro rfl
          cases hfor
      distinct := by
        rw [hrows, hmade, List.map_append, List.nodup_append]
        refine ⟨h.distinct, by simp, ?_⟩
        rintro x hx y hy rfl
        obtain ⟨r, hr, rfl⟩ := List.mem_map.mp hx
        rw [List.map_singleton, List.mem_singleton, hfor] at hy
        exact hnew r hr hy
      single := by
        rw [hrows, hmade, hadopted]
        intro r hr b hb
        rcases List.mem_append.mp hr with hold | hlast
        · exact h.single r hold b hb
        · rw [List.mem_singleton.mp hlast, hfor] at hb
          cases hb
          exact hone
      sound := h.sound
      socketed := fun hacc' => by
        rw [hmade]
        exact h.socketed hacc'
      populated := fun hnone => by
        rw [show t.acceptorThread = none from hnone] at hacc
        cases hacc }
  · refine h.move hinv (PtrHeap.prefix_of_eq hadopted) (h.single_of_eq hadopted) rfl ?_
      (fun hacc' => ?_) id
    · rw [rows, hqueue, (XLLFQ.push_full hroom p).2]
      exact List.Perm.refl _
    · rw [hmade]
      exact h.socketed hacc'

/-- No handle in the lists is one of a new socket. -/
theorem fresh {a : UInt64} (hnew : t.isNew a = true) (r : Option Nat) :
    t.heap.madeFor r ≠ some a :=
  fun hr => Owned.not_mem_of_isNew hnew (PtrHeap.mem_adopted_of_madeFor hr)

/-- The block made for an accepted socket. -/
theorem adopt (h : Roster [] t) {a : UInt64} (hnew : t.isNew a = true) :
    Roster [some t.heap.counters.length] { t with heap := t.heap.adopt (some a) } :=
  h.heap (h.inv.adopt a) (List.prefix_append _ _) (h.single_of_isNew hnew)

theorem madeFor_adopt (h : Roster temps t) (a : UInt64) :
    (t.heap.adopt (some a)).madeFor (some t.heap.counters.length) = some a := by
  show ((t.heap.adopted ++ [some a])[t.heap.counters.length]?).join = some a
  rw [← h.inv.holds.sizes, List.getElem?_append_right (Nat.le_refl _), Nat.sub_self]
  rfl

/-- `OnAccept` up to the push. -/
theorem accept (h : Roster [] t) {a : UInt64} (ha : t.accepts a = true) (ssl : Bool) :
    Roster (if ssl then [some t.heap.counters.length, some t.heap.counters.length]
        else [some t.heap.counters.length])
      ({ t with heap := if ssl then (t.heap.adopt (some a)).share (some t.heap.counters.length)
          else t.heap.adopt (some a) }.pushIncoming (some t.heap.counters.length)) := by
  obtain ⟨hacc, hnew⟩ := (Bool.and_eq_true _ _).mp ha
  have hadopt := h.adopt hnew
  have hfor := h.madeFor_adopt a
  have hone : (t.heap.adopt (some a)).adopted.count (some a) ≤ 1 := by
    show (t.heap.adopted ++ [some a]).count (some a) ≤ 1
    rw [List.count_append, List.count_eq_zero.mpr (Owned.not_mem_of_isNew hnew)]
    simp
  have hothers : ∀ r ∈ t.rows, (t.heap.adopt (some a)).madeFor r ≠ some a := by
    intro r hr
    obtain ⟨d, hd⟩ := h.socket hr
    rw [PtrHeap.madeFor_of_prefix (List.prefix_append _ _) hd]
    intro hsame
    exact fresh hnew r (hd.trans hsame)
  cases ssl with
  | false => exact hadopt.pushIncoming List.mem_cons_self hfor hothers hone hacc
  | true =>
      have hshare : Roster [some t.heap.counters.length, some t.heap.counters.length]
          { t with heap := (t.heap.adopt (some a)).share (some t.heap.counters.length) } :=
        hadopt.heap (hadopt.inv.share (List.mem_append_left _ List.mem_cons_self))
          (PtrHeap.prefix_of_eq (PtrHeap.share_adopted _ _))
          (hadopt.single_of_eq (PtrHeap.share_adopted _ _))
      have hmade : ((t.heap.adopt (some a)).share (some t.heap.counters.length)).madeFor =
          (t.heap.adopt (some a)).madeFor := PtrHeap.madeFor_congr (PtrHeap.share_adopted _ _)
      exact hshare.pushIncoming List.mem_cons_self (by rw [hmade]; exact hfor)
        (by rw [hmade]; exact hothers) (by rw [PtrHeap.share_adopted]; exact hone) hacc

/-- A peer that is not accepted. -/
theorem reject (h : Roster [] t) {a : UInt64} (hnew : t.isNew a = true) :
    Roster [] { t with
      heap := (t.heap.adopt (some a)).drop (some t.heap.counters.length) } :=
  (h.adopt hnew).heap (h.adopt hnew).inv.drop (PtrHeap.prefix_of_eq (PtrHeap.drop_adopted _ _))
    ((h.adopt hnew).single_of_eq (PtrHeap.drop_adopted _ _))

/-- The acceptor's handles go. -/
theorem dropAll (h : Roster temps t) :
    Roster [] { t with heap := t.heap.dropAll temps } :=
  h.heap (PtrHeap.Kept.dropAll h.inv) (PtrHeap.prefix_of_eq (PtrHeap.dropAll_adopted _ _))
    (h.single_of_eq (PtrHeap.dropAll_adopted _ _))

/-- The listener's copy comes and goes. -/
theorem copy (h : Roster temps t) (hp : p ∈ temps) :
    Roster temps { t with heap := (t.heap.share p).drop p } :=
  h.heap (h.inv.share (List.mem_append_left _ hp)).drop
    (PtrHeap.prefix_of_eq (by rw [PtrHeap.drop_adopted, PtrHeap.share_adopted]))
    (h.single_of_eq (by rw [PtrHeap.drop_adopted, PtrHeap.share_adopted]))

end Roster

/-! ### What handling an event does

Handling an event that is no `USR_MSG` sends one frame to every client, or adds a client, or does
neither.  Everything about broadcasts follows from these three.
-/

/-- The events that go to every client. -/
def toAll (e : XLThreadEvent) : Bool := e.iType = lifeBeat || e.iType = usrMsgBdcst

/-- What handling an event other than a `USR_MSG` does to the clients, the sockets that wait and
the frames. -/
inductive Handled (t : XLServingThread) (e : XLThreadEvent) (t' : XLServingThread) : Prop
  /-- Nothing; an `ACCEPT_INCOMING` then found no socket. -/
  | quiet (htype : toAll e = false) (hsends : t'.sends = t.sends) (hsound : t'.fault = t.fault)
      (hclients : t'.clientIDs = t.clientIDs) (hqueue : t'.incomingQueue = t.incomingQueue)
      (hadopted : t.heap.adopted <+: t'.heap.adopted)
      (hnone : e.iType = acceptIncoming → t.incomingQueue.pending = [])
  /-- The socket that has waited longest is a client, and has the frame. -/
  | register (q : XLLFQ (Option Nat)) (p : Option Nat) (a : UInt64)
      (htype : e.iType = acceptIncoming) (hpop : t.incomingQueue.pop = some (q, p))
      (ha : t.heap.madeFor p = some a) (hsends : t'.sends = t.sends ++ [(a, frame e)])
      (hsound : t'.fault = t.fault) (hclients : t'.clientIDs.Perm (p :: t.clientIDs))
      (hqueue : t'.incomingQueue = q)
      (hadopted : t'.heap.adopted = t.heap.adopted)
  /-- Every client has the frame. -/
  | passOn (htype : toAll e = true) (heq : t' = t.send t.clientIDs e)

theorem insert_eq (t : XLServingThread) (p : Option Nat) :
    ∃ heap clientIDs, t.insert p = { t with heap := heap, clientIDs := clientIDs } := by
  unfold XLServingThread.insert
  split
  · exact ⟨_, _, rfl⟩
  · exact ⟨_, _, rfl⟩

/-- The rest of what an event leaves. -/
theorem tOnEvent_rest (t : XLServingThread) (e : XLThreadEvent) :
    (t.tOnEvent e).pSocket = t.pSocket ∧
      ((t.tOnEvent e).acceptorThread = t.acceptorThread ∨
        (t.heap.getData t.pSocket).isSome = true ∧ (t.tOnEvent e).acceptorThread ≠ none) := by
  unfold XLServingThread.tOnEvent
  split
  · split
    · rename_i hdata
      exact ⟨rfl, Or.inr ⟨by rw [hdata]; rfl, by simp⟩⟩
    · exact ⟨rfl, Or.inl rfl⟩
  · split
    · split
      · split
        · rename_i q id _
          obtain ⟨heap, clientIDs, hins⟩ := insert_eq
            { t with heap := t.heap.share id, incomingQueue := q } id
          dsimp only
          rw [hins]
          split <;> exact ⟨rfl, Or.inl rfl⟩
        · exact ⟨rfl, Or.inl rfl⟩
      · exact ⟨rfl, Or.inl rfl⟩
    · split
      · split <;> exact ⟨rfl, Or.inl rfl⟩
      · split
        · exact ⟨rfl, Or.inl rfl⟩
        · split
          · split <;> exact ⟨rfl, Or.inl rfl⟩
          · exact ⟨rfl, Or.inl rfl⟩

namespace Roster

/-- The socket that has waited longest is not a client's. -/
theorem pop (h : Roster temps t) {q : XLLFQ (Option Nat)}
    (hpop : t.incomingQueue.pop = some (q, p)) :
    p ∈ t.rows ∧ ∀ c ∈ t.clientIDs, t.heap.madeFor c ≠ t.heap.madeFor p := by
  have hpending := XLLFQ.pop_eq_some hpop
  have hrows : t.rows = t.clientIDs ++ p :: q.pending := by rw [rows, hpending]
  have hdistinct := h.distinct
  rw [hrows, List.map_append, List.map_cons, List.nodup_append] at hdistinct
  refine ⟨by rw [hrows]; simp, fun c hc hsame => ?_⟩
  exact hdistinct.2.2 _ (List.mem_map_of_mem hc) _ List.mem_cons_self hsame

theorem tOnEvent_accept (h : Roster temps t) (htype : e.iType = acceptIncoming)
    {q : XLLFQ (Option Nat)} (hpop : t.incomingQueue.pop = some (q, p)) :
    Handled t e (t.tOnEvent e) := by
  obtain ⟨hp, hnew⟩ := h.pop hpop
  obtain ⟨a, ha⟩ := h.socket hp
  have hacc : t.acceptorThread.isSome = true := by
    rw [← Option.ne_none_iff_isSome]
    intro hnone
    rw [h.populated hnone] at hp
    cases hp
  have hsocket : (t.heap.getData t.pSocket).isSome = true := by
    rw [h.inv.getData List.mem_cons_self]
    exact h.socketed hacc
  -- The parameter's own handle, then that of the client.
  have hid := h.inv.popIncoming hpop
  have hmade := PtrHeap.madeFor_congr (PtrHeap.share_adopted t.heap p)
  have hdata : (t.heap.share p).getData p = some a := by
    rw [hid.getData (by simp), hmade, ha]
  have hany : t.clientIDs.any (fun c => (t.heap.share p).getData c = (t.heap.share p).getData p) =
      false := by
    rw [Bool.eq_false_iff]
    intro hany
    obtain ⟨c, hc, hsame⟩ := List.any_eq_true.mp hany
    have hheld : c ∈ (p :: temps) ++ XLServingThread.others
        { t with heap := t.heap.share p, incomingQueue := q } :=
      List.mem_append_right _ (List.mem_append_left _ (List.mem_append_left _ hc))
    have hdatac : (t.heap.share p).getData c = t.heap.madeFor c :=
      (hid.getData (List.mem_cons_of_mem _ hheld)).trans (congrFun hmade c)
    rw [decide_eq_true_eq, hdatac, hdata, ← ha] at hsame
    exact hnew c hc hsame
  have hins := hid.insert List.mem_cons_self
  have hinsert : XLServingThread.insert { t with heap := t.heap.share p, incomingQueue := q } p =
      { t with
        heap := (t.heap.share p).share p
        incomingQueue := q
        clientIDs := t.clientIDs.orderedInsert
          (fun a b => key (t.heap.share p) a ≤ key (t.heap.share p) b) p } := by
    rw [XLServingThread.insert, if_neg (by rw [hany]; decide)]
  rw [hinsert] at hins
  have hadopted : ((t.heap.share p).share p).adopted = t.heap.adopted := by
    rw [PtrHeap.share_adopted, PtrHeap.share_adopted]
  have hsocketAt : XLServingThread.socketAt ((t.heap.share p).share p) p = some a :=
    hins.socketAt (by simp) (by rw [PtrHeap.madeFor_congr hadopted, ha])
      (by rw [hadopted]; exact h.single p hp a ha)
  have hevent : t.tOnEvent e =
      { t with
        heap := ((t.heap.share p).share p).drop p
        incomingQueue := q
        clientIDs := t.clientIDs.orderedInsert
          (fun a b => key (t.heap.share p) a ≤ key (t.heap.share p) b) p
        sends := t.sends ++ [(a, frame e)] } := by
    rw [tOnEvent, if_neg (by rw [htype]; decide), if_pos htype, if_pos hsocket]
    simp only [hpop, hdata, Option.isSome_some, if_true, hinsert]
    rw [send]
    simp [hsocketAt]
  rw [hevent]
  exact .register q p a htype hpop ha rfl rfl (List.perm_orderedInsert _ p t.clientIDs) rfl
    (by rw [PtrHeap.drop_adopted, PtrHeap.share_adopted, PtrHeap.share_adopted])

theorem tOnEvent (h : Roster temps t) (htype : e.iType ≠ usrMsg) :
    Handled t e (t.tOnEvent e) := by
  by_cases haccept : e.iType = acceptIncoming
  · cases hpop : t.incomingQueue.pop with
    | some r => exact h.tOnEvent_accept haccept hpop
    | none =>
        have hevent : t.tOnEvent e = t := by
          rw [XLServingThread.tOnEvent, if_neg (by rw [haccept]; decide), if_pos haccept]
          split <;> simp [hpop]
        rw [hevent]
        exact .quiet (by rw [toAll, haccept]; rfl) rfl rfl rfl rfl List.prefix_rfl
          fun _ => XLLFQ.pop_eq_none.mp hpop
  by_cases hstart : e.iType = startThread
  · rw [XLServingThread.tOnEvent, if_pos hstart]
    have hall : toAll e = false := by rw [toAll, hstart]; rfl
    split
    · exact .quiet hall rfl rfl rfl rfl (List.prefix_append _ _) fun hc => absurd hc haccept
    · exact .quiet hall rfl rfl rfl rfl List.prefix_rfl fun hc => absurd hc haccept
  rw [XLServingThread.tOnEvent, if_neg hstart, if_neg haccept]
  by_cases hbeat : e.iType = lifeBeat
  · rw [if_pos hbeat]
    refine .passOn (by simp [toAll, hbeat]) ?_
    split
    · rfl
    · rename_i hsocket
      -- Without `m_pSocket` there are no clients.
      rw [h.inv.getData List.mem_cons_self] at hsocket
      have hrows := h.populated (by
        by_contra hacc
        exact hsocket (h.socketed (Option.ne_none_iff_isSome.mp hacc)))
      rw [rows, List.append_eq_nil_iff] at hrows
      rw [hrows.1]
      simp [send]
  rw [if_neg hbeat]
  by_cases hbdcst : e.iType = usrMsgBdcst
  · rw [if_pos hbdcst]
    exact .passOn (by simp [toAll, hbdcst]) rfl
  · rw [if_neg hbdcst, if_neg htype]
    exact .quiet (by simp [toAll, hbeat, hbdcst]) rfl rfl rfl rfl List.prefix_rfl
      fun hc => absurd hc haccept

/-- An event makes a block for the listening socket only, and before there are clients. -/
theorem single_tOnEvent (h : Roster temps t) (htype : e.iType ≠ usrMsg) :
    ∀ p ∈ t.rows, ∀ a, t.heap.madeFor p = some a →
      (t.tOnEvent e).heap.adopted.count (some a) ≤ 1 := by
  intro p hp
  have hnothing : t.eventAdopts e = [] := by
    rw [eventAdopts, if_neg htype]
    split
    · cases hacc : t.acceptorThread with
      | none =>
          rw [h.populated hacc] at hp
          cases hp
      | some _ => rfl
    · rfl
  rw [tOnEvent_adopted, hnothing, List.append_nil]
  exact h.single p hp

/-- The clients are there to be called. -/
theorem fault_send (h : Roster temps t) (e : XLThreadEvent) :
    (t.send t.clientIDs e).fault = t.fault := by
  rw [send, Bool.or_eq_left_iff_imp]
  intro hany
  obtain ⟨p, hp, hnone⟩ := List.any_eq_true.mp hany
  have hrow : p ∈ t.rows := List.mem_append_left _ hp
  obtain ⟨a, ha⟩ := h.socket hrow
  rw [h.socketAt hrow, ha] at hnone
  cases hnone

theorem event (h : Roster temps t) (htype : e.iType ≠ usrMsg) :
    Roster temps (t.tOnEvent e) := by
  obtain ⟨hpSocket, hacceptor⟩ := tOnEvent_rest t e
  have hsocketed : ∀ {h' : PtrHeap UInt64}, t.heap.adopted <+: h'.adopted →
      (t.tOnEvent e).acceptorThread.isSome = true →
        (h'.madeFor (t.tOnEvent e).pSocket).isSome = true := by
    intro h' hadopted hsome
    have hmade : (t.heap.madeFor t.pSocket).isSome = true := by
      rcases hacceptor with hsame | ⟨hdata, -⟩
      · rw [hsame] at hsome
        exact h.socketed hsome
      · rw [h.inv.getData List.mem_cons_self] at hdata
        exact hdata
    obtain ⟨d, hd⟩ := Option.isSome_iff_exists.mp hmade
    rw [hpSocket]
    exact Option.isSome_iff_exists.mpr ⟨d, PtrHeap.madeFor_of_prefix hadopted hd⟩
  have hnone : (t.tOnEvent e).acceptorThread = none → t.acceptorThread = none := by
    intro hnone
    rcases hacceptor with hsame | ⟨-, hsome⟩
    · rw [← hsame, hnone]
    · exact absurd hnone hsome
  have hinv := h.inv.tOnEvent e
  have hsingle := h.single_tOnEvent htype
  cases h.tOnEvent htype with
  | quiet _ _ hsound hclients hqueue hadopted _ =>
      refine h.move hinv hadopted hsingle hsound ?_ (hsocketed hadopted) hnone
      rw [rows, hclients, hqueue]
      exact List.Perm.refl _
  | register q p a _ hpop ha _ hsound hclients hqueue hadopted =>
      refine h.move hinv (PtrHeap.prefix_of_eq hadopted) hsingle hsound ?_
        (hsocketed (PtrHeap.prefix_of_eq hadopted)) hnone
      rw [rows, hqueue, rows, XLLFQ.pop_eq_some hpop]
      exact (hclients.append_right _).trans List.perm_middle.symm
  | passOn _ heq =>
      rw [heq] at hinv hsingle hsocketed hnone ⊢
      exact h.move hinv List.prefix_rfl hsingle (h.fault_send e) (List.Perm.refl _)
        (hsocketed List.prefix_rfl) hnone

end Roster

end XLServingThread

end ServClient
