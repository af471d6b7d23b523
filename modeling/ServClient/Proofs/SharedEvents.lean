/-
When copies of an event behave as values.

An event in memory reads as the value its own calls made it (`Reads`) as long as nobody
writes into a buffer behind its back.  The allocating mutators leave every buffer there
is alone; a `Write` inside the payload changes the one buffer all copies share.  So the
copies are independent in a run precisely if no such `Write` changes a shared buffer.
-/
import ServClient.SharedEvents
import ServClient.Proofs.LockFreeQueue
import ServClient.Lib.Calls
import ServClient.Lib.Runs

namespace ServClient

open Runs

theorem Bytes.splice_eq_iff {buffer block : List UInt8} {pos : Nat}
    (h : pos + block.length ≤ buffer.length) :
    Bytes.splice buffer pos block = buffer ↔ (buffer.drop pos).take block.length = block := by
  constructor
  · intro heq
    rw [← heq, Bytes.splice, List.append_assoc, List.drop_left' (by simp; omega),
      List.take_left' rfl]
  · intro heq
    have := Bytes.splice_self buffer pos block.length h
    rwa [heq] at this

/-! ### One object

An event in memory is a buffer that others may hold.  A mutator either writes into that buffer or
makes a new one, and only the first can be seen by others.
-/

namespace EventObject

variable {bufs more : Buffers} {o : EventObject} {b : Nat}

/-- The buffer is as long as the object says; without one the length is zero. -/
def Fits (bufs : Buffers) (o : EventObject) : Prop :=
  match o.pData with
  | some b => ∃ bytes, bufs[b]? = some bytes ∧ (bytes.length : Int) = o.iLength
  | none => o.iLength = 0

theorem fits_new (bufs : Buffers) : new.Fits bufs := rfl

theorem Fits.append (h : o.Fits bufs) (more : Buffers) : o.Fits (bufs ++ more) := by
  unfold Fits at h ⊢
  split
  · rename_i b hb
    rw [hb] at h
    obtain ⟨bytes, hbytes, hlen⟩ := h
    exact ⟨bytes, by rw [List.getElem?_append_left (Calls.lt_of_getElem?_eq_some hbytes), hbytes],
      hlen⟩
  · rename_i hb
    rw [hb] at h
    exact h

theorem view_append (h : o.Fits bufs) (more : Buffers) : o.view (bufs ++ more) = o.view bufs := by
  unfold Fits at h
  unfold view
  cases hb : o.pData with
  | none => rfl
  | some b =>
      rw [hb] at h
      obtain ⟨bytes, hbytes, -⟩ := h
      simp [List.getElem?_append_left (Calls.lt_of_getElem?_eq_some hbytes)]

theorem set_getD (bufs : Buffers) (b : Nat) : bufs.set b (bufs.getD b []) = bufs := by
  rcases Nat.lt_or_ge b bufs.length with hlt | hge
  · simp [hlt]
  · exact List.set_eq_of_length_le hge

/-- A buffer takes other bytes: an object of another buffer reads as before. -/
theorem view_set {bytes : List UInt8} (h : o.pData ≠ some b) :
    o.view (bufs.set b bytes) = o.view bufs := by
  unfold view
  cases hc : o.pData with
  | none => rfl
  | some c =>
      have hne : b ≠ c := fun hbc => h (by rw [hc, hbc])
      simp [List.getElem?_set_ne hne]

theorem Fits.set {bytes : List UInt8} (h : o.Fits bufs)
    (hlen : bytes.length = (bufs.getD b []).length) : o.Fits (bufs.set b bytes) := by
  unfold Fits at h ⊢
  cases hc : o.pData with
  | none =>
      rw [hc] at h
      exact h
  | some c =>
      rw [hc] at h
      obtain ⟨old, hold, hlen'⟩ := h
      by_cases hbc : b = c
      · subst hbc
        refine ⟨bytes, List.getElem?_set_self (Calls.lt_of_getElem?_eq_some hold), ?_⟩
        rw [hlen]
        simpa [hold] using hlen'
      · exact ⟨old, by rw [List.getElem?_set_ne hbc, hold], hlen'⟩

/-- `r` is what a call made of the object: it reads as `e`, and every old buffer is still there. -/
structure Makes (bufs : Buffers) (r : Buffers × EventObject) (e : XLThreadEvent) : Prop where
  more : ∃ more, r.1 = bufs ++ more
  fits : r.2.Fits r.1
  view : r.2.view r.1 = e

theorem Makes.same (h : o.Fits bufs) : Makes bufs (bufs, o) (o.view bufs) :=
  ⟨⟨[], (List.append_nil _).symm⟩, h, rfl⟩

/-- A call that puts the payload into a new buffer. -/
theorem Makes.alloc {bytes : List UInt8} {length iType : Int} (h : (bytes.length : Int) = length) :
    Makes bufs (bufs ++ [bytes], { pData := some bufs.length, iLength := length, iType := iType })
      { pData := some bytes, iLength := length, iType := iType } :=
  ⟨⟨[bytes], rfl⟩, ⟨bytes, by simp, h⟩, by simp [EventObject.view]⟩

/-- A call that leaves the object without a buffer. -/
theorem Makes.null (bufs : Buffers) (iType : Int) :
    Makes bufs (bufs, { pData := none, iLength := 0, iType := iType })
      { pData := none, iLength := 0, iType := iType } :=
  ⟨⟨[], (List.append_nil _).symm⟩, rfl, rfl⟩

theorem makes_ofSize {size : Int} {uninit : List UInt8} (h : uninit.length = size.toNat) :
    Makes bufs (ofSize bufs size uninit) (XLThreadEvent.ofSize size uninit) := by
  unfold ofSize XLThreadEvent.ofSize
  split
  · exact Makes.alloc (by omega)
  · exact Makes.null bufs 0

theorem makes_setData {data : Option (List UInt8)} {length : Int} {e : XLThreadEvent}
    (h : ∀ bytes, data = some bytes → length ≤ bytes.length) (he : e.iType = o.iType) :
    Makes bufs (o.setData bufs data length) (e.setData data length) := by
  unfold setData XLThreadEvent.setData reset XLThreadEvent.reset
  rw [he]
  cases data with
  | none => exact Makes.null bufs o.iType
  | some bytes =>
      dsimp only
      split
      · refine Makes.alloc ?_
        have := h bytes rfl
        rw [List.length_take]
        omega
      · exact Makes.null bufs o.iType

theorem makes_addData {data : Option (List UInt8)} {length : Int} (ho : o.Fits bufs)
    (h : ∀ bytes, data = some bytes → length ≤ bytes.length) :
    Makes bufs (o.addData bufs data length) ((o.view bufs).addData data length) := by
  have hset : Makes bufs (o.setData bufs data length) ((o.view bufs).setData data length) :=
    makes_setData h rfl
  unfold addData XLThreadEvent.addData
  unfold Fits at ho
  cases hb : o.pData with
  | none =>
      simp only [view, hb, Option.map_none] at hset ⊢
      exact hset
  | some b =>
      rw [hb] at ho
      obtain ⟨old, hold, hlen⟩ := ho
      have hget : bufs.getD b [] = old := by simp [hold]
      cases data with
      | none =>
          simp only [view, hb, Option.map_some] at hset ⊢
          exact hset
      | some bytes =>
          simp only [view, hb, Option.map_some, hget] at hset ⊢
          split
          · refine Makes.alloc ?_
            have := h bytes rfl
            rw [List.length_append, List.length_take, List.length_take]
            omega
          · exact hset

theorem makes_readFrom {source : Option (List UInt8)} {length : Int} (ho : o.Fits bufs)
    (h : ∀ bytes, source = some bytes → length ≤ bytes.length) :
    Makes bufs (o.readFrom bufs source length) ((o.view bufs).readFrom source length) := by
  unfold readFrom XLThreadEvent.readFrom
  cases source with
  | none => exact Makes.same ho
  | some bytes =>
      dsimp only
      simp only [XLThreadEvent.writableSize, show (o.view bufs).iLength = o.iLength from rfl]
      split
      · split
        · rename_i hlen
          refine makes_setData (fun rest hrest => ?_) rfl
          cases hrest
          have := h bytes rfl
          rw [List.length_drop]
          omega
        · exact Makes.null bufs _
      · exact Makes.same ho

/-- Writing into the buffer of an object, seen from the object. -/
theorem poke_some {pos : Nat} {input : List UInt8} {r : Buffers × EventObject}
    (hb : o.pData = some b) (h : o.poke bufs pos input = some r) :
    ∃ bytes, pos + input.length ≤ (bufs.getD b []).length ∧
      bytes = Bytes.splice (bufs.getD b []) pos input ∧ r = (bufs.set b bytes, o) ∧
      (o.view bufs).poke pos input = some { o.view bufs with pData := some bytes } := by
  unfold poke at h
  rw [hb] at h
  obtain ⟨bytes, hstore, rfl⟩ := Option.map_eq_some_iff.mp h
  obtain ⟨hle, hsplice⟩ := Bytes.store?_eq_some.mp hstore
  refine ⟨bytes, hle, hsplice.symm, rfl, ?_⟩
  unfold XLThreadEvent.poke view
  rw [hb]
  simp only [Option.map_some, Option.getD_some, hstore]

theorem poke_none {pos : Nat} {input : List UInt8} {r : Buffers × EventObject}
    (hb : o.pData = none) (h : o.poke bufs pos input = some r) :
    r = (bufs, o) ∧ (o.view bufs).poke pos input = some (o.view bufs) := by
  unfold poke at h
  rw [hb] at h
  obtain ⟨bytes, hstore, rfl⟩ := Option.map_eq_some_iff.mp h
  refine ⟨rfl, ?_⟩
  unfold XLThreadEvent.poke view
  rw [hb]
  simp only [Option.map_none, Option.getD_none, hstore, Option.map_some]

end EventObject

namespace Mutator

variable {m : Mutator} {bufs : Buffers} {o : EventObject} {r : Buffers × EventObject}

theorem data_of_readable {data : Option (List UInt8)} {length : Int}
    (h : (data.all fun bytes => decide (length ≤ bytes.length)) = true) :
    ∀ bytes, data = some bytes → length ≤ bytes.length := by
  intro bytes hdata
  subst hdata
  simpa using h

/-- Every call either writes into the buffer there is, or leaves the buffers there are alone. -/
theorem onObject_cases (hm : m.readable = true) (ho : o.Fits bufs)
    (h : m.onObject bufs o = some r) :
    (∃ e, m.onValue (o.view bufs) = some e ∧ m.pokes o = none ∧ EventObject.Makes bufs r e) ∨
    ∃ pos input, m.pokes o = some (pos, input) ∧ o.poke bufs pos input = some r ∧
      m.onValue (o.view bufs) = (o.view bufs).poke pos input := by
  cases m with
  | setType iType =>
      cases h
      exact Or.inl ⟨_, rfl, rfl, ⟨[], (List.append_nil _).symm⟩, ho, rfl⟩
  | setData data length =>
      cases h
      exact Or.inl ⟨_, rfl, rfl, EventObject.makes_setData (data_of_readable hm) rfl⟩
  | addData data length =>
      cases h
      exact Or.inl ⟨_, rfl, rfl, EventObject.makes_addData ho (data_of_readable hm)⟩
  | readFrom source length =>
      cases h
      exact Or.inl ⟨_, rfl, rfl, EventObject.makes_readFrom ho (data_of_readable hm)⟩
  | reset =>
      cases h
      exact Or.inl ⟨_, rfl, rfl, EventObject.Makes.null bufs o.iType⟩
  | write place input =>
      have hguard : (o.view bufs).inPlace place input.length = o.inPlace place input.length := rfl
      simp only [onObject, EventObject.write] at h
      simp only [onValue, pokes, XLThreadEvent.write, hguard]
      split at h
      · rename_i hin
        rw [if_pos hin, if_pos hin]
        exact Or.inr ⟨_, _, rfl, h, by simp [Function.comp_def]⟩
      · rename_i hin
        rw [if_neg hin, if_neg hin]
        split at h
        · rename_i hend
          cases h
          rw [if_pos (show place = (o.view bufs).iLength from hend)]
          exact Or.inl ⟨_, rfl, rfl, EventObject.makes_addData ho fun bytes hb => by
            cases hb
            exact Int.le_refl _⟩
        · rename_i hend
          cases h
          rw [if_neg (show ¬ place = (o.view bufs).iLength from hend)]
          exact Or.inl ⟨_, rfl, rfl, EventObject.Makes.same ho⟩
  | writeBlock place input size =>
      have hadd : EventObject.Makes bufs (o.addData bufs input size)
          ((o.view bufs).addData input size) :=
        EventObject.makes_addData ho (data_of_readable hm)
      simp only [onObject, EventObject.writeBlock] at h
      simp only [onValue, XLThreadEvent.writeBlock, show (o.view bufs).iLength = o.iLength from rfl]
      cases input with
      | none =>
          dsimp only at h ⊢
          split at h
          · rename_i hend
            cases h
            rw [if_pos hend]
            exact Or.inl ⟨_, rfl, rfl, hadd⟩
          · rename_i hend
            cases h
            rw [if_neg hend]
            exact Or.inl ⟨_, rfl, rfl, EventObject.Makes.same ho⟩
      | some bytes =>
          dsimp only [pokes] at h ⊢
          by_cases hin : 0 ≤ place ∧ place + size ≤ o.iLength
          · rw [if_pos hin] at h
            rw [if_pos hin]
            by_cases hsize : 0 ≤ size
            · rw [if_pos hsize] at h
              rw [if_pos hsize, if_pos ⟨hin.1, hin.2, hsize⟩]
              exact Or.inr ⟨_, _, rfl, h, by simp [Function.comp_def]⟩
            · rw [if_neg hsize] at h
              cases h
          · have hpoke : ¬ (0 ≤ place ∧ place + size ≤ o.iLength ∧ 0 ≤ size) :=
              fun hc => hin ⟨hc.1, hc.2.1⟩
            rw [if_neg hin] at h
            rw [if_neg hin, if_neg hpoke]
            split at h
            · rename_i hend
              cases h
              rw [if_pos hend]
              exact Or.inl ⟨_, rfl, rfl, hadd⟩
            · rename_i hend
              cases h
              rw [if_neg hend]
              exact Or.inl ⟨_, rfl, rfl, EventObject.Makes.same ho⟩

end Mutator

/-! ### Events in memory and events as values -/

/-- The events a program can read: its objects and those in the queue. -/
def EventWorld.readable {E : Type} (w : EventWorld E) : List E := w.objs ++ w.q.pending

/-- Every event in memory reads as its value. -/
structure Reads (s : SharedEvents) (v : EventWorld XLThreadEvent) : Prop where
  objs : v.objs = s.world.objs.map (EventObject.view s.bufs)
  queue : v.q.pending = s.world.q.pending.map (EventObject.view s.bufs)
  maxSize : v.q.maxSize = s.world.q.maxSize
  fits : ∀ o ∈ s.world.readable, o.Fits s.bufs

namespace Reads

variable {s : SharedEvents} {v v' : EventWorld XLThreadEvent} {w : EventWorld EventObject}
  {bufs : Buffers} {i : Nat}

theorem new : Reads SharedEvents.new EventWorld.new where
  objs := rfl
  queue := rfl
  maxSize := rfl
  fits := by
    intro o ho
    cases ho

/-- Other buffers, in which no event reads differently. -/
theorem of_view (h : Reads s v) (hfits : ∀ o ∈ s.world.readable, o.Fits bufs)
    (hview : ∀ o ∈ s.world.readable, o.view bufs = o.view s.bufs) :
    Reads { s with bufs := bufs } v where
  objs := by
    rw [h.objs]
    exact (List.map_congr_left fun o ho => hview o (List.mem_append_left _ ho)).symm
  queue := by
    rw [h.queue]
    exact (List.map_congr_left fun o ho => hview o (List.mem_append_right _ ho)).symm
  maxSize := h.maxSize
  fits := hfits

theorem append (h : Reads s v) (more : Buffers) : Reads { s with bufs := s.bufs ++ more } v :=
  h.of_view (fun o ho => (h.fits o ho).append more)
    fun o ho => EventObject.view_append (h.fits o ho) more

/-- One more object. -/
theorem concat {o : EventObject} (h : Reads s v) (ho : o.Fits s.bufs) :
    Reads { s with world := { s.world with objs := s.world.objs ++ [o] } }
      { v with objs := v.objs ++ [o.view s.bufs] } where
  objs := by simp [h.objs]
  queue := h.queue
  maxSize := h.maxSize
  fits := by
    intro c hc
    simp only [EventWorld.readable, List.mem_append, List.mem_singleton] at hc
    rcases hc with (hobjs | rfl) | hqueue
    · exact h.fits c (List.mem_append_left _ hobjs)
    · exact ho
    · exact h.fits c (List.mem_append_right _ hqueue)

/-- Object `i` becomes another event. -/
theorem set {o : EventObject} (h : Reads s v) (i : Nat) (ho : o.Fits s.bufs) :
    Reads { s with world := { s.world with objs := s.world.objs.set i o } }
      { v with objs := v.objs.set i (o.view s.bufs) } where
  objs := by simp [h.objs, List.map_set]
  queue := h.queue
  maxSize := h.maxSize
  fits := by
    intro c hc
    rcases List.mem_append.mp hc with hobjs | hqueue
    · rcases List.mem_or_eq_of_mem_set hobjs with hold | rfl
      · exact h.fits c (List.mem_append_left _ hold)
      · exact ho
    · exact h.fits c (List.mem_append_right _ hqueue)

theorem getElem? (h : Reads s v) (i : Nat) :
    v.objs[i]? = s.world.objs[i]?.map (EventObject.view s.bufs) := by
  rw [h.objs, List.getElem?_map]

/-- Copying is the same in memory and for values. -/
theorem move {m : Move} (h : Reads s v) (hw : s.world.move m = some w) (hv : v.move m = some v') :
    Reads { s with world := w } v' := by
  cases m with
  | create =>
      cases hw
      cases hv
      exact h.concat (EventObject.fits_new s.bufs)
  | copy j =>
      obtain ⟨o, ho, rfl⟩ := Option.map_eq_some_iff.mp hw
      obtain ⟨e, he, rfl⟩ := Option.map_eq_some_iff.mp hv
      rw [h.getElem?, ho, Option.map_some, Option.some.injEq] at he
      subst he
      exact h.concat (h.fits o (List.mem_append_left _ (List.mem_of_getElem? ho)))
  | assign i j =>
      simp only [EventWorld.move] at hw hv
      split at hw
      · split at hv
        · obtain ⟨o, ho, rfl⟩ := Option.map_eq_some_iff.mp hw
          obtain ⟨e, he, rfl⟩ := Option.map_eq_some_iff.mp hv
          rw [h.getElem?, ho, Option.map_some, Option.some.injEq] at he
          subst he
          exact h.set i (h.fits o (List.mem_append_left _ (List.mem_of_getElem? ho)))
        · cases hv
      · cases hw
  | put i =>
      obtain ⟨o, ho, rfl⟩ := Option.map_eq_some_iff.mp hw
      obtain ⟨e, he, rfl⟩ := Option.map_eq_some_iff.mp hv
      rw [h.getElem?, ho, Option.map_some, Option.some.injEq] at he
      subst he
      have hlen : v.q.pending.length = s.world.q.pending.length := by
        rw [h.queue, List.length_map]
      have hfits := h.fits o (List.mem_append_left _ (List.mem_of_getElem? ho))
      by_cases hroom : s.world.q.pending.length < s.world.q.maxSize
      · have hroom' : v.q.pending.length < v.q.maxSize := by rw [hlen, h.maxSize]; exact hroom
        have hpush := (XLLFQ.push_room hroom o).2
        refine ⟨h.objs, ?_, by simp [h.maxSize], ?_⟩
        · rw [(XLLFQ.push_room hroom' _).2, hpush, h.queue, List.map_append]
          rfl
        · intro c hc
          rw [EventWorld.readable, hpush, ← List.append_assoc, List.mem_append,
            List.mem_singleton] at hc
          rcases hc with hold | rfl
          · exact h.fits c hold
          · exact hfits
      · have hfull : ¬ v.q.pending.length < v.q.maxSize := by rw [hlen, h.maxSize]; exact hroom
        have hpush := (XLLFQ.push_full hroom o).2
        refine ⟨h.objs, ?_, by simp [h.maxSize], ?_⟩
        · rw [(XLLFQ.push_full hfull _).2, hpush, h.queue]
        · intro c hc
          rw [EventWorld.readable, hpush] at hc
          exact h.fits c hc
  | get i =>
      simp only [EventWorld.move] at hw hv
      split at hw
      · split at hv
        · obtain ⟨⟨q, o⟩, hpop, rfl⟩ := Option.map_eq_some_iff.mp hw
          obtain ⟨⟨q', e⟩, hpop', rfl⟩ := Option.map_eq_some_iff.mp hv
          have hpending := XLLFQ.pop_eq_some hpop
          have hpending' := XLLFQ.pop_eq_some hpop'
          rw [h.queue, hpending, List.map_cons, List.cons.injEq] at hpending'
          obtain ⟨rfl, hrest⟩ := hpending'
          have hfits : ∀ c, c = o ∨ c ∈ q.pending → c.Fits s.bufs := fun c hc =>
            h.fits c (List.mem_append_right _ (by rw [hpending]; exact List.mem_cons.mpr hc))
          have hset := h.set i (hfits o (Or.inl rfl))
          refine ⟨hset.objs, hrest.symm, ?_, ?_⟩
          · rw [XLLFQ.pop_maxSize hpop, XLLFQ.pop_maxSize hpop', h.maxSize]
          · intro c hc
            rcases List.mem_append.mp hc with hobjs | hqueue
            · exact hset.fits c (List.mem_append_left _ hobjs)
            · exact hfits c (Or.inr hqueue)
        · cases hv
      · cases hw

end Reads

/-- What can be read of an event. -/
def XLThreadEvent.seen (e : XLThreadEvent) : Int × Int × List UInt8 :=
  (e.iType, e.iLength, e.payload)

/-- Other bytes in its buffer show in an event. -/
theorem EventObject.seen_set {bufs : Buffers} {c : EventObject} {b : Nat} {bytes : List UInt8}
    (hc : c.Fits bufs) (hcb : c.pData = some b) (hlen : bytes.length = (bufs.getD b []).length)
    (hdiff : bytes ≠ bufs.getD b []) :
    (c.view (bufs.set b bytes)).seen ≠ (c.view bufs).seen := by
  unfold EventObject.Fits at hc
  rw [hcb] at hc
  obtain ⟨old, hold, hold'⟩ := hc
  have hget : bufs.getD b [] = old := by simp [hold]
  rw [hget] at hlen hdiff
  have hpayload : (c.view bufs).payload = old := by
    simp only [XLThreadEvent.payload, EventObject.view, hcb, Option.map_some, hget,
      Option.getD_some]
    exact List.take_of_length_le (by omega)
  have hpayload' : (c.view (bufs.set b bytes)).payload = bytes := by
    simp only [XLThreadEvent.payload, EventObject.view, hcb, Option.map_some, Option.getD_some,
      List.getD_eq_getElem?_getD, List.getElem?_set_self (Calls.lt_of_getElem?_eq_some hold)]
    exact List.take_of_length_le (by omega)
  intro heq
  have := congrArg (fun e => e.2.2) heq
  simp only [XLThreadEvent.seen, hpayload, hpayload'] at this
  exact hdiff this

/-! ### The two side by side

A run in memory and a run on values, step by step.  They part where a `Write` changes a buffer that
some other event has.
-/

namespace SharedEvents

/-- A run in memory, and what it means for values. -/
def nextBoth (p : SharedEvents × EventWorld XLThreadEvent) (l : EventStep) :
    Option (SharedEvents × EventWorld XLThreadEvent) :=
  (p.1.next l).bind fun s => (p.2.next l).map fun v => (s, v)

/-- Where a run begins: no objects, no buffers, and an empty queue. -/
def start : SharedEvents × EventWorld XLThreadEvent := (new, EventWorld.new)

/-- Type, length and payload of every object and every queued event are those of its value. -/
structure Independent (p : SharedEvents × EventWorld XLThreadEvent) : Prop where
  objs : p.1.world.objs.map (fun o => (o.view p.1.bufs).seen) = p.2.objs.map XLThreadEvent.seen
  queue : p.1.world.q.pending.map (fun o => (o.view p.1.bufs).seen) =
    p.2.q.pending.map XLThreadEvent.seen

/-- The events besides object `i`. -/
def othersOf (s : SharedEvents) (i : Nat) : List EventObject :=
  s.world.objs.eraseIdx i ++ s.world.q.pending

/-- The step does not change a byte, by a `Write` inside the payload, of a buffer that another
event shares. -/
def Harmless (p : SharedEvents × EventWorld XLThreadEvent) (l : EventStep) : Prop :=
  ∀ (i b pos : Nat) (m : Mutator) (o : EventObject) (input : List UInt8),
    l = .mutate i m → p.1.world.objs[i]? = some o → o.pData = some b →
    m.pokes o = some (pos, input) →
    ((p.1.bufs.getD b []).drop pos).take input.length ≠ input →
    ∀ c ∈ p.1.othersOf i, c.pData ≠ some b

variable {p p' : SharedEvents × EventWorld XLThreadEvent} {l : EventStep}

theorem independent_of_reads (h : Reads p.1 p.2) : Independent p where
  objs := by
    rw [h.objs, List.map_map]
    rfl
  queue := by
    rw [h.queue, List.map_map]
    rfl

theorem nextBoth_eq_some (h : nextBoth p l = some p') :
    p.1.next l = some p'.1 ∧ p.2.next l = some p'.2 := by
  obtain ⟨s, hs, hrest⟩ := Option.bind_eq_some_iff.mp h
  obtain ⟨v, hv, rfl⟩ := Option.map_eq_some_iff.mp hrest
  exact ⟨hs, hv⟩

/-- The step of a mutator. -/
theorem nextBoth_mutate {i : Nat} {m : Mutator} (h : nextBoth p (.mutate i m) = some p')
    (hreads : Reads p.1 p.2) :
    ∃ o r e, m.readable = true ∧ p.1.world.objs[i]? = some o ∧ m.onObject p.1.bufs o = some r ∧
      m.onValue (o.view p.1.bufs) = some e ∧
      p' = ({ bufs := r.1, world := { p.1.world with objs := p.1.world.objs.set i r.2 } },
        { p.2 with objs := p.2.objs.set i e }) := by
  obtain ⟨hs, hv⟩ := nextBoth_eq_some h
  unfold next at hs
  unfold EventWorld.next at hv
  split at hs
  · rename_i hm
    rw [if_pos hm] at hv
    obtain ⟨o, ho, hr⟩ := Option.bind_eq_some_iff.mp hs
    obtain ⟨r, hr, hs'⟩ := Option.map_eq_some_iff.mp hr
    obtain ⟨e, he, hv⟩ := Option.bind_eq_some_iff.mp hv
    obtain ⟨e', he', hv'⟩ := Option.map_eq_some_iff.mp hv
    rw [hreads.getElem?, ho, Option.map_some, Option.some.injEq] at he
    subst he
    exact ⟨o, r, e', hm, ho, hr, he', Prod.ext hs'.symm hv'.symm⟩
  · cases hs

/-- Writing into a buffer that no other event shares. -/
theorem reads_poke {i b : Nat} {o : EventObject} {bytes : List UInt8} {e : XLThreadEvent}
    (h : Reads p.1 p.2) (ho : p.1.world.objs[i]? = some o) (hb : o.pData = some b)
    (hlen : bytes.length = (p.1.bufs.getD b []).length)
    (he : e = { o.view p.1.bufs with pData := some bytes })
    (hothers : ∀ c ∈ p.1.othersOf i, c.pData ≠ some b) :
    Reads { bufs := p.1.bufs.set b bytes,
            world := { p.1.world with objs := p.1.world.objs.set i o } }
      { p.2 with objs := p.2.objs.set i e } := by
  have hmem := h.fits o (List.mem_append_left _ (List.mem_of_getElem? ho))
  have hlt : b < p.1.bufs.length := by
    unfold EventObject.Fits at hmem
    rw [hb] at hmem
    obtain ⟨old, hold, -⟩ := hmem
    exact Calls.lt_of_getElem?_eq_some hold
  have hview : o.view (p.1.bufs.set b bytes) = e := by
    rw [he]
    simp [EventObject.view, hb, hlt]
  refine ⟨?_, ?_, h.maxSize, ?_⟩
  · show p.2.objs.set i e = (p.1.world.objs.set i o).map _
    rw [List.map_set, hview]
    refine List.ext_getElem? fun k => ?_
    by_cases hk : i = k
    · subst hk
      rw [List.getElem?_set_self (by
          rw [h.objs, List.length_map]
          exact Calls.lt_of_getElem?_eq_some ho),
        List.getElem?_set_self (by
          rw [List.length_map]
          exact Calls.lt_of_getElem?_eq_some ho)]
    · rw [List.getElem?_set_ne hk, List.getElem?_set_ne hk, h.getElem?, List.getElem?_map]
      cases hc : p.1.world.objs[k]? with
      | none => rfl
      | some c =>
          have hne := hothers c (List.mem_append_left _
            (List.mem_eraseIdx_iff_getElem?.mpr ⟨k, Ne.symm hk, hc⟩))
          rw [Option.map_some, Option.map_some, EventObject.view_set hne]
  · rw [h.queue]
    exact List.map_congr_left fun c hc =>
      (EventObject.view_set (hothers c (List.mem_append_right _ hc))).symm
  · intro c hc
    refine EventObject.Fits.set ?_ hlen
    rcases List.mem_append.mp hc with hobjs | hqueue
    · rcases List.mem_or_eq_of_mem_set hobjs with hold | rfl
      · exact h.fits c (List.mem_append_left _ hold)
      · exact hmem
    · exact h.fits c (List.mem_append_right _ hqueue)

theorem reads_mutate {i : Nat} {m : Mutator} (h : Reads p.1 p.2)
    (hharm : Harmless p (.mutate i m)) (hl : nextBoth p (.mutate i m) = some p') :
    Reads p'.1 p'.2 := by
  obtain ⟨o, r, e, hm, ho, hr, he, rfl⟩ := nextBoth_mutate hl h
  have hfits := h.fits o (List.mem_append_left _ (List.mem_of_getElem? ho))
  rcases Mutator.onObject_cases hm hfits hr with ⟨e', he', -, hmakes⟩ | ⟨pos, input, hp, hr', he'⟩
  · rw [he, Option.some.injEq] at he'
    subst he'
    obtain ⟨more, hmore⟩ := hmakes.more
    have hfits' := hmakes.fits
    rw [← hmakes.view]
    rw [hmore] at hfits' ⊢
    exact (h.append more).set i hfits'
  · cases hb : o.pData with
    | none =>
        obtain ⟨rfl, hv⟩ := EventObject.poke_none hb hr'
        rw [he, hv, Option.some.injEq] at he'
        subst he'
        exact h.set i hfits
    | some b =>
        obtain ⟨bytes, hle, hbytes, rfl, hv⟩ := EventObject.poke_some hb hr'
        rw [he, hv, Option.some.injEq] at he'
        by_cases hsame : ((p.1.bufs.getD b []).drop pos).take input.length = input
        · have hold : bytes = p.1.bufs.getD b [] := by
            rw [hbytes]
            exact (Bytes.splice_eq_iff hle).mpr hsame
          have hkept : p.1.bufs.set b bytes = p.1.bufs := by
            rw [hold]
            exact EventObject.set_getD p.1.bufs b
          have hview : e = o.view p.1.bufs := by
            rw [he', hold]
            simp [EventObject.view, hb]
          dsimp only
          rw [hkept, hview]
          exact h.set i hfits
        · exact reads_poke h ho hb (by rw [hbytes, Bytes.length_splice hle]) he'
            (hharm i b pos m o input rfl ho hb hp hsame)

theorem reads_next (h : Reads p.1 p.2) (hharm : Harmless p l) (hl : nextBoth p l = some p') :
    Reads p'.1 p'.2 := by
  cases l with
  | mutate i m => exact reads_mutate h hharm hl
  | move m =>
      obtain ⟨hs, hv⟩ := nextBoth_eq_some hl
      obtain ⟨w, hw, hs'⟩ := Option.map_eq_some_iff.mp hs
      rw [← hs']
      exact h.move hw hv
  | ofSize size uninit =>
      obtain ⟨hs, hv⟩ := nextBoth_eq_some hl
      unfold next at hs
      unfold EventWorld.next at hv
      split at hs
      · rename_i hsize
        rw [if_pos hsize, Option.some.injEq] at hv
        rw [Option.some.injEq] at hs
        have hmakes : EventObject.Makes p.1.bufs (EventObject.ofSize p.1.bufs size uninit)
            (XLThreadEvent.ofSize size uninit) :=
          EventObject.makes_ofSize (of_decide_eq_true hsize)
        obtain ⟨more, hmore⟩ := hmakes.more
        have hfits := hmakes.fits
        rw [← hs, ← hv, ← hmakes.view]
        dsimp only
        rw [hmore] at hfits ⊢
        exact (h.append more).concat hfits
      · cases hs

theorem not_independent (h : Reads p.1 p.2) (hharm : ¬ Harmless p l)
    (hl : nextBoth p l = some p') : ¬ Independent p' := by
  simp only [Harmless, not_forall, not_not] at hharm
  obtain ⟨i, b, pos, m, o, input, rfl, ho, hb, hp, hdiff, c, hc, hcb⟩ := hharm
  obtain ⟨o', r, e, hm, ho', hr, he, rfl⟩ := nextBoth_mutate hl h
  rw [ho, Option.some.injEq] at ho'
  subst ho'
  have hfits := h.fits o (List.mem_append_left _ (List.mem_of_getElem? ho))
  rcases Mutator.onObject_cases hm hfits hr with ⟨e', -, hnone, -⟩ | ⟨pos', input', hp', hr', -⟩
  · rw [hp] at hnone
    cases hnone
  · rw [hp, Option.some.injEq, Prod.mk.injEq] at hp'
    obtain ⟨rfl, rfl⟩ := hp'
    obtain ⟨bytes, hle, hbytes, rfl, -⟩ := EventObject.poke_some hb hr'
    have hlen : bytes.length = (p.1.bufs.getD b []).length := by
      rw [hbytes, Bytes.length_splice hle]
    have hnew : bytes ≠ p.1.bufs.getD b [] := fun hsame =>
      hdiff ((Bytes.splice_eq_iff hle).mp (hbytes ▸ hsame))
    intro hind
    rcases List.mem_append.mp hc with hobjs | hqueue
    · obtain ⟨k, hk, hck⟩ := List.mem_eraseIdx_iff_getElem?.mp hobjs
      have hcfits := h.fits c (List.mem_append_left _ (List.mem_of_getElem? hck))
      have hat := congrArg (·[k]?) hind.objs
      simp only [List.getElem?_map, List.getElem?_set_ne (Ne.symm hk), h.getElem?, hck,
        Option.map_some, Option.some.injEq] at hat
      exact EventObject.seen_set hcfits hcb hlen hnew hat
    · obtain ⟨k, hck⟩ := List.getElem?_of_mem hqueue
      have hcfits := h.fits c (List.mem_append_right _ hqueue)
      have hat := congrArg (·[k]?) hind.queue
      simp only [List.getElem?_map, h.queue, hck, Option.map_some, Option.some.injEq] at hat
      exact EventObject.seen_set hcfits hcb hlen hnew hat

/-- Whatever can be done in memory has a meaning for values. -/
theorem nextBoth_of_next {s : SharedEvents} (h : Reads p.1 p.2) (hs : p.1.next l = some s) :
    ∃ v, nextBoth p l = some (s, v) := by
  suffices hv : ∃ v, p.2.next l = some v by
    obtain ⟨v, hv⟩ := hv
    exact ⟨v, by rw [nextBoth, hs, Option.bind_some, hv, Option.map_some]⟩
  have hlength : p.2.objs.length = p.1.world.objs.length := by rw [h.objs, List.length_map]
  unfold next at hs
  unfold EventWorld.next
  split at hs
  · rename_i hread
    rw [if_pos hread]
    cases l with
    | ofSize size uninit => exact ⟨_, rfl⟩
    | mutate i m =>
        obtain ⟨o, ho, hr⟩ := Option.bind_eq_some_iff.mp hs
        obtain ⟨r, hr, -⟩ := Option.map_eq_some_iff.mp hr
        have hfits := h.fits o (List.mem_append_left _ (List.mem_of_getElem? ho))
        have hvalue : ∃ e, m.onValue (o.view p.1.bufs) = some e := by
          rcases Mutator.onObject_cases hread hfits hr with
            ⟨e, he, -, -⟩ | ⟨pos, input, -, hr', he⟩
          · exact ⟨e, he⟩
          · rw [he]
            cases hb : o.pData with
            | none => exact ⟨_, (EventObject.poke_none hb hr').2⟩
            | some b =>
                obtain ⟨bytes, -, -, -, hv⟩ := EventObject.poke_some hb hr'
                exact ⟨_, hv⟩
        obtain ⟨e, he⟩ := hvalue
        dsimp only
        rw [h.getElem?, ho, Option.map_some, Option.bind_some, he]
        exact ⟨_, rfl⟩
    | move m =>
        obtain ⟨w, hw, -⟩ := Option.map_eq_some_iff.mp hs
        cases m with
        | create => exact ⟨_, rfl⟩
        | copy j | put j =>
            obtain ⟨o, ho, -⟩ := Option.map_eq_some_iff.mp hw
            exact ⟨_, Option.map_eq_some_iff.mpr ⟨_, by rw [h.getElem?, ho, Option.map_some], rfl⟩⟩
        | assign i j =>
            simp only [EventWorld.move] at hw ⊢
            rw [hlength]
            split at hw
            · rename_i hi
              obtain ⟨o, ho, -⟩ := Option.map_eq_some_iff.mp hw
              rw [if_pos hi, h.getElem?, ho]
              exact ⟨_, rfl⟩
            · cases hw
        | get i =>
            simp only [EventWorld.move] at hw ⊢
            rw [hlength]
            split at hw
            · rename_i hi
              obtain ⟨r, hpop, -⟩ := Option.map_eq_some_iff.mp hw
              rw [if_pos hi]
              cases hv : p.2.q.pop with
              | some r' => exact ⟨_, rfl⟩
              | none =>
                  rw [XLLFQ.pop_eq_none, h.queue, List.map_eq_nil_iff, ← XLLFQ.pop_eq_none,
                    hpop] at hv
                  cases hv
            · cases hw
  · cases hs

/-- While nothing harmful happens every event reads as its value; the first harmful step shows. -/
theorem along_of_independent {steps : List EventStep} :
    ∀ {p : SharedEvents × EventWorld XLThreadEvent} {s : SharedEvents}, Reads p.1 p.2 →
      exec next p.1 steps = some s → Throughout nextBoth Independent p steps →
      Along nextBoth Harmless p steps := by
  induction steps with
  | nil => intro p s _ _ _; trivial
  | cons l rest ih =>
      intro p s h hrun hind
      obtain ⟨s', hl, hrest⟩ := exec_cons_eq_some.mp hrun
      obtain ⟨v', hboth⟩ := nextBoth_of_next h hl
      have hharm : Harmless p l := by
        by_contra hmiss
        exact not_independent h hmiss hboth (hind.2 _ hboth).head
      refine ⟨hharm, fun p' hp' => ?_⟩
      cases hboth.symm.trans hp'
      exact ih (reads_next h hharm hboth) hrest (hind.2 _ hboth)

/--
Copies of events are independent values throughout a run precisely when no `Write` inside a
payload changes a buffer that another event shares.
-/
theorem independent_iff {steps : List EventStep} {s : SharedEvents}
    (hrun : exec next new steps = some s) :
    Throughout nextBoth Independent start steps ↔ Along nextBoth Harmless start steps :=
  ⟨along_of_independent Reads.new hrun,
    throughout_of_along (I := fun p => Reads p.1 p.2) (fun _ _ _ => reads_next)
      (fun _ => independent_of_reads) Reads.new⟩

/-- An event is copied and given other data. -/
theorem independent_iff_setData :
    Throughout nextBoth Independent start
        [.move .create, .mutate 0 (.setData (some [1, 2, 3]) 3), .move (.copy 0),
          .mutate 0 (.setData (some [9]) 1)] ↔
      Along nextBoth Harmless start
        [.move .create, .mutate 0 (.setData (some [1, 2, 3]) 3), .move (.copy 0),
          .mutate 0 (.setData (some [9]) 1)] :=
  independent_iff (show exec _ _ _ = some _ from rfl)

/-- The producer writes to its event between `Put` and `Get`. -/
theorem write_after_put :
    ∃ p, exec nextBoth start
        [.move .create, .mutate 0 (.setData (some [1, 2, 3]) 3), .move (.put 0),
          .mutate 0 (.write 0 [9]), .move .create, .move (.get 1)] = some p ∧
      p.1.world.objs[1]?.map (fun o => (o.view p.1.bufs).payload) = some [9, 2, 3] ∧
      p.2.objs[1]?.map XLThreadEvent.payload = some [1, 2, 3] ∧ ¬ Independent p := by
  refine ⟨_, rfl, rfl, rfl, fun hind => ?_⟩
  exact absurd hind.objs (by decide)

end SharedEvents

end ServClient
