/-
When the work of a handler comes to an end.

What `t_OnEvent` posts depends on the type of the event and on nothing else, so the types in the
queue are all there is to look at: one is taken from the front, and its answer goes to the end.
Received data is answered once, with a message that has no answer.  A message to send is answered
with itself, and that is the case that could fail: it is in the queue for ever.
-/
import ServClient.HandlerWork
import ServClient.Lib.Runs

namespace ServClient

open Runs

namespace XLServerClientHandler

/-- The type of the event that `t_OnEvent` posts. -/
def answer (type : Int) : Option Int :=
  if type = msgOnSend then some msgOnSend
  else if type = serverDataRecieved then some msgOnRecieve
  else none

@[simp] theorem eventWith_iType (type : Int) (msg : Option (List UInt8)) (len : Int) :
    (eventWith type msg len).iType = type := by
  unfold eventWith XLThreadEvent.setData
  split
  · split <;> rfl
  · rfl

theorem tOnEventFront_answer (h : XLServerClientHandler) (e : XLThreadEvent) :
    (h.tOnEventFront e).2.map XLThreadEvent.iType = answer e.iType := by
  unfold tOnEventFront answer
  dsimp only
  split
  · rename_i htype
    rcases htype with h | h | h | h <;> rw [h] <;> rfl
  split
  · exact congrArg some (eventWith_iType _ _ _)
  split
  · exact congrArg some (eventWith_iType _ _ _)
  split <;> rfl

end XLServerClientHandler

namespace HandlerWork

open XLServerClientHandler

variable {w w' : HandlerWork}

/-- The types in the queue. -/
def types (w : HandlerWork) : List Int := w.queue.pending.map XLThreadEvent.iType

/-! ### One step -/

theorem get_eq_some {e : XLThreadEvent} (h : w.get = some (w', e)) :
    w.types = e.iType :: w'.types ∧ w'.exit = w.exit ∧
      w'.queue.pending.length < w'.queue.maxSize := by
  unfold get at h
  split at h
  · cases h
  · rename_i queue e' hpop
    cases h
    have hpending := XLLFQ.pop_eq_some hpop
    have hfits := w.fits
    rw [hpending, List.length_cons] at hfits
    refine ⟨by rw [types, hpending]; rfl, rfl, ?_⟩
    show queue.pending.length < queue.maxSize
    rw [XLLFQ.pop_maxSize hpop]
    omega

theorem get_isSome (h : w.types ≠ []) : ∃ w' e, w.get = some (w', e) := by
  cases hpop : w.queue.pop with
  | none =>
      refine absurd ?_ h
      rw [types, XLLFQ.pop_eq_none.mp hpop]
      rfl
  | some r =>
      unfold get
      split
      · rename_i hnone
        cases hpop.symm.trans hnone
      · exact ⟨_, _, rfl⟩

/-- The answer goes to the end of the queue. -/
theorem handle_types (hroom : w.queue.pending.length < w.queue.maxSize) (e : XLThreadEvent) :
    (w.handle e).types = w.types ++ (answer e.iType).toList ∧ (w.handle e).exit = w.exit := by
  have hanswer := w.handler.tOnEventFront_answer e
  unfold handle
  split
  · rename_i heq
    rw [heq] at hanswer
    rw [← hanswer]
    exact ⟨(List.append_nil _).symm, rfl⟩
  · rename_i post heq
    rw [heq] at hanswer
    rw [← hanswer]
    refine ⟨?_, rfl⟩
    show (w.queue.push post).1.pending.map XLThreadEvent.iType = _
    rw [(XLLFQ.push_room hroom post).2, List.map_append]
    rfl

/-- A step of either machine takes the first type, and but for an `Exit` of the loop its answer goes
to the end. -/
theorem next_types (h : w.next () = some w') :
    ∃ type rest, w.types = type :: rest ∧ w'.types = rest ++ (answer type).toList ∧
      w'.exit = w.exit := by
  obtain ⟨⟨u, e⟩, hget, hw'⟩ := Option.bind_eq_some_iff.mp h
  cases hw'
  obtain ⟨htypes, hexit, hroom⟩ := get_eq_some hget
  obtain ⟨hhandled, hexit'⟩ := handle_types hroom e
  exact ⟨_, _, htypes, hhandled, hexit'.trans hexit⟩

theorem loopNext_types (h : w.loopNext () = some w') :
    w.exit = false ∧ ∃ type rest, w.types = type :: rest ∧
      (type = msgOnDisconnect ∧ w'.types = rest ∧ w'.exit = true ∨
        type ≠ msgOnDisconnect ∧ w'.types = rest ++ (answer type).toList ∧ w'.exit = false) := by
  unfold loopNext at h
  split at h
  · cases h
  · rename_i hrunning
    rw [Bool.not_eq_true] at hrunning
    obtain ⟨⟨u, e⟩, hget, hw'⟩ := Option.bind_eq_some_iff.mp h
    obtain ⟨htypes, hexit, hroom⟩ := get_eq_some hget
    refine ⟨hrunning, _, _, htypes, ?_⟩
    dsimp only at hw'
    split at hw'
    · rename_i htype
      cases hw'
      exact Or.inl ⟨htype, rfl, rfl⟩
    · rename_i htype
      cases hw'
      obtain ⟨hhandled, hexit'⟩ := handle_types hroom e
      exact Or.inr ⟨htype, hhandled, hexit'.trans (hexit.trans hrunning)⟩

theorem next_isSome (h : w.types ≠ []) : ∃ w', w.next () = some w' := by
  obtain ⟨u, e, hget⟩ := get_isSome h
  exact ⟨u.handle e, by simp [next, hget]⟩

theorem loopNext_isSome (h : w.types ≠ []) (hexit : w.exit = false) :
    ∃ w', w.loopNext () = some w' := by
  obtain ⟨u, e, hget⟩ := get_isSome h
  simp only [loopNext, hexit, Bool.false_eq_true, if_false, hget, Option.bind_eq_bind,
    Option.bind_some]
  split <;> exact ⟨_, rfl⟩

/-! ### The measure

A message answers with one of less weight, but for a message to send, which answers with its like.
So the weights of the queue go down in all other steps.
-/

/-- How often the message is handled, its answer included. -/
def weight (type : Int) : Nat := if type = serverDataRecieved then 2 else 1

/-- The weight of everything there is to handle. -/
def load (w : HandlerWork) : Nat := (w.types.map weight).sum

/-- An answer weighs less than what it answers, but for a message to send. -/
theorem answer_lt {type : Int} (h : type ≠ msgOnSend) :
    ((answer type).toList.map weight).sum < weight type := by
  unfold answer weight
  rw [if_neg h]
  split
  · decide
  · decide

theorem load_lt {type : Int} {rest : List Int} (h : w.types = type :: rest)
    (hsend : type ≠ msgOnSend) (h' : w'.types = rest ++ (answer type).toList) :
    w'.load < w.load := by
  have hless := answer_lt hsend
  rw [load, load, h, h', List.map_append, List.sum_append, List.map_cons, List.sum_cons]
  omega

/-- The queue is empty after finitely many steps. -/
def Ends (step : HandlerWork → Unit → Option HandlerWork) (w : HandlerWork) : Prop :=
  ∃ ls t, exec step w ls = some t ∧ t.queue.pending = []

theorem types_eq_nil : w.types = [] ↔ w.queue.pending = [] := List.map_eq_nil_iff

/-! ### Every event to `t_OnEvent` -/

theorem answer_ne_send {type t : Int} (h : type ≠ msgOnSend) (ht : t ∈ (answer type).toList) :
    t = msgOnRecieve ∧ type = serverDataRecieved := by
  unfold answer at ht
  rw [if_neg h] at ht
  split at ht
  · rename_i hdata
    exact ⟨by simpa using ht, hdata⟩
  · simp at ht

/-- A message to send stays for ever, and none comes where none is. -/
theorem send_mem_iff {type : Int} {rest : List Int} :
    msgOnSend ∈ rest ++ (answer type).toList ↔ msgOnSend ∈ type :: rest := by
  rw [List.mem_append, List.mem_cons]
  by_cases htype : type = msgOnSend
  · subst htype
    exact ⟨fun _ => Or.inl rfl, fun _ => Or.inr (by decide)⟩
  · constructor
    · rintro (hrest | hanswer)
      · exact Or.inr hrest
      · exact absurd (answer_ne_send htype hanswer).1 (by decide)
    · rintro (hsame | hrest)
      · exact absurd hsame.symm htype
      · exact Or.inl hrest

theorem next_ends_iff (w : HandlerWork) : Ends next w ↔ msgOnSend ∉ w.types := by
  refine reaches_iff (P := fun u => msgOnSend ∉ u.types) load (fun u hnil => ?_)
    (fun u _ v hstep => ?_) fun u hu => ?_
  · rw [types_eq_nil.mpr hnil]
    exact List.not_mem_nil
  · obtain ⟨type, rest, htypes, htypes', -⟩ := next_types hstep
    rw [htypes, htypes', send_mem_iff]
  · by_cases hnil : u.types = []
    · exact Or.inl (types_eq_nil.mp hnil)
    · obtain ⟨v, hstep⟩ := next_isSome hnil
      obtain ⟨type, rest, htypes, htypes', -⟩ := next_types hstep
      refine Or.inr ⟨(), v, hstep, load_lt htypes (fun heq => hu ?_) htypes'⟩
      rw [htypes, heq]
      exact List.mem_cons_self

/-! ### The loop of `RunProgram`

The loop takes the first message with the type of its `Exit` for the end.  What is behind that
stays, and what is in front is handled first, its answers going to the end.
-/

/-- Nothing is left where the loop ends: there is no message to send, and where there is one that
the loop takes for its own `Exit`, it is the last, and none in front of it is answered. -/
structure Clean (types : List Int) : Prop where
  send : msgOnSend ∉ types
  last : msgOnDisconnect ∉ types.dropLast
  unanswered : msgOnDisconnect ∈ types → serverDataRecieved ∉ types

instance (types : List Int) : Decidable (Clean types) :=
  decidable_of_iff (msgOnSend ∉ types ∧ msgOnDisconnect ∉ types.dropLast ∧
      (msgOnDisconnect ∈ types → serverDataRecieved ∉ types))
    ⟨fun h => ⟨h.1, h.2.1, h.2.2⟩, fun h => ⟨h.send, h.last, h.unanswered⟩⟩

theorem not_mem_dropLast_cons {t d : Int} {rest : List Int} :
    d ∉ (t :: rest).dropLast ↔ rest = [] ∨ d ≠ t ∧ d ∉ rest.dropLast := by
  cases rest with
  | nil => simp
  | cons a rest => simp

theorem clean_disconnect_cons {rest : List Int} : Clean (msgOnDisconnect :: rest) ↔ rest = [] := by
  constructor
  · intro h
    exact (not_mem_dropLast_cons.mp h.last).resolve_right fun hne => hne.1 rfl
  · rintro rfl
    decide

/-- What is answered behind the rest must have no message in it that ends the loop. -/
theorem clean_data_cons {rest : List Int} :
    Clean (serverDataRecieved :: rest) ↔ Clean (rest ++ [msgOnRecieve]) := by
  have hsend : msgOnSend ∈ rest ++ [msgOnRecieve] ↔ msgOnSend ∈ serverDataRecieved :: rest :=
    @send_mem_iff serverDataRecieved rest
  constructor
  · intro hc
    have hrest : msgOnDisconnect ∉ rest := fun hmem =>
      hc.unanswered (List.mem_cons_of_mem _ hmem) List.mem_cons_self
    refine ⟨fun hmem => hc.send (hsend.mp hmem), ?_, fun hmem => ?_⟩
    · rwa [List.dropLast_concat]
    · rcases List.mem_append.mp hmem with hmem | hmem
      · exact absurd hmem hrest
      · exact absurd hmem (by decide)
  · intro hc
    have hrest : msgOnDisconnect ∉ rest := by
      have hlast := hc.last
      rwa [List.dropLast_concat] at hlast
    have hnone : msgOnDisconnect ∉ serverDataRecieved :: rest := fun hmem =>
      (List.mem_cons.mp hmem).elim (by decide) hrest
    exact ⟨fun hmem => hc.send (hsend.mpr hmem), fun hmem => hnone (List.dropLast_subset _ hmem),
      fun hmem => absurd hmem hnone⟩

theorem clean_other_cons {type : Int} {rest : List Int} (hdisconnect : type ≠ msgOnDisconnect)
    (hsend : type ≠ msgOnSend) (hdata : type ≠ serverDataRecieved) :
    Clean (type :: rest) ↔ rest = [] ∨ Clean rest := by
  have hmem {t : Int} (hne : type ≠ t) : t ∈ type :: rest ↔ t ∈ rest :=
    List.mem_cons.trans (or_iff_right hne.symm)
  constructor
  · intro hc
    refine (not_mem_dropLast_cons.mp hc.last).imp_right fun hlast => ⟨?_, hlast.2, ?_⟩
    · exact fun h => hc.send ((hmem hsend).mpr h)
    · exact fun h h' => hc.unanswered ((hmem hdisconnect).mpr h) ((hmem hdata).mpr h')
  · rintro (rfl | hc)
    · exact ⟨by simpa using hsend.symm, by simp,
        fun h => absurd h (by simpa using hdisconnect.symm)⟩
    · refine ⟨fun h => hc.send ((hmem hsend).mp h), ?_, fun h h' => ?_⟩
      · exact not_mem_dropLast_cons.mpr (Or.inr ⟨hdisconnect.symm, hc.last⟩)
      · exact hc.unanswered ((hmem hdisconnect).mp h) ((hmem hdata).mp h')

/-- Any message but that is clean in front if what it leaves is. -/
theorem clean_cons {type : Int} {rest : List Int} (h : type ≠ msgOnDisconnect) :
    Clean (type :: rest) ↔
      rest ++ (answer type).toList = [] ∨ Clean (rest ++ (answer type).toList) := by
  by_cases hsend : type = msgOnSend
  · have hmem : msgOnSend ∈ rest ++ (answer type).toList :=
      send_mem_iff.mpr (hsend ▸ List.mem_cons_self)
    refine iff_of_false (fun hc => hc.send (hsend ▸ List.mem_cons_self)) ?_
    rintro (hnil | hc)
    · rw [hnil] at hmem
      cases hmem
    · exact hc.send hmem
  by_cases hdata : type = serverDataRecieved
  · subst hdata
    refine clean_data_cons.trans ⟨Or.inr, fun hc => hc.resolve_left ?_⟩
    exact List.append_ne_nil_of_right_ne_nil rest (by decide)
  · rw [clean_other_cons h hsend hdata, answer, if_neg hsend, if_neg hdata, Option.toList_none,
      List.append_nil]

/-- The loop comes to an empty queue. -/
def Finishes (w : HandlerWork) : Prop := w.types = [] ∨ w.exit = false ∧ Clean w.types

/-- A step changes nothing about that. -/
theorem loopNext_finishes (h : w.loopNext () = some w') : w'.Finishes ↔ w.Finishes := by
  obtain ⟨hexit, type, rest, htypes, hstep⟩ := loopNext_types h
  have hw : w.Finishes ↔ Clean (type :: rest) := by
    simp [Finishes, htypes, hexit]
  rw [hw]
  rcases hstep with ⟨rfl, htypes', hexit'⟩ | ⟨hne, htypes', hexit'⟩
  · rw [clean_disconnect_cons]
    simp [Finishes, htypes', hexit']
  · rw [clean_cons hne, ← htypes']
    simp [Finishes, hexit']

theorem loopNext_ends_iff (w : HandlerWork) : Ends loopNext w ↔ w.Finishes := by
  refine reaches_iff load (fun u hnil => Or.inl (types_eq_nil.mpr hnil))
    (fun u _ v hstep => loopNext_finishes hstep) fun u hu => ?_
  by_cases hnil : u.types = []
  · exact Or.inl (types_eq_nil.mp hnil)
  obtain ⟨hexit, hclean⟩ := hu.resolve_left hnil
  obtain ⟨v, hstep⟩ := loopNext_isSome hnil hexit
  obtain ⟨-, type, rest, htypes, hcases⟩ := loopNext_types hstep
  have hsend : type ≠ msgOnSend := fun heq => by
    rw [htypes, heq] at hclean
    exact hclean.send List.mem_cons_self
  have hleft : v.types = rest ++ (answer type).toList := by
    rcases hcases with ⟨rfl, htypes', -⟩ | ⟨-, htypes', -⟩
    · exact htypes'.trans (List.append_nil rest).symm
    · exact htypes'
  exact Or.inr ⟨(), v, hstep, load_lt htypes hsend hleft⟩

/--
If every event goes to `t_OnEvent`, the queue is empty after finitely many steps if and only if no
message to send is in it.  If it is the loop that handles them, also a message that the loop takes
for its `Exit` must be the last, with no received data in front of it.
-/
theorem work_ends_iff (w : HandlerWork) :
    (Ends next w ↔ ∀ e ∈ w.queue.pending, e.iType ≠ msgOnSend) ∧
      (Ends loopNext w ↔ w.Finishes) := by
  refine ⟨(next_ends_iff w).trans ?_, loopNext_ends_iff w⟩
  rw [types, List.mem_map]
  exact ⟨fun h e he htype => h ⟨e, he, htype⟩, fun h ⟨e, he, htype⟩ => h e he htype⟩

/-- A queue with one message to send. -/
def oneToSend : HandlerWork :=
  (new (XLServerClientHandler.new 5 SocketConfig.new false false)).put
    (eventWith msgOnSend (some [104, 105]) 2)

theorem send_never_ends : oneToSend.queue.pending = [⟨some [104, 105], 2, msgOnSend⟩] ∧
    ¬ Ends next oneToSend ∧ ¬ Ends loopNext oneToSend := by
  refine ⟨by decide, fun h => ?_, fun h => ?_⟩
  · exact absurd ((next_ends_iff _).mp h) (by decide)
  · rcases (loopNext_ends_iff _).mp h with hnil | ⟨-, hclean⟩
    · exact absurd hnil (by decide)
    · exact absurd hclean (by decide)

end HandlerWork

end ServClient
