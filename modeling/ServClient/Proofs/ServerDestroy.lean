/-
The end of a server.

The destructor takes the gate of every service in the map.  A gate has one permit, and
`StartAService` has taken it.  `StopAService` would give it back, but it has deleted the service by
then, and its row is still in the map.

So the destructor waits for good at the first service that runs, and before that it may come to one
that has been deleted.  What could fail is that a gate is given after all; `Shut` keeps that it is
not.
-/
import ServClient.Proofs.Server

namespace ServClient

open Runs

namespace XLServer

variable {s s' t : XLServer} {i : Nat} {id : UInt64} {l : ServerStep}
  {f : XLCService → XLCService}

/-- The gate of every service that is there has been taken. -/
def Shut (s : XLServer) : Prop :=
  ∀ o ∈ s.objects, o.deleted = false → o.gate = { semCount := 1, maxCount := 1, created := true }

theorem mem_modify {o : XLCService} {objects : List XLCService}
    (h : o ∈ objects.modify i f) : o ∈ objects ∨ ∃ a ∈ objects, o = f a := by
  obtain ⟨j, hj⟩ := List.getElem?_of_mem h
  rw [List.getElem?_modify] at hj
  obtain ⟨a, ha, rfl⟩ := Option.map_eq_some_iff.mp hj
  have hmem := List.mem_of_getElem? ha
  split
  · exact Or.inr ⟨a, hmem, rfl⟩
  · exact Or.inl hmem

/-- Something is done with a service, and its gate is left alone, or it is deleted. -/
theorem Shut.use (h : Shut s) (hf : ∀ o, (f o).deleted = false → o.deleted = false ∧
    (f o).gate = o.gate) : Shut (s.use i f) := by
  unfold XLServer.use
  split
  · intro o ho hd
    rcases mem_modify ho with hold | ⟨a, ha, rfl⟩
    · exact h o hold hd
    · obtain ⟨had, hgate⟩ := hf a hd
      rw [hgate]
      exact h a ha had
  · exact h

theorem isAlive_use_delete (s : XLServer) (i : Nat) : (s.use i .delete).isAlive i = false := by
  unfold XLServer.use
  split
  · unfold isAlive
    rw [List.getElem?_modify]
    cases s.objects[i]? with
    | none => rfl
    | some o => simp [XLCService.delete]
  · rename_i halive
    exact Bool.eq_false_iff.mpr halive

/-- The gate is not given: the service has been deleted. -/
theorem Shut.stopAService (h : Shut s) (id : UInt64) : Shut (s.stopAService id) := by
  unfold XLServer.stopAService
  split
  · rename_i key i hfind
    have hstopped : Shut ((s.use i .stop).use i .delete) :=
      (h.use (f := .stop) fun o hd => ⟨hd, rfl⟩).use (f := .delete) fun o hd => by cases hd
    rw [XLServer.use.eq_def _ _ .giveGate, if_neg (by rw [isAlive_use_delete]; decide)]
    exact hstopped
  · exact h

theorem Shut.foldl (rows : List (UInt64 × Nat)) (h : Shut s) (msg : Option (List UInt8))
    (len : Int) : Shut (rows.foldl (fun s r => s.use r.2 (.broadcast msg len)) s) := by
  induction rows generalizing s with
  | nil => exact h
  | cons r rest ih => exact ih (h.use (f := .broadcast msg len) fun o hd => ⟨hd, rfl⟩)

theorem insert_rows (s : XLServer) (id : UInt64) (i : Nat) :
    ∃ rows, rows ≠ [] ∧ s.insert id i = { s with clientServices := rows } := by
  unfold XLServer.insert
  split
  · rename_i hfound
    refine ⟨s.clientServices, fun hnone => ?_, rfl⟩
    rw [find_isSome, keys, hnone] at hfound
    cases hfound
  · refine ⟨_, fun hnone => ?_, rfl⟩
    have hlength := List.orderedInsert_length (fun a b : UInt64 × Nat => a.1 ≤ b.1)
      s.clientServices (id, i)
    rw [hnone] at hlength
    cases hlength

/-- `StartAService` makes a service and takes its gate, whether or not the map has the key. -/
theorem startAService_made {created : Bool} {socket : Option UInt64}
    (hs : s.startAService id created socket = some s') :
    s'.objects = s.objects ++ [startedService id created socket] ∧ s'.clientServices ≠ [] := by
  obtain ⟨rows, hrows, hinsert⟩ :=
    insert_rows { s with objects := s.objects ++ [XLCService.new id] } id s.objects.length
  simp only [startAService, hinsert] at hs
  rw [use_eq (isAlive_iff.mpr ⟨_, List.getElem?_concat_length, rfl⟩)] at hs
  have htake : ((XLCService.new id).start created socket).gate.take =
      some (XLSemaPhore.raise ⟨0, 1, true⟩) := rfl
  simp only [modify_concat, List.getElem?_concat_length, Option.bind_some, htake,
    Option.map_some] at hs
  rw [use_eq (isAlive_iff.mpr ⟨_, List.getElem?_concat_length, rfl⟩)] at hs
  simp only [modify_concat, Option.some.injEq] at hs
  subst hs
  exact ⟨rfl, hrows⟩

theorem foldl_clientServices (rows : List (UInt64 × Nat)) (s : XLServer) :
    (rows.foldl (fun s r => s.use r.2 f) s).clientServices = s.clientServices := by
  induction rows generalizing s with
  | nil => rfl
  | cons r rest ih => rw [List.foldl_cons, ih, use_clientServices]

/-- What a run keeps: the gates, and rows in the map once there was one. -/
theorem Shut.next (h : Shut s) (hstep : s.next l = some s') :
    Shut s' ∧ (s.clientServices ≠ [] → s'.clientServices ≠ []) := by
  cases l with
  | startAService id created socket =>
      simp only [XLServer.next] at hstep
      split at hstep
      · obtain ⟨hobjects, hrows⟩ := startAService_made hstep
        refine ⟨fun o ho hd => ?_, fun _ => hrows⟩
        rw [hobjects] at ho
        rcases List.mem_append.mp ho with hold | hnew
        · exact h o hold hd
        · rw [List.mem_singleton.mp hnew]
          rfl
      · cases hstep
  | stopAService id =>
      cases hstep
      refine ⟨h.stopAService id, fun hrows hnone => hrows ?_⟩
      have hkeys := stopAService_keys s id
      rw [keys, hnone, keys] at hkeys
      exact List.map_eq_nil_iff.mp hkeys.symm
  | broadcastTo msg len id =>
      cases hstep
      unfold XLServer.broadcastTo
      split
      · rw [use_clientServices]
        exact ⟨h.use (f := .broadcast msg len) fun o hd => ⟨hd, rfl⟩, fun hrows => hrows⟩
      · exact ⟨h, fun hrows => hrows⟩
  | broadcast msg len =>
      cases hstep
      refine ⟨h.foldl s.clientServices msg len, fun hrows hnone => hrows ?_⟩
      rwa [XLServer.broadcast, foldl_clientServices] at hnone
  | service i sl =>
      simp only [XLServer.next] at hstep
      split at hstep
      · rename_i o ho
        split at hstep
        · obtain ⟨o', ho', rfl⟩ := Option.map_eq_some_iff.mp hstep
          obtain ⟨service, -, rfl⟩ := Option.map_eq_some_iff.mp ho'
          refine ⟨fun x hx hd => ?_, fun hrows => hrows⟩
          rcases List.mem_or_eq_of_mem_set hx with hold | rfl
          · exact h x hold hd
          · exact h o (List.mem_of_getElem? ho) hd
        · cases hstep
      · cases hstep

/-! ### The destructor -/

/-- A gate is taken, or its service has been deleted. -/
theorem Shut.takeGate (h : Shut s) (i : Nat) :
    s.takeGate i = none ∨ s.takeGate i = some { s with fault := true } := by
  unfold XLServer.takeGate
  split
  · rename_i halive
    obtain ⟨o, ho, hd⟩ := isAlive_iff.mp halive
    refine Or.inl ?_
    rw [ho, Option.bind_some, h o (List.mem_of_getElem? ho) hd]
    rfl
  · exact Or.inr rfl

theorem Shut.foldlM_fault (rows : List (UInt64 × Nat)) (h : Shut s) (hfault : s.fault = true)
    (hs : rows.foldlM (fun s r => s.takeGate r.2) s = some t) : t.fault = true := by
  induction rows generalizing s with
  | nil =>
      cases hs
      exact hfault
  | cons r rest ih =>
      rw [List.foldlM_cons] at hs
      rcases h.takeGate r.2 with hwait | hdeleted
      · rw [hwait] at hs
        cases hs
      · rw [hdeleted] at hs
        exact ih (s := { s with fault := true }) h rfl hs

/-- With a row in the map the destructor waits for good, or comes to a deleted service. -/
theorem Shut.destroy (h : Shut s) (hrows : s.clientServices ≠ []) (hs : s.destroy = some t) :
    t.fault = true := by
  obtain ⟨r, rest, hcons⟩ := List.exists_cons_of_ne_nil hrows
  have hstart : Shut { s with fault := false } := h
  rw [XLServer.destroy] at hs
  generalize { s with fault := false } = u at hs hstart
  rw [hcons, List.foldlM_cons] at hs
  rcases hstart.takeGate r.2 with hwait | hdeleted
  · rw [hwait] at hs
    cases hs
  · rw [hdeleted] at hs
    exact Shut.foldlM_fault (s := { u with fault := true }) rest hstart rfl hs

/-- No service has been made. -/
structure Unused (s : XLServer) : Prop where
  clientServices : s.clientServices = []
  objects : s.objects = []

theorem Unused.next (h : Unused s) (hl : ∀ id created socket, l ≠ .startAService id created socket)
    (hstep : s.next l = some s') : Unused s' := by
  have hfind (id : UInt64) : s.find id = none := by
    rw [find, h.clientServices]
    rfl
  cases l with
  | startAService id created socket => exact absurd rfl (hl id created socket)
  | stopAService id =>
      cases hstep
      rw [XLServer.stopAService, hfind]
      exact h
  | broadcastTo msg len id =>
      cases hstep
      rw [XLServer.broadcastTo, hfind]
      exact h
  | broadcast msg len =>
      cases hstep
      rw [XLServer.broadcast, h.clientServices]
      exact h
  | service i sl =>
      simp [XLServer.next, h.objects] at hstep

/--
After any run of a server, whatever its services have done meanwhile, the destructor comes to its
end without a deleted service if and only if no service was ever started, stopped or not.
-/
theorem destroy_clean_iff {ls : List ServerStep} (hrun : exec next new ls = some s) :
    (∃ t, s.destroy = some t ∧ t.fault = false) ↔
      ∀ id created socket, .startAService id created socket ∉ ls := by
  constructor
  · rintro ⟨t, ht, hclean⟩ id created socket hmem
    obtain ⟨before, after, rfl⟩ := List.append_of_mem hmem
    rw [exec_append, Option.bind_eq_some_iff] at hrun
    obtain ⟨u, hbefore, hrest⟩ := hrun
    obtain ⟨v, hstart, hafter⟩ := exec_cons_eq_some.mp hrest
    have hu : Shut u := exec_invariant (I := Shut) (fun _ _ _ hu hl => (hu.next hl).1)
      (s := new) (fun o ho => absurd ho List.not_mem_nil) hbefore
    have hrows : v.clientServices ≠ [] := by
      simp only [XLServer.next] at hstart
      split at hstart
      · exact (startAService_made hstart).2
      · cases hstart
    have hs : Shut s ∧ s.clientServices ≠ [] :=
      exec_invariant (I := fun u => Shut u ∧ u.clientServices ≠ [])
        (fun _ _ _ hu hl => ⟨(hu.1.next hl).1, (hu.1.next hl).2 hu.2⟩)
        ⟨(hu.next hstart).1, hrows⟩ hafter
    rw [hs.1.destroy hs.2 ht] at hclean
    cases hclean
  · intro hnone
    have hs : Unused s := exec_invariant_along (I := Unused)
      (Q := fun _ l => ∀ id created socket, l ≠ .startAService id created socket)
      (fun _ _ _ hu hl hstep => hu.next hl hstep) (s := new) ⟨rfl, rfl⟩
      (along_of_forall fun l hl _ id created socket heq => hnone id created socket (by
        rw [← heq]
        exact hl)) hrun
    refine ⟨{ s with fault := false }, ?_, rfl⟩
    rw [XLServer.destroy, hs.clientServices]
    rfl

/-- A service is started and a message sent, and the destructor waits. -/
theorem destroy_clean_iff_oneService : ∃ s,
    exec next new [.startAService 4096 true (some 8192), .broadcast (some [7]) 1] = some s ∧
      ¬ ∃ t, s.destroy = some t ∧ t.fault = false := by
  obtain ⟨s, hs⟩ := Option.isSome_iff_exists.mp (show (exec next new
    [.startAService 4096 true (some 8192), .broadcast (some [7]) 1]).isSome = true by decide)
  exact ⟨s, hs, fun hclean =>
    (destroy_clean_iff hs).mp hclean 4096 true (some 8192) List.mem_cons_self⟩

end XLServer

end ServClient
