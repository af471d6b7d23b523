/-
When an `OpenSSLSession` frees the contexts it makes.

`Stop` does nothing unless `m_bStarted` is set, and that is the last thing `Start` does.  So a
context that a `Start` leaves half configured is never freed: `Stop` does not look at it, and the
next `Start` puts another in its place.
-/
import ServClient.SSLSession

namespace ServClient

open Runs Ledger

namespace OpenSSLSession

variable {s : OpenSSLSession} {a : SessionAnswers}

/-- What `Start` looks at to get past the part for the local verification. -/
def passesLocal (s : OpenSSLSession) (a : SessionAnswers) : Bool :=
  !s.localVerification || a.certificate && a.privateKey && decide (a.checkPrivateKey ≠ -1)

/-- What it looks at for the remote verification. -/
def passesRemote (s : OpenSSLSession) (a : SessionAnswers) : Bool :=
  !s.remoteVerification || a.verifyLocations

/-- `Start` gets to its end. -/
def passes (s : OpenSSLSession) (a : SessionAnswers) : Bool := s.passesLocal a && s.passesRemote a

theorem passes_of_configures (h : s.configures a = true) : s.passes a = true := by
  simp only [configures, passes, passesLocal, passesRemote, Bool.and_eq_true, Bool.or_eq_true,
    decide_eq_true_eq] at h ⊢
  refine ⟨h.1.imp_right fun hlocal => ⟨hlocal.1, ?_⟩, h.2⟩
  omega

/-! ### Calls on a context -/

/-- Calls that neither make nor free a context. -/
def Quiet (calls : List SessionCall) : Prop := ∀ c ∈ calls, c.entry = .other

theorem quiet_cons {c : SessionCall} {calls : List SessionCall} :
    Quiet (c :: calls) ↔ c.entry = .other ∧ Quiet calls := List.forall_mem_cons

/-- Calls are made, one after the other. -/
def callAll (s : OpenSSLSession) (calls : List SessionCall) : OpenSSLSession :=
  { s with log := s.log ++ calls }

@[simp] theorem callAll_nil (s : OpenSSLSession) : s.callAll [] = s := by
  rw [callAll, List.append_nil]

@[simp] theorem callAll_callAll (s : OpenSSLSession) (calls more : List SessionCall) :
    (s.callAll calls).callAll more = s.callAll (calls ++ more) := by
  rw [callAll, callAll, callAll, List.append_assoc]

@[simp] theorem call_eq (s : OpenSSLSession) (c : SessionCall) : s.call c = s.callAll [c] := rfl

@[simp] theorem callAll_made (s : OpenSSLSession) (calls : List SessionCall) :
    (s.callAll calls).made = s.made := rfl

/-! ### What `Start` does -/

theorem startLocal_eq (s : OpenSSLSession) (ctx : Nat) (a : SessionAnswers) :
    ∃ calls, Quiet calls ∧ s.startLocal ctx a = (s.callAll calls, s.passesLocal a) := by
  unfold passesLocal
  cases hlocal : s.localVerification with
  | false => exact ⟨[], List.forall_mem_nil _, by simp [startLocal, hlocal]⟩
  | true =>
      cases hcertificate : a.certificate with
      | false =>
          refine ⟨[.useCertificateFile ctx false], ?_, ?_⟩
          · simp [Quiet, SessionCall.entry]
          · simp [startLocal, hlocal, hcertificate]
      | true =>
          cases hkey : a.privateKey with
          | false =>
              refine ⟨[.useCertificateFile ctx true, .setDefaultPasswd ctx,
                .usePrivateKeyFile ctx false], ?_, ?_⟩
              · simp [Quiet, SessionCall.entry]
              · simp [startLocal, hlocal, hcertificate, hkey]
          | true =>
              refine ⟨[.useCertificateFile ctx true, .setDefaultPasswd ctx,
                .usePrivateKeyFile ctx true, .checkPrivateKey ctx a.checkPrivateKey], ?_, ?_⟩
              · simp [Quiet, SessionCall.entry]
              · by_cases hcheck : a.checkPrivateKey = -1 <;>
                  simp [startLocal, hlocal, hcertificate, hkey, hcheck]

theorem startRemote_eq (s : OpenSSLSession) (ctx : Nat) (a : SessionAnswers) :
    ∃ calls, Quiet calls ∧ s.startRemote ctx a = (s.callAll calls, s.passesRemote a) := by
  unfold passesRemote
  cases hremote : s.remoteVerification with
  | false => exact ⟨[], List.forall_mem_nil _, by simp [startRemote, hremote]⟩
  | true =>
      cases hlocations : a.verifyLocations with
      | false =>
          refine ⟨[.loadVerifyLocations ctx false], ?_, ?_⟩
          · simp [Quiet, SessionCall.entry]
          · simp [startRemote, hremote, hlocations]
      | true =>
          refine ⟨[.loadVerifyLocations ctx true, .setVerify ctx sslVerifyPeer], ?_, ?_⟩
          · simp [Quiet, SessionCall.entry]
          · simp [startRemote, hremote, hlocations]

/-- A `Start` that gets a context keeps it, and says it has started if it gets to its end. -/
theorem start_eq (hstarted : s.started = false) (hnew : a.ctxNew = true) :
    ∃ calls, Quiet calls ∧ s.start a =
      { s.callAll (.ctxNew (some s.made) :: calls) with
        connectionCtx := some s.made
        started := s.passes a
        made := s.made + 1 } := by
  let s₁ : OpenSSLSession :=
    { s.callAll [.ctxNew (some s.made)] with connectionCtx := some s.made, made := s.made + 1 }
  let s₂ := s₁.callAll [.setCipherList s.made a.cipherList]
  obtain ⟨before, hbefore, hlocal⟩ := startLocal_eq s₂ s.made a
  obtain ⟨after, hafter, hremote⟩ := startRemote_eq (s₂.callAll before) s.made a
  have hstart : s.start a = if !(s₂.startLocal s.made a).2 then (s₂.startLocal s.made a).1 else
      if !((s₂.startLocal s.made a).1.startRemote s.made a).2 then
        ((s₂.startLocal s.made a).1.startRemote s.made a).1
      else { ((s₂.startLocal s.made a).1.startRemote s.made a).1 with started := true } := by
    rw [start, if_neg (by rw [hstarted]; exact Bool.false_ne_true),
      if_neg (by rw [hnew]; exact Bool.false_ne_true)]
    rfl
  have hlocalSame : s₂.passesLocal a = s.passesLocal a := rfl
  have hremoteSame : (s₂.callAll before).passesRemote a = s.passesRemote a := rfl
  rw [hlocal, hremote, hlocalSame, hremoteSame] at hstart
  rw [hstart, passes]
  cases s.passesLocal a with
  | false =>
      refine ⟨.setCipherList s.made a.cipherList :: before, quiet_cons.mpr ⟨rfl, hbefore⟩, ?_⟩
      simp [s₁, s₂, callAll, hstarted]
  | true =>
      refine ⟨.setCipherList s.made a.cipherList :: (before ++ after),
        quiet_cons.mpr ⟨rfl, List.forall_mem_append.mpr ⟨hbefore, hafter⟩⟩, ?_⟩
      cases s.passesRemote a <;> simp [s₁, s₂, callAll, hstarted]

theorem start_of_started (hstarted : s.started = true) (a : SessionAnswers) : s.start a = s := by
  rw [start, if_pos hstarted]

theorem start_none (hstarted : s.started = false) (hnew : a.ctxNew = false) :
    s.start a = { s.callAll [.ctxNew none] with connectionCtx := none } := by
  rw [start, if_neg (by rw [hstarted]; exact Bool.false_ne_true), if_pos (by rw [hnew]; rfl)]
  rfl

/-! ### What `Stop` does -/

theorem stop_of_idle (hstarted : s.started = false) : s.stop = s := by
  rw [stop, if_pos (by rw [hstarted]; rfl)]

theorem stop_of_started {ctx : Nat} (hstarted : s.started = true)
    (hctx : s.connectionCtx = some ctx) :
    s.stop = { s.callAll [.ctxFree ctx] with connectionCtx := none, started := false } := by
  rw [stop, if_neg (by rw [hstarted]; exact Bool.false_ne_true), hctx]
  rfl

/-! ### The contexts in hand

`Start` returns early where a file cannot be loaded, and has the context by then.  `Stop` does
nothing for a session that has not started, so that context is not freed.
-/

theorem references_quiet {calls : List SessionCall} (h : Quiet calls) :
    (s.callAll calls).references = s.references :=
  held_append_other h

theorem references_new {ctx : Nat} {calls : List SessionCall} (h : Quiet calls) :
    (s.callAll (.ctxNew (some ctx) :: calls)).references = ctx :: s.references := by
  have htake : (SessionCall.ctxNew (some ctx)).entry = .take ctx := rfl
  rw [← List.singleton_append, ← callAll_callAll, references_quiet h, references, callAll,
    held_concat, add_take htake, references]

theorem references_free (ctx : Nat) :
    (s.callAll [.ctxFree ctx]).references = s.references.erase ctx := by
  have hgive : (SessionCall.ctxFree ctx).entry = .give ctx := rfl
  rw [references, callAll, held_concat, add_give hgive, references]

theorem sound_new {ctx : Nat} {calls : List SessionCall} (h : Quiet calls)
    (hsound : Sound SessionCall.entry s.log) :
    Sound SessionCall.entry (s.callAll (.ctxNew (some ctx) :: calls)).log := by
  rw [← List.singleton_append, ← callAll_callAll]
  refine (sound_append_other h).mpr (sound_concat.mpr ⟨hsound, fun c hgive => ?_⟩)
  cases hgive

/-- `Stop` frees the one context in hand. -/
theorem stop_frees {ctx : Nat} (hstarted : s.started = true) (hctx : s.connectionCtx = some ctx)
    (hsound : Sound SessionCall.entry s.log) (hheld : s.references = [ctx]) :
    Sound SessionCall.entry s.stop.log ∧ s.stop.references = [] := by
  rw [stop_of_started hstarted hctx]
  refine ⟨sound_concat.mpr ⟨hsound, fun c hgive => ?_⟩, ?_⟩
  · cases hgive
    have hmem : ctx ∈ s.references := hheld ▸ List.mem_singleton_self ctx
    exact hmem
  · exact (references_free ctx).trans (by rw [hheld, List.erase_cons_head])

end OpenSSLSession

namespace SessionRun

open OpenSSLSession

variable {r r' : SessionRun}

/-- The destructor, or a `Stop` made now, leaves every context freed once; and `m_bStarted` says
whether there is a context. -/
structure Released (r : SessionRun) : Prop where
  settled : Settled SessionCall.entry r.session.stop.log
  started_iff : r.session.started = true ↔
    ∃ ctx, r.session.connectionCtx = some ctx ∧ ctx ∈ r.session.references ∧ ctx ∈ r.configured

/-- A `Start` that gets a context loads all that is asked for. -/
def Configures (r : SessionRun) : SessionStep → Prop
  | .start a => r.session.started = false → a.ctxNew = true → r.session.configures a = true
  | .stop | .setLocalCertification _ | .setRemoteCertification _ => True

/-- A session that has started has one context in hand, one that has not has none. -/
structure Inv (r : SessionRun) : Prop where
  sound : Sound SessionCall.entry r.session.log
  running : r.session.started = true →
    ∃ ctx, r.session.connectionCtx = some ctx ∧ r.session.references = [ctx] ∧ ctx ∈ r.configured
  idle : r.session.started = false → r.session.connectionCtx = none ∧ r.session.references = []
  fresh : ∀ ctx ∈ r.configured, ctx < r.session.made

theorem inv_new : Inv new where
  sound := sound_nil
  running := fun h => by cases h
  idle := fun _ => ⟨rfl, rfl⟩
  fresh := fun ctx h => by cases h

theorem Inv.released (h : Inv r) : Released r := by
  cases hstarted : r.session.started with
  | false =>
      obtain ⟨hctx, hheld⟩ := h.idle hstarted
      refine ⟨?_, ?_⟩
      · rw [stop_of_idle hstarted]
        exact settled_iff.mpr ⟨h.sound, hheld⟩
      · rw [hstarted, hctx]
        simp
  | true =>
      obtain ⟨ctx, hctx, hheld, hconfigured⟩ := h.running hstarted
      refine ⟨?_, ?_⟩
      · exact settled_iff.mpr (stop_frees hstarted hctx h.sound hheld)
      · exact iff_of_true hstarted
          ⟨ctx, hctx, hheld ▸ List.mem_singleton_self ctx, hconfigured⟩

/-- A `Start` that gets a context and loads all that is asked for. -/
theorem inv_start_configures {a : SessionAnswers} (h : Inv r)
    (hstarted : r.session.started = false) (hnew : a.ctxNew = true)
    (hconfigures : r.session.configures a = true) (hs : r.next (.start a) = some r') : Inv r' := by
  obtain ⟨calls, hquiet, heq⟩ := start_eq hstarted hnew
  have hr' : r' = ⟨r.session.start a, r.session.made :: r.configured⟩ := by
    simp only [next, hstarted, hnew, hconfigures] at hs
    exact (Option.some.inj hs).symm
  have hheld : (r.session.start a).references = [r.session.made] := by
    rw [heq]
    exact (references_new hquiet).trans (by rw [(h.idle hstarted).2])
  have hpasses : (r.session.start a).started = true := by
    rw [heq]
    exact passes_of_configures hconfigures
  subst hr'
  refine ⟨?_, fun _ => ⟨r.session.made, by rw [heq], hheld, List.mem_cons_self⟩, ?_, ?_⟩
  · rw [heq]
    exact sound_new hquiet h.sound
  · intro hfalse
    rw [hpasses] at hfalse
    cases hfalse
  · intro ctx hctx
    have hmade : (r.session.start a).made = r.session.made + 1 := by rw [heq]
    rw [hmade]
    rcases List.mem_cons.mp hctx with rfl | hctx
    · exact Nat.lt_succ_self _
    · exact Nat.lt_succ_of_lt (h.fresh ctx hctx)

theorem inv_start {a : SessionAnswers} (h : Inv r) (hq : Configures r (.start a))
    (hs : r.next (.start a) = some r') : Inv r' := by
  cases hstarted : r.session.started with
  | true =>
      have hr' : r' = r := by
        simp only [next, start_of_started hstarted, hstarted] at hs
        exact (Option.some.inj hs).symm
      exact hr' ▸ h
  | false =>
      cases hnew : a.ctxNew with
      | true => exact inv_start_configures h hstarted hnew (hq hstarted hnew) hs
      | false =>
          have hr' : r' = { r with
              session := { r.session.callAll [.ctxNew none] with connectionCtx := none } } := by
            simp only [next, start_none hstarted hnew, hnew] at hs
            simpa using (Option.some.inj hs).symm
          have hquiet : Quiet [.ctxNew none] := quiet_cons.mpr ⟨rfl, List.forall_mem_nil _⟩
          subst hr'
          refine ⟨(sound_append_other hquiet).mpr h.sound, fun htrue => ?_, fun _ => ⟨rfl, ?_⟩,
            h.fresh⟩
          · cases hstarted.symm.trans htrue
          · exact (references_quiet hquiet).trans (h.idle hstarted).2

/-- A `Start` that gets a context and does not load all that is asked for. -/
theorem not_released_start {a : SessionAnswers} (h : Inv r)
    (hstarted : r.session.started = false) (hnew : a.ctxNew = true)
    (hconfigures : r.session.configures a = false) (hs : r.next (.start a) = some r') :
    ¬ Released r' := by
  obtain ⟨calls, hquiet, heq⟩ := start_eq hstarted hnew
  have hr' : r' = ⟨r.session.start a, r.configured⟩ := by
    simp only [next, hconfigures, Bool.and_false] at hs
    exact (Option.some.inj hs).symm
  have hheld : (r.session.start a).references = [r.session.made] := by
    rw [heq]
    exact (references_new hquiet).trans (by rw [(h.idle hstarted).2])
  subst hr'
  intro hreleased
  cases hpasses : (r.session.start a).started with
  | false =>
      -- `Stop` does nothing, and the context stays.
      have hsettled := hreleased.settled
      rw [stop_of_idle hpasses] at hsettled
      have hnone : (r.session.start a).references = [] := (settled_iff.mp hsettled).2
      rw [hheld] at hnone
      cases hnone
  | true =>
      -- The session says it has started, with a context that is not configured.
      obtain ⟨ctx, -, hmem, hconfigured⟩ := hreleased.started_iff.mp hpasses
      rw [hheld, List.mem_singleton] at hmem
      exact absurd (h.fresh ctx hconfigured) (by omega)

theorem inv_stop (h : Inv r) (hs : r.next .stop = some r') : Inv r' := by
  cases hs
  cases hstarted : r.session.started with
  | false =>
      rw [stop_of_idle hstarted]
      exact h
  | true =>
      obtain ⟨ctx, hctx, hheld, -⟩ := h.running hstarted
      obtain ⟨hsound, hnone⟩ := stop_frees hstarted hctx h.sound hheld
      have hstop := stop_of_started hstarted hctx
      refine ⟨hsound, fun htrue => ?_, fun _ => ⟨?_, hnone⟩, ?_⟩
      · simp [hstop] at htrue
      · simp [hstop]
      · simpa [hstop] using h.fresh

theorem inv_next {l : SessionStep} (h : Inv r) (hq : Configures r l) (hs : r.next l = some r') :
    Inv r' := by
  cases l with
  | start a => exact inv_start h hq hs
  | stop => exact inv_stop h hs
  | setLocalCertification set =>
      cases hs
      exact ⟨h.sound, h.running, h.idle, h.fresh⟩
  | setRemoteCertification set =>
      cases hs
      exact ⟨h.sound, h.running, h.idle, h.fresh⟩

/--
Through any sequence of `Start`, `Stop` and settings of the flags every context is freed once, and
`m_bStarted` tells whether there is one, if and only if every `Start` that gets a context loads
all that is asked for.
-/
theorem released_iff {ls : List SessionStep} (hrun : exec next new ls = some r) :
    Throughout next Released new ls ↔ Along next Configures new ls := by
  refine throughout_iff_along (I := Inv) (fun _ h => h.released)
    (fun u l v hu hl hstep => inv_next hu hl hstep) (fun u l v hu hl hstep => ?_) inv_new hrun
  cases l with
  | start a =>
      simp only [Configures, Classical.not_imp, Bool.not_eq_true] at hl
      obtain ⟨hstarted, hnew, hconfigures⟩ := hl
      exact not_released_start hu hstarted hnew hconfigures hstep
  | stop | setLocalCertification set | setRemoteCertification set => exact absurd trivial hl

/-- Every answer is the best one. -/
def served : SessionAnswers where
  ctxNew := true
  cipherList := true
  certificate := true
  privateKey := true
  checkPrivateKey := 1
  verifyLocations := true

theorem released_iff_restart :
    Throughout next Released new
        [.setLocalCertification true, .start served, .stop, .start served] ↔
      Along next Configures new
        [.setLocalCertification true, .start served, .stop, .start served] := by
  obtain ⟨r, hr⟩ := Option.isSome_iff_exists.mp (show (exec next new
    [.setLocalCertification true, .start served, .stop, .start served]).isSome = true by decide)
  exact released_iff hr

/-- The certificate cannot be loaded, and no `Stop` frees the context. -/
theorem half_configured_kept : ∃ r, exec next new
    [.setLocalCertification true, .start { served with certificate := false }, .stop] = some r ∧
      ¬ Released r := by
  refine ⟨_, rfl, fun h => ?_⟩
  exact absurd (settled_iff.mp h.settled).2 (by decide)

end SessionRun

end ServClient
