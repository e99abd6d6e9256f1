import Intake.Proof.Provenance
import Intake.Proof.Unwinding

/-!
# The grammar of the log

The log of a message is written by guards that look at different kinds of event.
A correction and a check are guarded by nothing of their own: they are written
only on the way to a confirmation, which guards itself. So they are found only in
the batch of a confirmation, a contiguous word

    corrected? authorisation_checked? confirmed

and there is at most one such word for a message. `Reviewed` is the invariant
that says so without mentioning batches.
-/

namespace Intake.Proof

open IntakeService ClassificationService EventLog

/-! ## The word of one confirmation -/

/-- The actions a confirmation writes, in order. -/
def confirmWord (corrected checked : Bool) : List AuditAction :=
  (if corrected then [.classificationCorrected] else [])
    ++ (if checked then [.followupAuthChecked] else []) ++ [.classificationConfirmed]

theorem confirmWord_nodup (corrected checked : Bool) : (confirmWord corrected checked).Nodup := by
  cases corrected <;> cases checked <;> decide

/-- The actions that are written on the way to a confirmation only. -/
def OnReview (a : AuditAction) : Prop := a = .classificationCorrected ∨ a = .followupAuthChecked

theorem OnReview.not_once {a : AuditAction} (h : OnReview a) : ¬ OncePerMessage a := by
  rcases h with rfl | rfl
  · rintro (h | h | h) <;> cases h
  · rintro (h | h | h) <;> cases h

theorem corrections_word (w : World) (m : IntakeMessage) (d : HumanDecision) (cid : PyStr) :
    ∃ corrected : Bool, (corrections w m d cid).map AuditDraft.action
      = if corrected then [.classificationCorrected] else [] := by
  unfold corrections
  split
  · exact ⟨false, rfl⟩
  · split_ifs
    · exact ⟨true, rfl⟩
    · exact ⟨false, rfl⟩

theorem Routed.word {r : CaseRegistry} {t : Instant} {m : IntakeMessage} {d : HumanDecision}
    {cid : PyStr} {o : ClassificationOutcome} {c : Option CaseId} {f : Effect}
    (h : Routed r t m d cid o c f) :
    ∃ checked : Bool, f.drafts.map AuditDraft.action = if checked then [.followupAuthChecked] else [] := by
  cases h with
  | authorised => exact ⟨true, rfl⟩
  | denied => exact ⟨true, rfl⟩
  | _ => exact ⟨false, rfl⟩

/-- **A confirmation writes one word, or nothing** if the message was confirmed before. -/
theorem Served.word {env : Env} {w : World} {m : IntakeMessage} {d : HumanDecision} {reply : Reply}
    {f : Effect} (h : Served env w (.confirm m d) reply f) :
    (∃ e, w.eventFor m.messageId .classificationConfirmed = some e) ∧ f.drafts = []
      ∨ w.eventFor m.messageId .classificationConfirmed = none
        ∧ ∃ corrected checked, f.drafts.map AuditDraft.action = confirmWord corrected checked := by
  cases h with
  | confirmReplayed h | confirmConflict h => exact Or.inl ⟨⟨_, h⟩, rfl⟩
  | @confirmed _ _ cid o c f hnone _ hr =>
      obtain ⟨corrected, hcorrected⟩ := corrections_word w m d cid
      obtain ⟨checked, hchecked⟩ := hr.word
      refine Or.inr ⟨hnone, corrected, checked, ?_⟩
      rw [List.map_append, List.map_append, hcorrected, hchecked]
      rfl

/-- Every other call writes decisions and proposals. -/
theorem Served.confirm_or {env : Env} {w : World} {call : MessageCall} {reply : Reply} {f : Effect}
    (h : Served env w call reply f) :
    (∃ m d, call = .confirm m d)
      ∨ ∀ x ∈ f.drafts, x.action = .intakeDecision ∨ x.action = .classificationProposed := by
  cases h with
  | intakeReplayed | proposeReplayed | proposeAfterIntake =>
      exact Or.inr fun x hx => absurd hx List.not_mem_nil
  | confirmReplayed | confirmConflict | confirmed => exact Or.inl ⟨_, _, rfl⟩
  | intakeAuthorised | intakeTriaged | proposeDenied =>
      refine Or.inr fun x hx => Or.inl ?_
      rw [List.mem_singleton.mp hx]
      rfl
  | proposeAsked _ _ _ ask =>
      refine Or.inr fun x hx => Or.inr ?_
      cases ask with
      | _ => rw [List.mem_singleton.mp hx]; rfl

/-! ## At most one event of every kind -/

/-- Corrections and checks are closed by a confirmation, and as rare as it is. -/
structure Reviewed (w : World) : Prop where
  once : ∀ x a, OnReview a → AtMostOnce (AuditDraft.isFor x a) w.trail
  closed : ∀ x a, OnReview a → w.eventFor x .classificationConfirmed = none →
    latest (AuditDraft.isFor x a) w.trail = none

theorem reviewed_init (registry : CaseRegistry) (ids : Stream' PyStr) :
    Reviewed (World.init registry ids) :=
  ⟨fun _ _ _ => atMostOnce_nil _, fun _ _ _ _ => rfl⟩

/-- A batch without corrections and checks keeps `Reviewed`. -/
theorem reviewed_of_unmatched {w w' : World} {f : Effect} (h : Reviewed w) (happ : Applied w f w')
    (hbatch : ∀ x a, OnReview a → latest (AuditDraft.isFor x a) f.drafts = none)
    (hkept : ∀ x, w'.eventFor x .classificationConfirmed = none →
      w.eventFor x .classificationConfirmed = none) : Reviewed w' := by
  refine ⟨?_, ?_⟩
  · intro x a ha
    rw [happ.trail]
    exact (h.once x a ha).append_right (hbatch x a ha)
  · intro x a ha hnone
    rw [happ.trail, latest_append_of_none (hbatch x a ha)]
    exact h.closed x a ha (hkept x hnone)

/-- A confirmation that was found once is found again. -/
theorem confirmed_kept {env : Env} {w : World} {req : Request} {x : MessageId}
    (h : (system env w req).2.eventFor x .classificationConfirmed = none) :
    w.eventFor x .classificationConfirmed = none := by
  cases hw : w.eventFor x .classificationConfirmed with
  | none => rfl
  | some e =>
      have hkept : (system env w req).2.eventFor x .classificationConfirmed = some e :=
        eventFor_step (Or.inr (Or.inr rfl)) hw req
      rw [h] at hkept
      exact absurd hkept (by simp)

/-- The message a draft was written for is the message of the call. -/
theorem Served.latest_of_ne {env : Env} {w : World} {call : MessageCall} {reply : Reply} {f : Effect}
    (h : Served env w call reply f) {x : MessageId} (hx : x ≠ call.message.messageId) (a : AuditAction) :
    latest (AuditDraft.isFor x a) f.drafts = none := by
  rw [AuditDraft.latest_isFor]
  intro d hd _ hid
  rw [(h.wrote d hd).messageId] at hid
  exact hx (Option.some.inj hid).symm

/-- A word leaves a confirmation in the log. -/
theorem Served.confirmed_after {env : Env} {w w' : World} {call : MessageCall} {reply : Reply} {f : Effect}
    (h : Served env w call reply f) (happ : Applied w f w')
    (hlast : AuditAction.classificationConfirmed ∈ f.drafts.map AuditDraft.action) :
    w'.eventFor call.message.messageId .classificationConfirmed ≠ none := by
  obtain ⟨y, hy, haction⟩ := List.mem_map.mp hlast
  have hfor : y.isFor call.message.messageId .classificationConfirmed = true :=
    AuditDraft.isFor_iff.mpr ⟨haction, (h.wrote y hy).messageId⟩
  intro hnone
  rw [World.eventFor_eq_none, happ.trail, latest_eq_none] at hnone
  exact absurd (hfor.symm.trans (hnone y (List.mem_append_right _ hy))) (by simp)

/-- The word of a first confirmation keeps `Reviewed`: the log had neither kind for its message. -/
theorem reviewed_of_word {env : Env} {w w' : World} {call : MessageCall} {reply : Reply} {f : Effect}
    (h : Reviewed w) (hs : Served env w call reply f) (happ : Applied w f w')
    (hnone : w.eventFor call.message.messageId .classificationConfirmed = none)
    {corrected checked : Bool} (hword : f.drafts.map AuditDraft.action = confirmWord corrected checked)
    (hkept : ∀ x, w'.eventFor x .classificationConfirmed = none →
      w.eventFor x .classificationConfirmed = none) : Reviewed w' := by
  refine ⟨?_, ?_⟩
  · intro x a ha
    rw [happ.trail]
    by_cases hx : x = call.message.messageId
    · subst hx
      refine AtMostOnce.append_left (h.closed _ a ha hnone) ?_
      exact atMostOnce_of_nodup (hword ▸ confirmWord_nodup corrected checked)
        fun e he => (AuditDraft.isFor_iff.mp he).1
    · exact (h.once x a ha).append_right (hs.latest_of_ne hx a)
  · intro x a ha hafter
    by_cases hx : x = call.message.messageId
    · subst hx
      refine absurd hafter (hs.confirmed_after happ ?_)
      rw [hword]
      exact List.mem_append_right _ (List.mem_singleton_self _)
    · rw [happ.trail, latest_append_of_none (hs.latest_of_ne hx a)]
      exact h.closed x a ha (hkept x hafter)

theorem reviewed_step {env : Env} (w : World) (req : Request) (h : Reviewed w) :
    Reviewed (system env w req).2 := by
  have hstart : ∀ r, Reviewed { w.during req.clock with registry := r } := fun _ => ⟨h.once, h.closed⟩
  rcases system_step env w req with ⟨call, f, _, hs, happ⟩ | ⟨r, f, hreg, _, _, _, happ⟩
  · rcases hs.confirm_or with ⟨m, d, rfl⟩ | honce
    · rcases hs.word with ⟨_, hnil⟩ | ⟨hnone, corrected, checked, hword⟩
      · exact reviewed_of_unmatched (hstart w.registry) happ (fun x a _ => by rw [hnil]; rfl)
          fun x => confirmed_kept
      · exact reviewed_of_word (hstart w.registry) hs happ hnone hword fun x => confirmed_kept
    · refine reviewed_of_unmatched (hstart w.registry) happ ?_ fun x => confirmed_kept
      intro x a ha
      rw [AuditDraft.latest_isFor]
      intro d hd haction
      rw [← haction] at ha
      exact absurd ((honce d hd).imp_right Or.inl) ha.not_once
  · exact reviewed_of_unmatched (hstart r) happ (fun x a _ => registered_latest hreg x a)
      fun x => confirmed_kept

theorem reviewed_reachable {env : Env} {w : World} (h : Reachable env w) : Reviewed w :=
  h.invariant reviewed_init reviewed_step

/-! ## Corrections come after proposals -/

theorem corrections_proposed {w : World} {m : IntakeMessage} {d : HumanDecision} {cid : PyStr} {x : AuditDraft}
    (h : x ∈ corrections w m d cid) : ∃ e, w.eventFor m.messageId .classificationProposed = some e := by
  unfold corrections at h
  cases hp : w.eventFor m.messageId .classificationProposed with
  | none => rw [hp] at h; exact absurd h List.not_mem_nil
  | some e => exact ⟨e, rfl⟩

/-- What a correction corrects. -/
def Corrects (proposed corrected : AuditDraft) : Prop :=
  proposed.action = .classificationProposed ∧ proposed.messageId = corrected.messageId

theorem Served.corrects {env : Env} {w : World} {call : MessageCall} {reply : Reply} {f : Effect}
    (h : Served env w call reply f) :
    ∀ x ∈ f.drafts, x.action = .classificationCorrected → ∃ p ∈ w.trail, Corrects p x := by
  intro x hx ha
  rcases h.confirm_or with ⟨m, d, rfl⟩ | honce
  · cases h with
    | confirmReplayed => exact absurd hx List.not_mem_nil
    | confirmConflict => exact absurd hx List.not_mem_nil
    | @confirmed _ _ cid _ _ g _ _ hr =>
        rcases List.mem_append.mp hx with hx | hx
        · rcases List.mem_append.mp hx with hx | hx
          · obtain ⟨e, he⟩ := corrections_proposed hx
            have hlatest := World.latest_of_eventFor he
            obtain ⟨haction, hid⟩ := AuditDraft.isFor_iff.mp (prop_of_latest hlatest)
            exact ⟨_, mem_of_latest hlatest, haction, by rw [hid, mem_corrections hx]; rfl⟩
          · obtain ⟨auth, rfl⟩ := hr.drafts_eq x hx
            cases ha
        · rw [List.mem_singleton.mp hx] at ha
          cases ha
  · exact absurd ((honce x hx).imp_right Or.inl) (OnReview.not_once (Or.inl ha))

/-- Every correction has an earlier proposal of its message. -/
def Corrected (w : World) : Prop :=
  CausedBy (fun d => d.action = .classificationCorrected) Corrects w.trail

theorem corrected_init (registry : CaseRegistry) (ids : Stream' PyStr) :
    Corrected (World.init registry ids) :=
  causedBy_nil _ _

theorem corrected_step {env : Env} (w : World) (req : Request) (h : Corrected w) :
    Corrected (system env w req).2 := by
  rcases system_step env w req with ⟨call, f, _, hs, happ⟩ | ⟨r, f, hreg, _, _, _, happ⟩
  · rw [Corrected, happ.trail]
    exact CausedBy.append h hs.corrects
  · rw [Corrected, happ.trail]
    refine CausedBy.append h fun d hd ha => ?_
    exact absurd ((hreg d hd).1.symm.trans ha) (by simp)

theorem corrected_reachable {env : Env} {w : World} (h : Reachable env w) : Corrected w :=
  h.invariant corrected_init corrected_step

/-! ## One proposal for every question to the classifier -/

theorem Routed.asked {r : CaseRegistry} {t : Instant} {m : IntakeMessage} {d : HumanDecision}
    {cid : PyStr} {o : ClassificationOutcome} {c : Option CaseId} {f : Effect}
    (h : Routed r t m d cid o c f) : f.asked = [] := by
  cases h <;> rfl

/-- **A call asks the classifier as often as it logs a proposal.** -/
theorem Served.asks {env : Env} {w : World} {call : MessageCall} {reply : Reply} {f : Effect}
    (h : Served env w call reply f) (x : MessageId) :
    (f.asked.filter fun shown => shown.messageId = x).length
      = (f.drafts.filter (AuditDraft.isFor x .classificationProposed)).length := by
  cases h with
  | intakeReplayed | proposeReplayed | proposeAfterIntake | confirmReplayed | confirmConflict => rfl
  | intakeAuthorised | intakeTriaged | proposeDenied => rfl
  | @proposeAsked m _ _ _ _ _ _ _ _ ask =>
      -- the projection and the draft name the same message
      cases ask with
      | _ =>
          simp only [List.filter_singleton, AuditDraft.isFor, proposalDraft, projectionAt]
          by_cases hx : m.messageId = x <;> simp [hx]
  | @confirmed m d cid o _ g _ _ hr =>
      have hnone := confirmed_latest (w := w) hr x (a := .classificationProposed) (Or.inr (Or.inl rfl))
      rw [List.filter_append, filter_eq_nil_of_latest hnone]
      show (g.asked.filter _).length = _
      rw [hr.asked]
      rfl

/-- The classifier was shown a message as often as a proposal was logged for it. -/
def Asks (w : World) : Prop :=
  ∀ x, (w.classified.filter fun shown => shown.messageId = x).length
    = (w.trail.filter (AuditDraft.isFor x .classificationProposed)).length

theorem asks_init (registry : CaseRegistry) (ids : Stream' PyStr) : Asks (World.init registry ids) :=
  fun _ => rfl

theorem asks_step {env : Env} (w : World) (req : Request) (h : Asks w) : Asks (system env w req).2 := by
  intro x
  have hw := h x
  rcases system_step env w req with ⟨call, f, _, hs, happ⟩ | ⟨r, f, hreg, _, _, hasked, happ⟩
  · rw [happ.classified, happ.trail, List.filter_append, List.filter_append, List.length_append,
      List.length_append, hs.asks x]
    exact congrArg (· + _) hw
  · rw [happ.classified, happ.trail, List.filter_append, List.filter_append, hasked,
      filter_eq_nil_of_latest (registered_latest hreg x .classificationProposed), List.filter_nil,
      List.append_nil, List.append_nil]
    exact hw

theorem asks_reachable {env : Env} {w : World} (h : Reachable env w) : Asks w :=
  h.invariant asks_init asks_step

/-! ## Sequence numbers -/

/-- The events are numbered by their positions. -/
def Sequenced (w : World) : Prop := Numbered AuditEvent.sequence w.audit

theorem sequenced_append (w : World) (d : AuditDraft) (h : Sequenced w) : Sequenced (w.append d) :=
  Numbered.concat h rfl

theorem sequenced_init (registry : CaseRegistry) (ids : Stream' PyStr) :
    Sequenced (World.init registry ids) :=
  numbered_nil _

theorem sequenced_step {env : Env} (w : World) (req : Request) (h : Sequenced w) :
    Sequenced (system env w req).2 :=
  system_preserves (P := Sequenced) (fun _ h => h) (fun _ h => h) sequenced_append (fun _ _ _ h => h)
    (fun _ _ h => h) (fun _ _ h => h) (fun _ _ h => h) (fun _ _ h => h) w req h

theorem sequenced_reachable {env : Env} {w : World} (h : Reachable env w) : Sequenced w :=
  h.invariant sequenced_init sequenced_step

/-! ## Blocks -/

/-- The new events of a message call are the drafts of its effect. -/
theorem newEvents_drafts {env : Env} {w : World} {req : Request} {f : Effect} {w₀ : World}
    (happ : Applied w₀ f (system env w req).2) (hw : w₀.audit = w.audit) :
    (newEvents env w req).map AuditEvent.toAuditDraft = f.drafts := by
  obtain ⟨es, hes, hmap⟩ := happ.appended
  rw [system_audit, hw, List.append_right_inj] at hes
  rw [hes, hmap]

/-- The log of a run is a prefix of the log of any longer one. -/
theorem runFrom_prefix (env : Env) (registry : CaseRegistry) (ids : Stream' PyStr) (reqs more : List Request) :
    (runFrom env registry ids reqs).audit <+: (runFrom env registry ids (reqs ++ more)).audit := by
  rw [runFrom, runFrom, Machine.run_append]
  exact Machine.run_prefix (fun w req => system_audit env w req ▸ List.prefix_append _ _) _ more

/-- **What one `confirm` appends**: nothing if the message was confirmed before, else one word about it. -/
theorem confirm_word (env : Env) (w : World) (m : IntakeMessage) (d : HumanDecision) (clock : Stream' Instant) :
    let batch := newEvents env w ⟨.message (.confirm m d), clock⟩
    (batch = [] ↔ ∃ e ∈ w.audit, e.action = .classificationConfirmed ∧ e.messageId = some m.messageId)
      ∧ (batch = [] ∨ (∃ corrected checked,
          batch.map (fun e => e.action) = confirmWord corrected checked)
        ∧ ∀ e ∈ batch, e.messageId = some m.messageId) := by
  intro batch
  obtain ⟨f, hs, happ⟩ := system_served env w (.confirm m d) clock
  have hdrafts : batch.map AuditEvent.toAuditDraft = f.drafts := newEvents_drafts happ rfl
  rcases hs.word with ⟨⟨e, he⟩, hnil⟩ | ⟨hnone, corrected, checked, hword⟩
  · rw [hnil, List.map_eq_nil_iff] at hdrafts
    obtain ⟨hmem, haction, hid⟩ := World.eventFor_spec he
    exact ⟨iff_of_true hdrafts ⟨e, hmem, haction, hid⟩, Or.inl hdrafts⟩
  · have hbatch : batch.map (fun e => e.action) = confirmWord corrected checked := by
      rw [← hword, ← hdrafts, List.map_map]
      rfl
    refine ⟨iff_of_false ?_ ?_, Or.inr ⟨⟨corrected, checked, hbatch⟩, fun e he => ?_⟩⟩
    · intro hempty
      rw [hempty, List.map_nil] at hbatch
      cases corrected <;> cases checked <;> cases hbatch
    · rintro ⟨e, hmem, haction, hid⟩
      rw [World.eventFor_eq_none, AuditDraft.latest_isFor] at hnone
      exact hnone e.toAuditDraft (List.mem_map_of_mem hmem) haction hid
    · exact (hs.wrote _ (hdrafts ▸ List.mem_map_of_mem he)).messageId

/-- **Corrections, checks and confirmations stand in the blocks of confirmations.** -/
theorem review_block {env : Env} {registry : CaseRegistry} {ids : Stream' PyStr} {reqs : List Request}
    {e : AuditEvent} (he : e ∈ (runFrom env registry ids reqs).audit)
    (ha : OnReview e.action ∨ e.action = .classificationConfirmed) :
    ∃ before batch after corrected checked,
      (runFrom env registry ids reqs).audit = before ++ batch ++ after ∧ e ∈ batch
        ∧ batch.map (fun e => e.action) = confirmWord corrected checked
        ∧ ∀ e' ∈ batch, e'.messageId = e.messageId := by
  have hregistered : e.action ≠ .caseRegistered := by
    rcases ha with (ha | ha) | ha <;> simp [ha]
  obtain ⟨pre, req, post, call, f, rfl, hcall, hnew, hs, hdraft⟩ := audit_origin he hregistered
  obtain ⟨call', clock⟩ := req
  obtain rfl : call' = .message call := hcall
  -- only a confirmation writes such an event
  have hconfirm : ∃ m d, call = .confirm m d := by
    rcases hs.confirm_or with hconfirm | honce
    · exact hconfirm
    · rcases honce _ hdraft with h | h <;> rcases ha with (ha | ha) | ha <;> cases ha.symm.trans h
  obtain ⟨m, d, rfl⟩ := hconfirm
  rcases (confirm_word env (runFrom env registry ids pre) m d clock).2 with
    hnil | ⟨⟨corrected, checked, hword⟩, hid⟩
  · rw [hnil] at hnew
    exact absurd hnew List.not_mem_nil
  · have hgrown := runFrom_prefix env registry ids (pre ++ [⟨.message (.confirm m d), clock⟩]) post
    rw [runFrom_concat, system_audit, List.append_assoc, List.singleton_append] at hgrown
    obtain ⟨after, hafter⟩ := hgrown
    exact ⟨_, _, after, corrected, checked, hafter.symm, hnew, hword,
      fun e' he' => (hid e' he').trans (hid e hnew).symm⟩

/-! ## The grammar -/

/--
**Every log is well formed.**

In every state of every run: events are numbered by their positions, and no later
run rewrites them. For each message there is at most one event of every kind. A
correction comes after a proposal. A confirmation appends nothing if its message was
confirmed before, and else one contiguous word `corrected? authorisation_checked?
confirmed`, and the first two kinds occur in such words only. The classifier was
asked once for each proposal.
-/
theorem log_well_formed (env : Env) (registry : CaseRegistry) (ids : Stream' PyStr) (reqs : List Request) :
    let w := runFrom env registry ids reqs
    (∀ n e, w.audit[n]? = some e → e.sequence = n + 1)
      ∧ (∀ more, w.audit <+: (runFrom env registry ids (reqs ++ more)).audit)
      ∧ (∀ x a, OncePerMessage a ∨ OnReview a →
        (w.audit.filter fun e => e.action = a && e.messageId = some x).length ≤ 1)
      ∧ CausedBy (fun e => e.action = .classificationCorrected)
        (fun p e => p.action = .classificationProposed ∧ p.messageId = e.messageId) w.audit
      ∧ (∀ m d clock, let batch := newEvents env w ⟨.message (.confirm m d), clock⟩
        (system env w ⟨.message (.confirm m d), clock⟩).2.audit = w.audit ++ batch
          ∧ (batch = [] ↔ ∃ e ∈ w.audit, e.action = .classificationConfirmed ∧ e.messageId = some m.messageId)
          ∧ (batch = [] ∨ (∃ corrected checked,
              batch.map (fun e => e.action) = confirmWord corrected checked)
            ∧ ∀ e ∈ batch, e.messageId = some m.messageId))
      ∧ (∀ e ∈ w.audit, OnReview e.action ∨ e.action = .classificationConfirmed →
        ∃ before batch after corrected checked, w.audit = before ++ batch ++ after ∧ e ∈ batch
          ∧ batch.map (fun e => e.action) = confirmWord corrected checked
          ∧ ∀ e' ∈ batch, e'.messageId = e.messageId)
      ∧ ∀ x, (w.classified.filter fun shown => shown.messageId = x).length
        = (w.audit.filter fun e => e.action = .classificationProposed && e.messageId = some x).length := by
  intro w
  have hw : Reachable env w := ⟨registry, ids, reqs, rfl⟩
  have hfilter : ∀ x a, (w.audit.filter fun e => e.action = a && e.messageId = some x).length
      = (w.trail.filter (AuditDraft.isFor x a)).length := by
    intro x a
    rw [World.trail, List.filter_map, List.length_map]
    rfl
  refine ⟨sequenced_reachable hw, runFrom_prefix env registry ids reqs, ?_, (corrected_reachable hw).of_map,
    fun m d clock => ⟨system_audit .., confirm_word env w m d clock⟩, fun e he ha => review_block he ha, ?_⟩
  · intro x a ha
    rw [hfilter]
    rcases ha with ha | ha
    · exact writeOnce_reachable hw x a ha
    · exact (reviewed_reachable hw).once x a ha
  · intro x
    rw [hfilter]
    exact asks_reachable hw x

end Intake.Proof
