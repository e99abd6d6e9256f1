import Intake.System

/-!
# What a call can do

`serve` has some fifteen branches. This module says once, for each of them, under
which guard it is taken, what it answers and what it writes; everything proved
later about single runs starts from `serve_served` and never unfolds an operation
again.

What a call writes is its `Effect`: the drafts it appends to the log, the items it
offers to the two queues and the projections it shows the classifier. `Applied`
says a world is another one with an effect on top.
-/

namespace Intake.Proof

open IntakeService ClassificationService

/-! ## Effects -/

/-- What a call writes. -/
structure Effect where
  /-- Appended to the audit log, before stamping. -/
  drafts : List AuditDraft := []
  /-- Offered to the triage queue. -/
  queued : List TriageItem := []
  /-- Offered to the clarification queue. -/
  tasked : List ClarificationTask := []
  /-- Shown to the classifier. -/
  asked : List MessageProjection := []

/-- One effect after another. -/
def Effect.andThen (f g : Effect) : Effect where
  drafts := f.drafts ++ g.drafts
  queued := f.queued ++ g.queued
  tasked := f.tasked ++ g.tasked
  asked := f.asked ++ g.asked

/-- `w'` is `w` with the effect applied; clock and id stream have moved on. -/
structure Applied (w : World) (f : Effect) (w' : World) : Prop where
  registry : w'.registry = w.registry
  /-- The log grew at its end. -/
  audit : w.audit <+: w'.audit
  /-- By exactly these drafts. -/
  trail : w'.trail = w.trail ++ f.drafts
  triage : w'.triage = w.triage.offerAll f.queued
  clarifications : w'.clarifications = w.clarifications.offerAll f.tasked
  classified : w'.classified = w.classified ++ f.asked

theorem Applied.refl (w : World) : Applied w {} w :=
  ⟨rfl, List.prefix_refl _, by simp, rfl, rfl, by simp⟩

theorem Applied.trans {w w' w'' : World} {f g : Effect} (h₁ : Applied w f w') (h₂ : Applied w' g w'') :
    Applied w (f.andThen g) w'' where
  registry := h₂.registry.trans h₁.registry
  audit := h₁.audit.trans h₂.audit
  trail := by rw [h₂.trail, h₁.trail, List.append_assoc]; rfl
  triage := by rw [h₂.triage, h₁.triage, ← KeyedQueue.offerAll_append]; rfl
  clarifications := by rw [h₂.clarifications, h₁.clarifications, ← KeyedQueue.offerAll_append]; rfl
  classified := by rw [h₂.classified, h₁.classified, List.append_assoc]; rfl

/-- The events behind the drafts. -/
theorem Applied.appended {w w' : World} {f : Effect} (h : Applied w f w') :
    ∃ es, w'.audit = w.audit ++ es ∧ es.map AuditEvent.toAuditDraft = f.drafts := by
  obtain ⟨es, hes⟩ := h.audit
  have htrail := h.trail
  rw [World.trail, ← hes, List.map_append] at htrail
  exact ⟨es, hes.symm, List.append_cancel_left htrail⟩

/-! ## The primitives -/

theorem applied_newId (w : World) : Applied w {} w.newId.2 :=
  ⟨rfl, List.prefix_refl _, by simp [World.newId, World.trail], rfl, rfl, by simp [World.newId]⟩

theorem applied_now (w : World) : Applied w {} w.now.2 :=
  ⟨rfl, List.prefix_refl _, by simp [World.now, World.trail], rfl, rfl, by simp [World.now]⟩

theorem applied_append (w : World) (d : AuditDraft) : Applied w { drafts := [d] } (w.append d) where
  registry := rfl
  audit := List.prefix_append _ _
  trail := World.trail_append w d
  triage := rfl
  clarifications := rfl
  classified := by simp [World.append, World.newId, World.now]

theorem applied_enqueueTriage (w : World) (m : IntakeMessage) (reason : ReasonCode) :
    Applied w { queued := [triageItem m reason w.ids.head] } (w.enqueueTriage m reason) where
  registry := rfl
  audit := List.prefix_refl _
  trail := by simp [World.enqueueTriage, World.newId, World.trail]
  triage := rfl
  clarifications := rfl
  classified := by simp [World.enqueueTriage, World.newId]

/-! ## Routing a confirmed decision -/

/-- What the gate answers when it lets a case through. -/
def granted (c : CaseId) : AuthorisationDecision := { kind := .authorised, caseId := some c }

/--
The outcome of `_route`, with its case id and effect, for registry `r`, instant
`t` and correlation id `cid`.
-/
inductive Routed (r : CaseRegistry) (t : Instant) (m : IntakeMessage) (d : HumanDecision) (cid : PyStr) :
    ClassificationOutcome → Option CaseId → Effect → Prop where
  /-- Explicit triage, or no class given. -/
  | flagged {iid : PyStr} (h : d.triage = true ∨ d.confirmedClass = none) :
      Routed r t m d cid .triage none { queued := [triageItem m .mixedOrFlagged iid] }
  | response (ht : d.triage = false) (hc : d.confirmedClass = some .response) :
      Routed r t m d cid .responseReady none {}
  | awaiting {tid : PyStr} (ht : d.triage = false) (hc : d.confirmedClass = some .newDeliverable)
      (hm : d.confirmedMissingFields ≠ []) :
      Routed r t m d cid .awaitingInputs none
        { tasked := [⟨tid, m.messageId, d.confirmedSubtype, d.confirmedMissingFields⟩] }
  | ready (ht : d.triage = false) (hc : d.confirmedClass = some .newDeliverable)
      (hm : d.confirmedMissingFields = []) :
      Routed r t m d cid .newDeliverableReady none {}
  | noCase {iid : PyStr} (ht : d.triage = false) (hc : d.confirmedClass = some .existingFollowup)
      (hs : d.selectedCaseId = none) :
      Routed r t m d cid .triage none { queued := [triageItem m .noCaseSelected iid] }
  | authorised {c : CaseId} (ht : d.triage = false) (hc : d.confirmedClass = some .existingFollowup)
      (hs : d.selectedCaseId = some c) (hg : (authorise r m.principalId c t).kind = .authorised) :
      Routed r t m d cid .followupAuthorised (some c)
        { drafts := [authCheckDraft m d (granted c) cid] }
  | denied {c : CaseId} {detail : DenialDetail} {iid : PyStr} (ht : d.triage = false)
      (hc : d.confirmedClass = some .existingFollowup) (hs : d.selectedCaseId = some c)
      (hg : authorise r m.principalId c t = deny detail) :
      Routed r t m d cid .triage none
        { drafts := [authCheckDraft m d (deny detail) cid]
          queued := [triageItem m .notAuthorised iid] }

theorem routeNewDeliverable_routed (w : World) (m : IntakeMessage) {d : HumanDecision} (cid : PyStr)
    (ht : d.triage = false) (hc : d.confirmedClass = some .newDeliverable) :
    ∃ f, Routed w.registry w.clock.head m d cid (routeNewDeliverable w m d).1.1
        (routeNewDeliverable w m d).1.2 f ∧ Applied w f (routeNewDeliverable w m d).2 := by
  unfold routeNewDeliverable
  split_ifs with hm
  · refine ⟨{ tasked := [⟨w.ids.head, m.messageId, d.confirmedSubtype, d.confirmedMissingFields⟩] },
      Routed.awaiting ht hc hm, ?_⟩
    exact ⟨rfl, List.prefix_refl _, by simp [World.newId, World.trail], rfl, rfl, by simp [World.newId]⟩
  · exact ⟨_, Routed.ready ht hc (not_not.mp hm), Applied.refl w⟩

theorem routeFollowup_routed (w : World) (m : IntakeMessage) {d : HumanDecision} (cid : PyStr)
    (ht : d.triage = false) (hc : d.confirmedClass = some .existingFollowup) :
    ∃ f, Routed w.registry w.clock.head m d cid (routeFollowup w m d cid).1.1
        (routeFollowup w m d cid).1.2 f ∧ Applied w f (routeFollowup w m d cid).2 := by
  unfold routeFollowup
  cases hs : d.selectedCaseId with
  | none => exact ⟨_, Routed.noCase ht hc hs, applied_enqueueTriage w m _⟩
  | some c =>
      have hcheck := fun auth => (applied_now w).trans
        (applied_append w.now.2 (authCheckDraft m d auth cid))
      dsimp only [World.now] at hcheck ⊢
      cases hk : (authorise w.registry m.principalId c w.clock.head).kind with
      | authorised =>
          rw [if_pos rfl, authorise_of_authorised hk]
          exact ⟨_, Routed.authorised ht hc hs hk, hcheck _⟩
      | triage =>
          obtain ⟨detail, hdeny⟩ := authorise_of_triage hk
          rw [if_neg (by simp), hdeny]
          exact ⟨_, Routed.denied ht hc hs hdeny, (hcheck _).trans (applied_enqueueTriage _ m _)⟩

/-- **Every way `_route` can go.** -/
theorem route_routed (w : World) (m : IntakeMessage) (d : HumanDecision) (cid : PyStr) :
    ∃ f, Routed w.registry w.clock.head m d cid (route w m d cid).1.1 (route w m d cid).1.2 f
      ∧ Applied w f (route w m d cid).2 := by
  unfold route
  cases ht : d.triage with
  | true => exact ⟨_, Routed.flagged (Or.inl ht), applied_enqueueTriage w m _⟩
  | false =>
      rw [if_neg Bool.false_ne_true]
      cases hc : d.confirmedClass with
      | none => exact ⟨_, Routed.flagged (Or.inr hc), applied_enqueueTriage w m _⟩
      | some cls =>
          cases cls with
          | response => exact ⟨_, Routed.response ht hc, Applied.refl w⟩
          | newDeliverable => exact routeNewDeliverable_routed w m cid ht hc
          | existingFollowup => exact routeFollowup_routed w m cid ht hc

/-! ## Deciding at ingress -/

/-- `_decide` writes nothing. -/
theorem decide_applied (w : World) (m : IntakeMessage) : Applied w {} (decide w m).2 := by
  unfold IntakeService.decide
  split
  · exact Applied.refl w
  · exact applied_now w
  · exact Applied.refl w

/-- `_decide` lets the single claimed case of an intact chain through, or names a reason. -/
theorem decide_cases (w : World) (m : IntakeMessage) :
    (∃ c, m.claimedCaseIds = [c]
        ∧ (authorise w.registry m.principalId c w.clock.head).kind = .authorised
        ∧ (decide w m).1 = granted c)
      ∨ ∃ reason detail, (decide w m).1 = { kind := .triage, reason := some reason, detail } := by
  unfold IntakeService.decide
  split
  · exact Or.inr ⟨_, _, rfl⟩
  · rename_i c hc
    cases hk : (authorise w.registry m.principalId c w.clock.head).kind with
    | authorised => exact Or.inl ⟨c, hc, hk, authorise_of_authorised hk⟩
    | triage =>
        obtain ⟨detail, hdeny⟩ := authorise_of_triage hk
        exact Or.inr ⟨_, some detail, hdeny⟩
  · exact Or.inr ⟨_, _, rfl⟩

/-! ## Asking the classifier -/

/-- What the classifier is shown for a message, at an instant. -/
def projectionAt (r : CaseRegistry) (t : Instant) (m : IntakeMessage) (text : PyStr) : MessageProjection where
  messageId := m.messageId
  principalId := m.principalId
  text := text
  candidateCaseIds :=
    m.claimedCaseIds.filter fun c => (authorise r m.principalId c t).kind = .authorised

/-- The result and effect of showing the classifier a projection. -/
inductive Asked (env : Env) (history : List MessageProjection) (m : IntakeMessage)
    (shown : MessageProjection) (cid : PyStr) :
    ProposalResult → Effect → Prop where
  | failed {iid : PyStr} (h : env.classify history shown = none) :
      Asked env history m shown cid ⟨none, true⟩
        { drafts := [proposalDraft m none .triage (some .classifierError) cid]
          queued := [triageItem m .classifierError iid]
          asked := [shown] }
  | flagged {p : ClassificationProposal} {reason : ReasonCode} {iid : PyStr}
      (h : env.classify history shown = some p) (hr : p.triageReason = some reason) :
      Asked env history m shown cid ⟨none, true⟩
        { drafts := [proposalDraft m (some p) .triage (some reason) cid]
          queued := [triageItem m reason iid]
          asked := [shown] }
  | pending {p : ClassificationProposal} (h : env.classify history shown = some p)
      (hr : p.triageReason = none) :
      Asked env history m shown cid ⟨some p, false⟩
        { drafts := [proposalDraft m (some p) .pending none cid], asked := [shown] }

theorem Asked.shown {env : Env} {history : List MessageProjection} {m : IntakeMessage}
    {shown : MessageProjection} {cid : PyStr} {r : ProposalResult} {f : Effect}
    (h : Asked env history m shown cid r f) : f.asked = [shown] := by
  cases h with
  | _ => rfl

theorem classify_applied (env : Env) (w : World) (shown : MessageProjection) :
    Applied w { asked := [shown] } (classify env w shown).2 :=
  ⟨rfl, List.prefix_refl _, by simp [ClassificationService.classify, World.trail], rfl, rfl, rfl⟩

/-- The world in which the classifier's answer to `shown` is acted on. -/
def shownWorld (env : Env) (w : World) (shown : MessageProjection) : World :=
  (classify env w.now.2 shown).2

theorem shownWorld_applied (env : Env) (w : World) (shown : MessageProjection) :
    Applied w { asked := [shown] } (shownWorld env w shown) :=
  (applied_now w).trans (classify_applied env w.now.2 shown)

theorem triageProposal_applied (w : World) (m : IntakeMessage) (p : Option ClassificationProposal)
    (reason : ReasonCode) (cid : PyStr) :
    ∃ iid, Applied w
      { drafts := [proposalDraft m p .triage (some reason) cid], queued := [triageItem m reason iid] }
      (triageProposal w m p reason cid).2 :=
  ⟨_, (applied_append w _).trans (applied_enqueueTriage _ m reason)⟩

/-- **Every way the classifier can answer.** -/
theorem askClassifier_asked (env : Env) (w : World) (m : IntakeMessage) (text cid : PyStr) :
    ∃ f, Asked env w.classified m (projectionAt w.registry w.clock.head m text) cid
        (askClassifier env w m text cid).1 f
      ∧ Applied w f (askClassifier env w m text cid).2 := by
  have hshown := shownWorld_applied env w (projectionAt w.registry w.clock.head m text)
  unfold askClassifier
  dsimp only
  generalize hx : ClassificationService.classify env (authorisedCandidates w m).2 _ = x
  have hanswer : env.classify w.classified (projectionAt w.registry w.clock.head m text) = x.1 := hx ▸ rfl
  have hworld : shownWorld env w (projectionAt w.registry w.clock.head m text) = x.2 := hx ▸ rfl
  obtain ⟨answer, w₁⟩ := x
  rw [hworld] at hshown
  cases answer with
  | none =>
      obtain ⟨iid, htriage⟩ := triageProposal_applied w₁ m none .classifierError cid
      exact ⟨_, Asked.failed hanswer, hshown.trans htriage⟩
  | some p =>
      dsimp only
      cases hr : p.triageReason with
      | none => exact ⟨_, Asked.pending hanswer hr, hshown.trans (applied_append _ _)⟩
      | some reason =>
          obtain ⟨iid, htriage⟩ := triageProposal_applied w₁ m (some p) reason cid
          exact ⟨_, Asked.flagged hanswer hr, hshown.trans htriage⟩

/-! ## Opening a confirmation -/

/-- The correction a confirmation records before it routes. -/
def corrections (w : World) (m : IntakeMessage) (d : HumanDecision) (cid : PyStr) : List AuditDraft :=
  match w.eventFor m.messageId .classificationProposed with
  | none => []
  | some proposed => if isCorrection proposed d then [correctionDraft m d cid] else []

theorem openConfirmation_applied (w : World) (m : IntakeMessage) (d : HumanDecision) :
    Applied w { drafts := corrections w m d (openConfirmation w m d).1 } (openConfirmation w m d).2 := by
  unfold corrections openConfirmation
  cases w.eventFor m.messageId .classificationProposed with
  | none => exact applied_newId w
  | some proposed =>
      dsimp only
      split_ifs
      · exact applied_append w _
      · exact Applied.refl w

/-- A confirmation takes over the correlation id of the proposal it answers. -/
theorem openConfirmation_correlationId {w : World} {m : IntakeMessage} {d : HumanDecision}
    {proposed : AuditEvent} (h : w.eventFor m.messageId .classificationProposed = some proposed) :
    (openConfirmation w m d).1 = proposed.correlationId := by
  unfold openConfirmation
  rw [h]
  dsimp only
  split_ifs <;> rfl

/-- The instant at which a confirmation evaluates the gate: the stamp of a correction is read before it. -/
def gateInstant (w : World) (m : IntakeMessage) (d : HumanDecision) : Instant :=
  match w.eventFor m.messageId .classificationProposed with
  | none => w.clock.get 0
  | some proposed => if isCorrection proposed d then w.clock.get 1 else w.clock.get 0

theorem openConfirmation_clock (w : World) (m : IntakeMessage) (d : HumanDecision) :
    (openConfirmation w m d).2.clock.head = gateInstant w m d := by
  unfold openConfirmation gateInstant
  cases w.eventFor m.messageId .classificationProposed with
  | none => rfl
  | some proposed =>
      dsimp only
      split_ifs
      · rfl
      · rfl

/-! ## Every branch of every call -/

/-- The branches of `serve`: guard, reply and effect. -/
inductive Served (env : Env) (w : World) : MessageCall → Reply → Effect → Prop where
  /-- `handle_intake` answers from the log. -/
  | intakeReplayed {m : IntakeMessage} {prior : AuditEvent} (h : w.decisionFor m.messageId = some prior) :
      Served env w (.handleIntake m) (.intake (decisionFromEvent prior)) {}
  /-- The single claimed case is authorised. -/
  | intakeAuthorised {m : IntakeMessage} {c : CaseId} {cid : PyStr}
      (h : w.decisionFor m.messageId = none) (hm : m.claimedCaseIds = [c])
      (hg : (authorise w.registry m.principalId c w.clock.head).kind = .authorised) :
      Served env w (.handleIntake m) (.intake (.ok (granted c)))
        { drafts := [intakeDecisionDraft m (granted c) cid] }
  /-- No single case, or a denial. -/
  | intakeTriaged {m : IntakeMessage} {reason : ReasonCode} {detail : Option DenialDetail}
      {cid iid : PyStr} (h : w.decisionFor m.messageId = none)
      (hd : (decide w m).1 = { kind := .triage, reason := some reason, detail }) :
      Served env w (.handleIntake m) (.intake (.ok { kind := .triage, reason := some reason, detail }))
        { drafts := [intakeDecisionDraft m { kind := .triage, reason := some reason, detail } cid]
          queued := [triageItem m reason iid] }
  /-- `propose` answers from its own event. -/
  | proposeReplayed {m : IntakeMessage} {text : PyStr} {proposed : AuditEvent}
      (h : w.eventFor m.messageId .classificationProposed = some proposed) :
      Served env w (.propose m text) (.proposal (proposalFromEvent proposed)) {}
  /-- `propose` finds an intake decision, and reports triage whatever the decision was. -/
  | proposeAfterIntake {m : IntakeMessage} {text : PyStr} {prior : AuditEvent}
      (h : w.eventFor m.messageId .classificationProposed = none)
      (hi : w.decisionFor m.messageId = some prior) :
      Served env w (.propose m text) (.proposal ⟨none, true⟩) {}
  /-- The single claimed case is denied at propose time. -/
  | proposeDenied {m : IntakeMessage} {text : PyStr} {c : CaseId} {detail : DenialDetail}
      {cid iid : PyStr} (h : w.eventFor m.messageId .classificationProposed = none)
      (hi : w.decisionFor m.messageId = none) (hm : m.claimedCaseIds = [c])
      (hg : authorise w.registry m.principalId c w.clock.head = deny detail) :
      Served env w (.propose m text) (.proposal ⟨none, true⟩)
        { drafts := [intakeDecisionDraft m (deny detail) cid]
          queued := [triageItem m .notAuthorised iid] }
  /-- The classifier is asked. -/
  | proposeAsked {m : IntakeMessage} {text cid : PyStr} {t : Instant} {r : ProposalResult} {f : Effect}
      (h : w.eventFor m.messageId .classificationProposed = none)
      (hi : w.decisionFor m.messageId = none)
      (hg : ∀ c, m.claimedCaseIds = [c] →
        (authorise w.registry m.principalId c w.clock.head).kind = .authorised)
      (ha : Asked env w.classified m (projectionAt w.registry t m text) cid r f) :
      Served env w (.propose m text) (.proposal r) f
  /-- `confirm` replays an identical decision. -/
  | confirmReplayed {m : IntakeMessage} {d : HumanDecision} {confirmed : AuditEvent}
      (h : w.eventFor m.messageId .classificationConfirmed = some confirmed)
      (hs : eventSignature confirmed = decisionSignature d) :
      Served env w (.confirm m d) (.confirmation (confirmFromEvent confirmed)) {}
  /-- `confirm` rejects a different decision. -/
  | confirmConflict {m : IntakeMessage} {d : HumanDecision} {confirmed : AuditEvent}
      (h : w.eventFor m.messageId .classificationConfirmed = some confirmed)
      (hs : eventSignature confirmed ≠ decisionSignature d) :
      Served env w (.confirm m d) (.confirmation (.error (.conflictingDecision m.messageId))) {}
  /-- The decision is the first for its message. -/
  | confirmed {m : IntakeMessage} {d : HumanDecision} {cid : PyStr} {outcome : ClassificationOutcome}
      {caseId : Option CaseId} {f : Effect}
      (h : w.eventFor m.messageId .classificationConfirmed = none)
      (hcid : ∀ proposed, w.eventFor m.messageId .classificationProposed = some proposed →
        cid = proposed.correlationId)
      (hr : Routed w.registry (gateInstant w m d) m d cid outcome caseId f) :
      Served env w (.confirm m d) (.confirmation (.ok ⟨outcome, caseId⟩))
        { f with
          drafts := corrections w m d cid ++ f.drafts ++ [confirmationDraft m d outcome cid] }

theorem handleIntake_served (env : Env) (w : World) (m : IntakeMessage) :
    ∃ f, Served env w (.handleIntake m) (.intake (handleIntake w m).1) f
      ∧ Applied w f (handleIntake w m).2 := by
  unfold handleIntake
  cases h : w.decisionFor m.messageId with
  | some prior => exact ⟨_, Served.intakeReplayed h, Applied.refl w⟩
  | none =>
      -- the draft is appended after the decision was taken and a correlation id drawn
      have hwrite := fun d => ((decide_applied w m).trans (applied_newId _)).trans
        (applied_append (decide w m).2.newId.2 (intakeDecisionDraft m d (decide w m).2.newId.1))
      dsimp only
      rcases decide_cases w m with ⟨c, hm, hg, hd⟩ | ⟨reason, detail, hd⟩
      · rw [hd]
        exact ⟨_, Served.intakeAuthorised h hm hg, hwrite _⟩
      · rw [hd]
        exact ⟨_, Served.intakeTriaged h hd, (hwrite _).trans (applied_enqueueTriage _ m reason)⟩

theorem propose_served (env : Env) (w : World) (m : IntakeMessage) (text : PyStr) :
    ∃ f, Served env w (.propose m text) (.proposal (propose env w m text).1) f
      ∧ Applied w f (propose env w m text).2 := by
  unfold propose
  cases h : w.eventFor m.messageId .classificationProposed with
  | some proposed => exact ⟨_, Served.proposeReplayed h, Applied.refl w⟩
  | none =>
      dsimp only
      cases hi : w.eventFor m.messageId .intakeDecision with
      | some prior => exact ⟨_, Served.proposeAfterIntake h hi, Applied.refl w⟩
      | none =>
          dsimp only
          split
          · rename_i c hm
            -- a single claimed case goes through the gate first
            have hgate : authorise w.newId.2.now.2.registry m.principalId c w.newId.2.now.1
                = authorise w.registry m.principalId c w.clock.head := rfl
            rw [hgate]
            cases hk : (authorise w.registry m.principalId c w.clock.head).kind with
            | triage =>
                obtain ⟨detail, hdeny⟩ := authorise_of_triage hk
                rw [if_pos rfl, hdeny]
                have hwrite := ((applied_newId w).trans (applied_now w.newId.2)).trans
                  (applied_append w.newId.2.now.2 (intakeDecisionDraft m (deny detail) w.newId.1))
                exact ⟨_, Served.proposeDenied h hi hm hdeny,
                  hwrite.trans (applied_enqueueTriage _ m .notAuthorised)⟩
            | authorised =>
                rw [if_neg (by simp)]
                obtain ⟨f, ha, happ⟩ := askClassifier_asked env w.newId.2.now.2 m text w.newId.1
                refine ⟨f, Served.proposeAsked h hi ?_ ha, ((applied_newId w).trans (applied_now _)).trans happ⟩
                intro c' hc'
                obtain rfl : c' = c := by simpa using hc'.symm.trans hm
                exact hk
          · rename_i hm
            obtain ⟨f, ha, happ⟩ := askClassifier_asked env w.newId.2 m text w.newId.1
            exact ⟨f, Served.proposeAsked h hi (fun c hc => absurd hc (hm c)) ha,
              (applied_newId w).trans happ⟩

theorem confirm_served (env : Env) (w : World) (m : IntakeMessage) (d : HumanDecision) :
    ∃ f, Served env w (.confirm m d) (.confirmation (confirm w m d).1) f
      ∧ Applied w f (confirm w m d).2 := by
  unfold confirm
  cases h : w.eventFor m.messageId .classificationConfirmed with
  | some confirmed =>
      dsimp only
      split_ifs with hs
      · exact ⟨_, Served.confirmReplayed h hs, Applied.refl w⟩
      · exact ⟨_, Served.confirmConflict h hs, Applied.refl w⟩
  | none =>
      dsimp only
      have hopen := openConfirmation_applied w m d
      obtain ⟨f, hr, happ⟩ := route_routed (openConfirmation w m d).2 m d (openConfirmation w m d).1
      rw [hopen.registry, openConfirmation_clock] at hr
      refine ⟨_, Served.confirmed h (fun _ => openConfirmation_correlationId) hr, ?_⟩
      have hall := (hopen.trans happ).trans (applied_append _ (confirmationDraft m d
        (route (openConfirmation w m d).2 m d (openConfirmation w m d).1).1.1
        (openConfirmation w m d).1))
      simpa [Effect.andThen] using hall

/-- **Every branch of every call.** -/
theorem serve_served (env : Env) (w : World) (call : MessageCall) :
    ∃ f, Served env w call (serve env w call).1 f ∧ Applied w f (serve env w call).2 := by
  cases call with
  | handleIntake m => exact handleIntake_served env w m
  | propose m text => exact propose_served env w m text
  | confirm m d => exact confirm_served env w m d

/-- The same, for a step of the system. -/
theorem system_served (env : Env) (w : World) (call : MessageCall) (clock : Stream' Instant) :
    ∃ f, Served env (w.during clock) call (system env w ⟨.message call, clock⟩).1 f
      ∧ Applied (w.during clock) f (system env w ⟨.message call, clock⟩).2 :=
  serve_served env (w.during clock) call

/-! ## What may stand in a log -/

/-- The drafts a call for message `m` can append. -/
inductive Wrote (m : IntakeMessage) : AuditDraft → Prop where
  | granted (c : CaseId) (cid : PyStr) : Wrote m (intakeDecisionDraft m (granted c) cid)
  | refused (reason : ReasonCode) (detail : Option DenialDetail) (cid : PyStr) :
      Wrote m (intakeDecisionDraft m { kind := .triage, reason := some reason, detail } cid)
  | escalated (p : Option ClassificationProposal) (reason : ReasonCode) (cid : PyStr) :
      Wrote m (proposalDraft m p .triage (some reason) cid)
  | pending (p : ClassificationProposal) (cid : PyStr) :
      Wrote m (proposalDraft m (some p) .pending none cid)
  | correction (d : HumanDecision) (cid : PyStr) : Wrote m (correctionDraft m d cid)
  | check (d : HumanDecision) (auth : AuthorisationDecision) (cid : PyStr) :
      Wrote m (authCheckDraft m d auth cid)
  | confirmation (d : HumanDecision) (o : ClassificationOutcome) (cid : PyStr) :
      Wrote m (confirmationDraft m d o cid)

theorem Wrote.messageId {m : IntakeMessage} {d : AuditDraft} (h : Wrote m d) :
    d.messageId = some m.messageId := by
  cases h <;> rfl

theorem mem_corrections {w : World} {m : IntakeMessage} {d : HumanDecision} {cid : PyStr} {x : AuditDraft}
    (h : x ∈ corrections w m d cid) : x = correctionDraft m d cid := by
  unfold corrections at h
  split at h
  · exact absurd h List.not_mem_nil
  · split_ifs at h
    · exact List.mem_singleton.mp h
    · exact absurd h List.not_mem_nil

theorem Routed.drafts_eq {r : CaseRegistry} {t : Instant} {m : IntakeMessage} {d : HumanDecision}
    {cid : PyStr} {o : ClassificationOutcome} {c : Option CaseId} {f : Effect}
    (h : Routed r t m d cid o c f) : ∀ x ∈ f.drafts, ∃ auth, x = authCheckDraft m d auth cid := by
  cases h with
  | authorised => intro x hx; exact ⟨_, List.mem_singleton.mp hx⟩
  | denied => intro x hx; exact ⟨_, List.mem_singleton.mp hx⟩
  | _ => intro x hx; exact absurd hx List.not_mem_nil

theorem Served.wrote {env : Env} {w : World} {call : MessageCall} {reply : Reply} {f : Effect}
    (h : Served env w call reply f) : ∀ d ∈ f.drafts, Wrote call.message d := by
  intro x hx
  cases h with
  | intakeReplayed | proposeReplayed | proposeAfterIntake | confirmReplayed | confirmConflict =>
      exact absurd hx List.not_mem_nil
  | intakeAuthorised => rw [List.mem_singleton.mp hx]; exact .granted _ _
  | intakeTriaged => rw [List.mem_singleton.mp hx]; exact .refused _ _ _
  | proposeDenied => rw [List.mem_singleton.mp hx]; exact .refused _ (some _) _
  | proposeAsked _ _ _ ask =>
      cases ask with
      | failed => rw [List.mem_singleton.mp hx]; exact .escalated _ _ _
      | flagged => rw [List.mem_singleton.mp hx]; exact .escalated _ _ _
      | pending => rw [List.mem_singleton.mp hx]; exact .pending _ _
  | confirmed _ _ hr =>
      rcases List.mem_append.mp hx with hx | hx
      · rcases List.mem_append.mp hx with hx | hx
        · rw [mem_corrections hx]; exact .correction _ _
        · obtain ⟨auth, rfl⟩ := hr.drafts_eq x hx
          exact .check _ _ _
      · rw [List.mem_singleton.mp hx]; exact .confirmation _ _ _

/-! ## Whole steps of the system -/

/-- The registry calls write at most one event, and it names no message. -/
theorem registerCase_applied (env : Env) (w : World) (e : EngagementId) (c : CaseId) :
    ∃ r f, (∀ d ∈ f.drafts, d.action = .caseRegistered ∧ d.messageId = none) ∧ f.queued = []
      ∧ f.tasked = [] ∧ f.asked = [] ∧ Applied { w with registry := r } f (registerCase env w e c).2 := by
  have hspec := registerCase_spec env w e c
  generalize registerCase env w e c = x at hspec ⊢
  cases hspec with
  | refused => exact ⟨w.registry, {}, by simp, rfl, rfl, rfl, Applied.refl w⟩
  | @lost r => exact ⟨r, {}, by simp, rfl, rfl, rfl, applied_newId { w with registry := r }⟩
  | @recorded r subjectDigest =>
      refine ⟨r, _, ?_, rfl, rfl, rfl, (applied_newId { w with registry := r }).trans (applied_append _ _)⟩
      intro d hd
      rw [List.mem_singleton.mp hd]
      exact ⟨rfl, rfl⟩

theorem registry_applied (w : World) (op : CaseRegistry.Op) (env : Env) :
    ∃ r, Applied { w with registry := r } {} (perform env w (.registry op)).2 := by
  unfold perform
  cases h : w.registry.apply op with
  | error err => simp only [h]; exact ⟨w.registry, Applied.refl w⟩
  | ok r => simp only [h]; exact ⟨r, Applied.refl _⟩

/--
**One step of the system**: a served message call, or a registry call, whose
effect on the log is about no message.
-/
theorem system_step (env : Env) (w : World) (req : Request) :
    (∃ call f, req.call = .message call
        ∧ Served env (w.during req.clock) call (system env w req).1 f
        ∧ Applied (w.during req.clock) f (system env w req).2)
      ∨ ∃ r f, (∀ d ∈ f.drafts, d.action = .caseRegistered ∧ d.messageId = none) ∧ f.queued = []
        ∧ f.tasked = [] ∧ f.asked = []
        ∧ Applied { w.during req.clock with registry := r } f (system env w req).2 := by
  obtain ⟨call, clock⟩ := req
  cases call with
  | message call =>
      obtain ⟨f, hs, happ⟩ := system_served env w call clock
      exact Or.inl ⟨call, f, rfl, hs, happ⟩
  | registerCase e c => exact Or.inr (registerCase_applied env (w.during clock) e c)
  | registry op =>
      obtain ⟨r, happ⟩ := registry_applied (w.during clock) op env
      exact Or.inr ⟨r, {}, by simp, rfl, rfl, rfl, happ⟩

/-- Every reachable state: what some run leads to from an empty log and empty queues. -/
def Reachable (env : Env) (w : World) : Prop :=
  ∃ registry ids reqs, w = Machine.run (system env) (World.init registry ids) reqs

theorem Reachable.invariant {env : Env} {P : World → Prop}
    (init : ∀ registry ids, P (World.init registry ids))
    (step : ∀ w req, P w → P (system env w req).2) {w : World} (h : Reachable env w) : P w := by
  obtain ⟨registry, ids, reqs, rfl⟩ := h
  exact Machine.run_invariant step (init registry ids) reqs

theorem Reachable.step {env : Env} {w : World} (h : Reachable env w) (req : Request) :
    Reachable env (system env w req).2 := by
  obtain ⟨registry, ids, reqs, rfl⟩ := h
  exact ⟨registry, ids, reqs ++ [req], (Machine.run_concat ..).symm⟩

/-- **What every call may write is all a log ever holds.** -/
theorem Reachable.trail_forall {env : Env} {P : AuditDraft → Prop}
    (wrote : ∀ m d, Wrote m d → P d)
    (registered : ∀ d, d.action = .caseRegistered → d.messageId = none → P d)
    {w : World} (h : Reachable env w) : ∀ d ∈ w.trail, P d := by
  refine h.invariant (P := fun w => ∀ d ∈ w.trail, P d) (fun _ _ d hd => absurd hd List.not_mem_nil) ?_
  intro w req hw d hd
  rcases system_step env w req with ⟨call, f, _, hs, happ⟩ | ⟨r, f, hreg, _, _, _, happ⟩
  · rw [happ.trail] at hd
    rcases List.mem_append.mp hd with hd | hd
    · exact hw d hd
    · exact wrote _ d (hs.wrote d hd)
  · rw [happ.trail] at hd
    rcases List.mem_append.mp hd with hd | hd
    · exact hw d hd
    · exact registered d (hreg d hd).1 (hreg d hd).2

end Intake.Proof
