import Intake.Memory

/-!
# The classification service

Slice 2: the classifier proposes, a human confirms. Both operations are guarded
by a lookup in the audit log, so each is meant to run once per message id.
-/

namespace Intake

/-- A proposal awaiting human confirmation, or a terminal triage at propose time. -/
structure ProposalResult where
  proposal : Option ClassificationProposal
  triaged : Bool
  deriving DecidableEq, Repr

/-- The final outcome of a human-confirmed classification. -/
structure ConfirmResult where
  outcome : ClassificationOutcome
  caseId : Option CaseId := none
  deriving DecidableEq, Repr

namespace ClassificationService

/-! ## Events and what is read back from them -/

/-- `_payload_of` -/
def payloadOf : Option ClassificationProposal → ClassificationPayload
  | none => { routeClass := none, subtype := none, confidence := none }
  | some proposal =>
      { routeClass := some proposal.routeClass
        subtype := proposal.subtype
        confidence := some proposal.confidence
        missingFields := proposal.missingFields
        candidateCaseIds := proposal.candidateCaseIds }

/-- `_proposal_from_event` -/
def proposalFromEvent (event : AuditEvent) : ProposalResult :=
  match event.outcome, event.classification with
  | .pending, some payload =>
      { proposal := some
          { routeClass := payload.routeClass.getD .response
            subtype := payload.subtype
            confidence := payload.confidence.getD ⟨0⟩
            evidenceSpans := []
            candidateCaseIds := payload.candidateCaseIds
            missingFields := payload.missingFields }
        triaged := false }
  | _, _ => { proposal := none, triaged := true }

/-- `_confirm_from_event` -/
def confirmFromEvent (event : AuditEvent) : Except PyError ConfirmResult :=
  match ClassificationOutcome.ofValue event.outcome with
  | .error err => .error err
  | .ok outcome =>
      .ok { outcome, caseId := if outcome = .followupAuthorised then event.caseId else none }

/-- The tuple a decision and a confirmation event are compared by. -/
structure Signature where
  triage : Bool
  routeClass : Option ClassificationClass
  subtype : Option NewDeliverableSubtype
  caseId : Option CaseId
  missingFields : List MissingField
  reviewerId : PyStr
  deriving DecidableEq, Repr

/-- `_decision_signature` -/
def decisionSignature (decision : HumanDecision) : Signature where
  triage := decision.triage
  routeClass := decision.confirmedClass
  subtype := decision.confirmedSubtype
  caseId := decision.selectedCaseId
  missingFields := decision.confirmedMissingFields
  reviewerId := decision.reviewerId

/-- `_event_signature` -/
def eventSignature (event : AuditEvent) : Signature where
  triage := event.outcome = ClassificationOutcome.triage.value
  routeClass := event.classification.bind ClassificationPayload.routeClass
  subtype := event.classification.bind ClassificationPayload.subtype
  caseId := event.caseId
  missingFields := (event.classification.map ClassificationPayload.missingFields).getD []
  reviewerId := event.reviewerId.getD []

/-- `_is_correction` -/
def isCorrection (proposed : AuditEvent) (decision : HumanDecision) : Bool :=
  match proposed.classification with
  | none => false
  | some payload =>
      payload.routeClass ≠ decision.confirmedClass || payload.subtype ≠ decision.confirmedSubtype

/-- The draft `_record_proposal` appends. -/
def proposalDraft (message : IntakeMessage) (proposal : Option ClassificationProposal)
    (outcome : AuditOutcome) (reason : Option ReasonCode) (correlationId : PyStr) : AuditDraft where
  action := .classificationProposed
  outcome := outcome
  subjectDigest := message.bodyDigest
  messageId := some message.messageId
  principalId := some message.principalId
  reason := reason
  detail := none
  caseId := none
  correlationId := correlationId
  classification := some (payloadOf proposal)

/-- The payload of a correction or a confirmation: the decision, field by field. -/
def decisionPayload (decision : HumanDecision) : ClassificationPayload where
  routeClass := decision.confirmedClass
  subtype := decision.confirmedSubtype
  confidence := none
  missingFields := decision.confirmedMissingFields

/-- The draft shared by `_record_correction` and `_record_confirmation`. -/
def reviewDraft (action : AuditAction) (outcome : AuditOutcome) (message : IntakeMessage)
    (decision : HumanDecision) (correlationId : PyStr) : AuditDraft where
  action := action
  outcome := outcome
  subjectDigest := message.bodyDigest
  messageId := some message.messageId
  principalId := some message.principalId
  reason := none
  detail := none
  caseId := decision.selectedCaseId
  correlationId := correlationId
  reviewerId := some decision.reviewerId
  classification := some (decisionPayload decision)

/-- The draft `_record_correction` appends. -/
def correctionDraft : IntakeMessage → HumanDecision → PyStr → AuditDraft :=
  reviewDraft .classificationCorrected .corrected

/-- The draft `_record_confirmation` appends. -/
def confirmationDraft (message : IntakeMessage) (decision : HumanDecision)
    (outcome : ClassificationOutcome) (correlationId : PyStr) : AuditDraft :=
  reviewDraft .classificationConfirmed outcome.value message decision correlationId

/-- The draft `_route_followup` appends for the gate's answer. -/
def authCheckDraft (message : IntakeMessage) (decision : HumanDecision)
    (auth : AuthorisationDecision) (correlationId : PyStr) : AuditDraft where
  action := .followupAuthChecked
  outcome := auth.kind.value
  subjectDigest := message.bodyDigest
  messageId := some message.messageId
  principalId := some message.principalId
  reason := auth.reason
  detail := auth.detail
  caseId := auth.caseId
  correlationId := correlationId
  reviewerId := some decision.reviewerId

/-! ## Propose -/

/-- `_triage_at_ingress` -/
def triageAtIngress (w : World) (message : IntakeMessage) (decision : AuthorisationDecision)
    (correlationId : PyStr) : ProposalResult × World :=
  let w := w.append (intakeDecisionDraft message decision correlationId)
  let w := w.enqueueTriage message (decision.reason.getD .notAuthorised)
  ({ proposal := none, triaged := true }, w)

/-- `_record_proposal` -/
def recordProposal (w : World) (message : IntakeMessage) (proposal : Option ClassificationProposal)
    (outcome : AuditOutcome) (reason : Option ReasonCode) (correlationId : PyStr) : World :=
  w.append (proposalDraft message proposal outcome reason correlationId)

/-- `_triage_proposal` -/
def triageProposal (w : World) (message : IntakeMessage) (proposal : Option ClassificationProposal)
    (reason : ReasonCode) (correlationId : PyStr) : ProposalResult × World :=
  let w := recordProposal w message proposal .triage (some reason) correlationId
  let w := w.enqueueTriage message reason
  ({ proposal := none, triaged := true }, w)

/-- `_authorised_candidates` -/
def authorisedCandidates (w : World) (message : IntakeMessage) : List CaseId × World :=
  let (now, w) := w.now
  (message.claimedCaseIds.filter fun caseId =>
    (authorise w.registry message.principalId caseId now).kind = .authorised, w)

/-- `Classifier.classify`: the classifier sees the projection, and may raise. -/
def classify (env : Env) (w : World) (projection : MessageProjection) :
    Option ClassificationProposal × World :=
  (env.classify w.classified projection, { w with classified := w.classified ++ [projection] })

/-- The part of `propose` behind the gate: build the projection, ask the classifier, record. -/
def askClassifier (env : Env) (w : World) (message : IntakeMessage) (text : PyStr)
    (correlationId : PyStr) : ProposalResult × World :=
  let (candidateCaseIds, w) := authorisedCandidates w message
  let projection : MessageProjection :=
    { messageId := message.messageId, principalId := message.principalId, text, candidateCaseIds }
  match classify env w projection with
  | (none, w) => triageProposal w message none .classifierError correlationId
  | (some proposal, w) =>
      match proposal.triageReason with
      | some reason => triageProposal w message (some proposal) reason correlationId
      | none =>
          let w := recordProposal w message (some proposal) .pending none correlationId
          ({ proposal := some proposal, triaged := false }, w)

/-- `ClassificationService.propose` -/
def propose (env : Env) (w : World) (message : IntakeMessage) (text : PyStr) : ProposalResult × World :=
  match w.eventFor message.messageId .classificationProposed with
  | some proposed => (proposalFromEvent proposed, w)
  | none =>
  match w.eventFor message.messageId .intakeDecision with
  | some _ => ({ proposal := none, triaged := true }, w)
  | none =>
      let (correlationId, w) := w.newId
      match message.claimedCaseIds with
      | [claimed] =>
          let (now, w) := w.now
          let decision := authorise w.registry message.principalId claimed now
          if decision.kind = .triage then
            triageAtIngress w message decision correlationId
          else
            askClassifier env w message text correlationId
      | _ => askClassifier env w message text correlationId

/-! ## Confirm -/

/-- `_route_new_deliverable` -/
def routeNewDeliverable (w : World) (message : IntakeMessage) (decision : HumanDecision) :
    (ClassificationOutcome × Option CaseId) × World :=
  if decision.confirmedMissingFields ≠ [] then
    let (taskId, w) := w.newId
    let task : ClarificationTask :=
      { taskId, messageId := message.messageId, subtype := decision.confirmedSubtype
        missingFields := decision.confirmedMissingFields }
    ((.awaitingInputs, none), { w with clarifications := (w.clarifications.enqueue task).2 })
  else
    ((.newDeliverableReady, none), w)

/-- `_route_followup` -/
def routeFollowup (w : World) (message : IntakeMessage) (decision : HumanDecision)
    (correlationId : PyStr) : (ClassificationOutcome × Option CaseId) × World :=
  match decision.selectedCaseId with
  | none => ((.triage, none), w.enqueueTriage message .noCaseSelected)
  | some caseId =>
      let (now, w) := w.now
      let auth := authorise w.registry message.principalId caseId now
      let w := w.append (authCheckDraft message decision auth correlationId)
      if auth.kind = .authorised then
        ((.followupAuthorised, auth.caseId), w)
      else
        ((.triage, none), w.enqueueTriage message (auth.reason.getD .notAuthorised))

/-- `_route` -/
def route (w : World) (message : IntakeMessage) (decision : HumanDecision) (correlationId : PyStr) :
    (ClassificationOutcome × Option CaseId) × World :=
  if decision.triage then
    ((.triage, none), w.enqueueTriage message .mixedOrFlagged)
  else
    match decision.confirmedClass with
    | none => ((.triage, none), w.enqueueTriage message .mixedOrFlagged)
    | some .response => ((.responseReady, none), w)
    | some .newDeliverable => routeNewDeliverable w message decision
    | some .existingFollowup => routeFollowup w message decision correlationId

/--
The part of `confirm` before the routing: the correlation id is the proposal's if
there is one, and a disagreement with the proposal is recorded.
-/
def openConfirmation (w : World) (message : IntakeMessage) (decision : HumanDecision) : PyStr × World :=
  match w.eventFor message.messageId .classificationProposed with
  | none => w.newId
  | some proposed =>
      if isCorrection proposed decision then
        (proposed.correlationId, w.append (correctionDraft message decision proposed.correlationId))
      else
        (proposed.correlationId, w)

/-- `ClassificationService.confirm` -/
def confirm (w : World) (message : IntakeMessage) (decision : HumanDecision) :
    Except PyError ConfirmResult × World :=
  match w.eventFor message.messageId .classificationConfirmed with
  | some confirmed =>
      if eventSignature confirmed = decisionSignature decision then
        (confirmFromEvent confirmed, w)
      else
        (.error (.conflictingDecision message.messageId), w)
  | none =>
      let (correlationId, w) := openConfirmation w message decision
      let ((outcome, caseId), w) := route w message decision correlationId
      let w := w.append (confirmationDraft message decision outcome correlationId)
      (.ok { outcome, caseId }, w)

end ClassificationService

end Intake
