import Intake.PyStr

/-!
# Domain types

The value objects of the intake package: messages, authorisation facts, audit
records, triage items and the classification vocabulary. They are immutable in
the source and plain structures here.

Two fields of the source are missing. `IntakeMessage.attachment_count` is read by
no function. The audit `action` and `outcome` are strings there, always drawn
from a fixed set of constants and enum values, and are enumerations here.
-/

namespace Intake

abbrev PrincipalId := PyStr
abbrev ClientId := PyStr
abbrev EngagementId := PyStr
abbrev CaseId := PyStr
abbrev MessageId := PyStr

/--
An aware `datetime`, in microseconds. All times are taken to be in UTC, or in one
zone in which no wall time occurs twice, because Python compares the times of one
zone by the wall.
-/
abbrev Instant := Int

/-- A Python `float`, by its binary64 representation. No code compares or computes with one here. -/
structure PyFloat where
  bits : UInt64
  deriving DecidableEq, Repr

/-! ## Authorisation vocabulary -/

/-- The audit action names. -/
inductive AuditAction where
  /-- `"intake.decision"` -/
  | intakeDecision
  /-- `"registry.case_registered"` -/
  | caseRegistered
  /-- `"classification.proposed"` -/
  | classificationProposed
  /-- `"classification.confirmed"` -/
  | classificationConfirmed
  /-- `"classification.corrected"` -/
  | classificationCorrected
  /-- `"followup.authorisation_checked"` -/
  | followupAuthChecked
  deriving DecidableEq, Repr

/-- The strings an audit `outcome` is drawn from. -/
inductive AuditOutcome where
  | authorised
  | triage
  | registered
  | pending
  | corrected
  | followupAuthorised
  | responseReady
  | awaitingInputs
  | newDeliverableReady
  deriving DecidableEq, Repr

/-- Outcome of an intake authorisation decision. -/
inductive DecisionKind where
  | authorised
  | triage
  deriving DecidableEq, Repr

/-- Client-safe reason a message was routed to triage. -/
inductive ReasonCode where
  | notAuthorised
  | noCaseReference
  | ambiguousCaseReference
  | mixedOrFlagged
  | classifierError
  | noCaseSelected
  deriving DecidableEq, Repr

/-- Audit-only detail explaining a denial. -/
inductive DenialDetail where
  | principalUnknown
  | clientMismatch
  | caseNotFound
  | authorisationRevoked
  deriving DecidableEq, Repr

/-- Lifecycle state of a triage item. -/
inductive TriageState where
  | open
  deriving DecidableEq, Repr

/-- The exceptions the two services and the registry raise. -/
inductive PyError where
  /-- `KeyError(key)` -/
  | keyError (key : PyStr)
  /-- `ValueError(f"{text}: {value!r}")` -/
  | valueError (text : String) (value : PyStr)
  /-- The `ValueError` of an enum lookup by a value the enum does not have. -/
  | notAValue (value : AuditOutcome)
  | unicodeEncodeError
  /-- `ConflictingDecisionError(message_id)` -/
  | conflictingDecision (messageId : MessageId)
  deriving DecidableEq, Repr

/-- `DecisionKind.value`. -/
def DecisionKind.value : DecisionKind → AuditOutcome
  | .authorised => .authorised
  | .triage => .triage

/-- `DecisionKind(value)`. -/
def DecisionKind.ofValue : AuditOutcome → Except PyError DecisionKind
  | .authorised => .ok .authorised
  | .triage => .ok .triage
  | v => .error (.notAValue v)

@[simp] theorem DecisionKind.ofValue_value (k : DecisionKind) : ofValue k.value = .ok k := by
  cases k <;> rfl

@[simp] theorem DecisionKind.value_eq_triage {k : DecisionKind} : k.value = .triage ↔ k = .triage := by
  cases k <;> simp [value]

/-- An inbound message reduced to non-sensitive routing inputs. -/
structure IntakeMessage where
  messageId : MessageId
  principalId : PrincipalId
  claimedCaseIds : List CaseId
  bodyDigest : PyStr
  deriving DecidableEq, Repr

/-- Resolved relationship facts needed to evaluate one attach request. -/
structure AuthorisationSnapshot where
  caseId : Option CaseId
  principalClient : Option ClientId
  casePresent : Bool
  caseEngagement : Option EngagementId
  engagementClient : Option ClientId
  principalActive : Bool
  deriving DecidableEq, Repr

/-- The outcome of evaluating a single attach request. -/
structure AuthorisationDecision where
  kind : DecisionKind
  caseId : Option CaseId := none
  reason : Option ReasonCode := none
  detail : Option DenialDetail := none
  deriving DecidableEq, Repr

/-! ## Classification vocabulary -/

/-- Top-level route a message is classified into. -/
inductive ClassificationClass where
  | existingFollowup
  | response
  | newDeliverable
  deriving DecidableEq, Repr

/-- The kind of new deliverable requested. -/
inductive NewDeliverableSubtype where
  | dueDiligence
  | siteSourcing
  | testFit
  deriving DecidableEq, Repr

/-- A required input the message did not supply. -/
inductive MissingField where
  | siteGeometry
  | jurisdiction
  | searchBoundary
  | selectionCriteria
  | programme
  deriving DecidableEq, Repr

/-- Final outcome of a human-confirmed classification. -/
inductive ClassificationOutcome where
  | followupAuthorised
  | responseReady
  | awaitingInputs
  | newDeliverableReady
  | triage
  deriving DecidableEq, Repr

/-- `ClassificationOutcome.value`. -/
def ClassificationOutcome.value : ClassificationOutcome → AuditOutcome
  | .followupAuthorised => .followupAuthorised
  | .responseReady => .responseReady
  | .awaitingInputs => .awaitingInputs
  | .newDeliverableReady => .newDeliverableReady
  | .triage => .triage

/-- `ClassificationOutcome(value)`. -/
def ClassificationOutcome.ofValue : AuditOutcome → Except PyError ClassificationOutcome
  | .followupAuthorised => .ok .followupAuthorised
  | .responseReady => .ok .responseReady
  | .awaitingInputs => .ok .awaitingInputs
  | .newDeliverableReady => .ok .newDeliverableReady
  | .triage => .ok .triage
  | v => .error (.notAValue v)

@[simp] theorem ClassificationOutcome.ofValue_value (o : ClassificationOutcome) :
    ofValue o.value = .ok o := by
  cases o <;> rfl

@[simp] theorem ClassificationOutcome.value_eq_triage {o : ClassificationOutcome} :
    o.value = .triage ↔ o = .triage := by
  cases o <;> simp [value]

@[simp] theorem ClassificationOutcome.value_inj {o o' : ClassificationOutcome} :
    o.value = o'.value ↔ o = o' := by
  constructor
  · intro h
    have hvalue := congrArg ofValue h
    simpa using hvalue
  · rintro rfl; rfl

/-- A character span into the original message text. -/
structure EvidenceSpan where
  start : Int
  stop : Int
  deriving DecidableEq, Repr

/-- The minimum-necessary view of a message handed to the classifier. -/
structure MessageProjection where
  messageId : MessageId
  principalId : PrincipalId
  text : PyStr
  candidateCaseIds : List CaseId
  deriving DecidableEq, Repr

/-- A model proposal. -/
structure ClassificationProposal where
  routeClass : ClassificationClass
  subtype : Option NewDeliverableSubtype
  confidence : PyFloat
  evidenceSpans : List EvidenceSpan
  candidateCaseIds : List CaseId
  missingFields : List MissingField
  triageReason : Option ReasonCode := none
  deriving DecidableEq, Repr

/-- A reviewer's confirmation of the route, or an explicit triage. -/
structure HumanDecision where
  reviewerId : PyStr
  confirmedClass : Option ClassificationClass := none
  confirmedSubtype : Option NewDeliverableSubtype := none
  selectedCaseId : Option CaseId := none
  confirmedMissingFields : List MissingField := []
  triage : Bool := false
  deriving DecidableEq, Repr

/-- Typed audit payload for a classification event. -/
structure ClassificationPayload where
  routeClass : Option ClassificationClass
  subtype : Option NewDeliverableSubtype
  confidence : Option PyFloat
  missingFields : List MissingField := []
  candidateCaseIds : List CaseId := []
  deriving DecidableEq, Repr

/-! ## Records -/

/-- The content of an audit event before the log stamps id, sequence and time. -/
structure AuditDraft where
  action : AuditAction
  outcome : AuditOutcome
  subjectDigest : PyStr
  messageId : Option MessageId
  principalId : Option PrincipalId
  reason : Option ReasonCode
  detail : Option DenialDetail
  caseId : Option CaseId
  correlationId : PyStr
  reviewerId : Option PyStr := none
  classification : Option ClassificationPayload := none
  deriving DecidableEq, Repr

/-- An append-only record of one security-relevant action. The field `at` of the source is `stampedAt`. -/
structure AuditEvent extends AuditDraft where
  eventId : PyStr
  sequence : Nat
  stampedAt : Instant
  deriving DecidableEq, Repr

/-- A message awaiting human triage. -/
structure TriageItem where
  triageItemId : PyStr
  messageId : MessageId
  reason : ReasonCode
  claimedCaseIds : List CaseId
  state : TriageState := .open
  deriving DecidableEq, Repr

/-- A routine request for missing inputs on a confirmed new deliverable. -/
structure ClarificationTask where
  taskId : PyStr
  messageId : MessageId
  subtype : Option NewDeliverableSubtype
  missingFields : List MissingField
  deriving DecidableEq, Repr

/-- The `intake.decision` audit draft for an authorisation decision. -/
def intakeDecisionDraft (message : IntakeMessage) (decision : AuthorisationDecision)
    (correlationId : PyStr) : AuditDraft where
  action := .intakeDecision
  outcome := decision.kind.value
  subjectDigest := message.bodyDigest
  messageId := some message.messageId
  principalId := some message.principalId
  reason := decision.reason
  detail := decision.detail
  caseId := decision.caseId
  correlationId := correlationId

end Intake
