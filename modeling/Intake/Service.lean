import Intake.Memory

/-!
# The intake service

Application boundary of slice 1: sequence the registry read, the decision, the
audit record and the triage item. The service holds no policy of its own.
-/

namespace Intake.IntakeService

/-- `_digest`; `none` is the `UnicodeEncodeError` of a surrogate. -/
def digest (env : Env) (value : PyStr) : Option PyStr := PyStr.sha256Text env.sha256 value

/-- `_decision_from_event` -/
def decisionFromEvent (event : AuditEvent) : Except PyError AuthorisationDecision :=
  match DecisionKind.ofValue event.outcome with
  | .error err => .error err
  | .ok kind => .ok { kind, caseId := event.caseId, reason := event.reason, detail := event.detail }

/-- `IntakeService.register_case` -/
def registerCase (env : Env) (w : World) (engagementId : EngagementId) (caseId : CaseId) :
    Except PyError Unit × World :=
  match w.registry.registerCase engagementId caseId with
  | .error err => (.error err, w)
  | .ok registry =>
      -- the registry is mutated before the digest is computed
      let w := { w with registry }
      let (correlationId, w) := w.newId
      match digest env (engagementId ++ PyStr.ofString ":" ++ caseId) with
      | none => (.error .unicodeEncodeError, w)
      | some subjectDigest =>
          (.ok (), w.append
            { action := .caseRegistered
              outcome := .registered
              subjectDigest
              messageId := none
              principalId := none
              reason := none
              detail := none
              caseId := some caseId
              correlationId })

/-- The draft of a registration. -/
def caseRegisteredDraft (caseId : CaseId) (subjectDigest correlationId : PyStr) : AuditDraft where
  action := .caseRegistered
  outcome := .registered
  subjectDigest := subjectDigest
  messageId := none
  principalId := none
  reason := none
  detail := none
  caseId := some caseId
  correlationId := correlationId

/--
The ways `register_case` can end: the registry refuses; the case is registered and
the digest raises, after an id was drawn; or there is an event.
-/
inductive CaseRegistration (env : Env) (w : World) (engagementId : EngagementId) (caseId : CaseId) :
    Except PyError Unit × World → Prop where
  | refused {err : PyError} (h : w.registry.registerCase engagementId caseId = .error err) :
      CaseRegistration env w engagementId caseId (.error err, w)
  | lost {registry : CaseRegistry} (h : w.registry.registerCase engagementId caseId = .ok registry)
      (hdigest : digest env (engagementId ++ PyStr.ofString ":" ++ caseId) = none) :
      CaseRegistration env w engagementId caseId
        (.error .unicodeEncodeError, ({ w with registry } : World).newId.2)
  | recorded {registry : CaseRegistry} {subjectDigest : PyStr}
      (h : w.registry.registerCase engagementId caseId = .ok registry)
      (hdigest : digest env (engagementId ++ PyStr.ofString ":" ++ caseId) = some subjectDigest) :
      CaseRegistration env w engagementId caseId
        (.ok (), ({ w with registry } : World).newId.2.append
          (caseRegisteredDraft caseId subjectDigest w.ids.head))

/-- **What `register_case` does**, once for all proofs about it. -/
theorem registerCase_spec (env : Env) (w : World) (engagementId : EngagementId) (caseId : CaseId) :
    CaseRegistration env w engagementId caseId (registerCase env w engagementId caseId) := by
  unfold registerCase
  cases hregistry : w.registry.registerCase engagementId caseId with
  | error err => exact .refused hregistry
  | ok registry =>
      dsimp only
      cases hdigest : digest env (engagementId ++ PyStr.ofString ":" ++ caseId) with
      | none => exact .lost hregistry hdigest
      | some subjectDigest => exact .recorded hregistry hdigest

/-- `_decide` -/
def decide (w : World) (message : IntakeMessage) : AuthorisationDecision × World :=
  match message.claimedCaseIds with
  | [] => ({ kind := .triage, reason := some .noCaseReference }, w)
  | [claimed] =>
      let (now, w) := w.now
      (authorise w.registry message.principalId claimed now, w)
  | _ => ({ kind := .triage, reason := some .ambiguousCaseReference }, w)

/-- `IntakeService.handle_intake` -/
def handleIntake (w : World) (message : IntakeMessage) : Except PyError AuthorisationDecision × World :=
  match w.decisionFor message.messageId with
  | some prior => (decisionFromEvent prior, w)
  | none =>
      let (decision, w) := decide w message
      let (correlationId, w) := w.newId
      let w := w.append (intakeDecisionDraft message decision correlationId)
      let w := match decision.kind, decision.reason with
        | .triage, some reason => w.enqueueTriage message reason
        | _, _ => w
      (.ok decision, w)

end Intake.IntakeService
