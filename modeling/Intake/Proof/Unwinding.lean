import Intake.System

/-!
# Two runs of one call, operation by operation

Every argument that compares two runs, or follows one run through its primitive
steps, walks through the same dozen operations. The walk is made once, here.

A `View` says what is compared of ids, decisions, proposals and log entries, and
that whatever the code reads back from an entry is determined by what is compared
of it. `Unwinding` says of a relation between worlds that it survives the
primitives. `serve_unwinds` concludes that it survives a call, and that the call
is answered alike.

`RegistryUnwinding` does the same for the calls of the registry.

`serve_preserves` is the case of two equal worlds: what survives the primitives
survives a call. `system_preserves` adds the registry calls.
-/

namespace Intake.Proof

open IntakeService ClassificationService

/-! ## What is compared -/

/-- What is compared of generated and recorded values, and why that is enough. -/
structure View where
  id : PyStr → PyStr
  decision : AuthorisationDecision → AuthorisationDecision
  proposal : ClassificationProposal → Option ClassificationProposal × Option ReasonCode
  result : ProposalResult → ProposalResult
  draft : AuditDraft → AuditDraft
  /-- A decision is acted on by its kind, its case and its reason. -/
  decision_eq : ∀ {d₁ d₂}, decision d₁ = decision d₂ →
    d₁.kind = d₂.kind ∧ d₁.caseId = d₂.caseId ∧ d₁.reason = d₂.reason
  /-- A proposal is acted on by its flag. -/
  proposal_eq : ∀ {p₁ p₂}, proposal p₁ = proposal p₂ →
    p₁.triageReason = p₂.triageReason ∧ result ⟨some p₁, false⟩ = result ⟨some p₂, false⟩
  intakeDecisionDraft_eq : ∀ m {d₁ d₂ c₁ c₂}, decision d₁ = decision d₂ → id c₁ = id c₂ →
    draft (intakeDecisionDraft m d₁ c₁) = draft (intakeDecisionDraft m d₂ c₂)
  authCheckDraft_eq : ∀ m d {a₁ a₂ c₁ c₂}, decision a₁ = decision a₂ → id c₁ = id c₂ →
    draft (authCheckDraft m d a₁ c₁) = draft (authCheckDraft m d a₂ c₂)
  reviewDraft_eq : ∀ a out m d {c₁ c₂}, id c₁ = id c₂ →
    draft (reviewDraft a out m d c₁) = draft (reviewDraft a out m d c₂)
  proposalDraft_eq : ∀ m out reason {p₁ p₂ c₁ c₂}, p₁.map proposal = p₂.map proposal → id c₁ = id c₂ →
    draft (proposalDraft m p₁ out reason c₁) = draft (proposalDraft m p₂ out reason c₂)
  decisionFromEvent_eq : ∀ {e₁ e₂ : AuditEvent}, draft e₁.toAuditDraft = draft e₂.toAuditDraft →
    (decisionFromEvent e₁).map decision = (decisionFromEvent e₂).map decision
  proposalFromEvent_eq : ∀ {e₁ e₂ : AuditEvent}, draft e₁.toAuditDraft = draft e₂.toAuditDraft →
    result (proposalFromEvent e₁) = result (proposalFromEvent e₂)
  eventSignature_eq : ∀ {e₁ e₂ : AuditEvent}, draft e₁.toAuditDraft = draft e₂.toAuditDraft →
    e₁.action ≠ .classificationProposed → eventSignature e₁ = eventSignature e₂
  confirmFromEvent_eq : ∀ {e₁ e₂ : AuditEvent}, draft e₁.toAuditDraft = draft e₂.toAuditDraft →
    confirmFromEvent e₁ = confirmFromEvent e₂

/-- What is compared of an answer. -/
def View.reply (V : View) : Reply → Reply
  | .intake r => .intake (r.map V.decision)
  | .proposal r => .proposal (V.result r)
  | .confirmation r => .confirmation r
  | .registry r => .registry r

/-! ## What has to survive the primitives -/

/-- **The unwinding conditions** for a relation between worlds and a message. -/
structure Unwinding (V : View) (env₁ env₂ : Env) (m : IntakeMessage) (R : World → World → Prop) : Prop where
  gate : ∀ {w₁ w₂}, R w₁ w₂ → ∀ c t,
    V.decision (authorise w₁.registry m.principalId c t) = V.decision (authorise w₂.registry m.principalId c t)
  newId : ∀ {w₁ w₂}, R w₁ w₂ → V.id w₁.newId.1 = V.id w₂.newId.1 ∧ R w₁.newId.2 w₂.newId.2
  now : ∀ {w₁ w₂}, R w₁ w₂ → w₁.now.1 = w₂.now.1 ∧ R w₁.now.2 w₂.now.2
  append : ∀ {w₁ w₂}, R w₁ w₂ → ∀ {d₁ d₂}, V.draft d₁ = V.draft d₂ → R (w₁.append d₁) (w₂.append d₂)
  enqueueTriage : ∀ {w₁ w₂}, R w₁ w₂ → ∀ reason, R (w₁.enqueueTriage m reason) (w₂.enqueueTriage m reason)
  enqueueTask : ∀ {w₁ w₂}, R w₁ w₂ → ∀ subtype missing {i₁ i₂}, V.id i₁ = V.id i₂ →
    R { w₁ with clarifications := (w₁.clarifications.enqueue ⟨i₁, m.messageId, subtype, missing⟩).2 }
      { w₂ with clarifications := (w₂.clarifications.enqueue ⟨i₂, m.messageId, subtype, missing⟩).2 }
  classify : ∀ {w₁ w₂}, R w₁ w₂ → ∀ shown,
    (ClassificationService.classify env₁ w₁ shown).1.map V.proposal
        = (ClassificationService.classify env₂ w₂ shown).1.map V.proposal
      ∧ R (ClassificationService.classify env₁ w₁ shown).2 (ClassificationService.classify env₂ w₂ shown).2
  /-- A lookup fails on both sides, or finds entries that compare equal. -/
  eventFor : ∀ {w₁ w₂}, R w₁ w₂ → ∀ {a}, a ≠ AuditAction.classificationCorrected →
    (w₁.eventFor m.messageId a = none ∧ w₂.eventFor m.messageId a = none)
      ∨ ∃ e₁ e₂, w₁.eventFor m.messageId a = some e₁ ∧ w₂.eventFor m.messageId a = some e₂
        ∧ V.draft e₁.toAuditDraft = V.draft e₂.toAuditDraft
  /-- Not derived: one side may record a correction that does not count. -/
  openConfirmation : ∀ {w₁ w₂}, R w₁ w₂ → ∀ d,
    V.id (openConfirmation w₁ m d).1 = V.id (openConfirmation w₂ m d).1
      ∧ R (openConfirmation w₁ m d).2 (openConfirmation w₂ m d).2

variable {V : View} {env₁ env₂ : Env} {m : IntakeMessage} {R : World → World → Prop} {w₁ w₂ : World}

namespace Unwinding

/-! ## The intake service -/

theorem decide (U : Unwinding V env₁ env₂ m R) (h : R w₁ w₂) :
    V.decision (decide w₁ m).1 = V.decision (decide w₂ m).1 ∧ R (decide w₁ m).2 (decide w₂ m).2 := by
  unfold IntakeService.decide
  split
  · exact ⟨rfl, h⟩
  · obtain ⟨hnow, hw⟩ := U.now h
    refine ⟨?_, hw⟩
    show V.decision (authorise _ _ _ w₁.now.1) = V.decision (authorise _ _ _ w₂.now.1)
    rw [hnow]
    exact U.gate hw _ _
  · exact ⟨rfl, h⟩

theorem handleIntake (U : Unwinding V env₁ env₂ m R) (h : R w₁ w₂) :
    (handleIntake w₁ m).1.map V.decision = (handleIntake w₂ m).1.map V.decision
      ∧ R (handleIntake w₁ m).2 (handleIntake w₂ m).2 := by
  unfold IntakeService.handleIntake World.decisionFor
  rcases U.eventFor h (a := .intakeDecision) (by simp) with ⟨h₁, h₂⟩ | ⟨e₁, e₂, h₁, h₂, hd⟩
  · rw [h₁, h₂]
    obtain ⟨hd, hw⟩ := U.decide h
    obtain ⟨hid, hw⟩ := U.newId hw
    obtain ⟨hk, _, hr⟩ := V.decision_eq hd
    have hw := U.append hw (V.intakeDecisionDraft_eq m hd hid)
    refine ⟨congrArg Except.ok hd, ?_⟩
    dsimp only
    rw [hk, hr]
    split
    · exact U.enqueueTriage hw _
    · exact hw
  · rw [h₁, h₂]
    exact ⟨V.decisionFromEvent_eq hd, h⟩

/-! ## Proposing -/

theorem triageAtIngress (U : Unwinding V env₁ env₂ m R) (h : R w₁ w₂) {d₁ d₂ : AuthorisationDecision}
    {c₁ c₂ : PyStr} (hd : V.decision d₁ = V.decision d₂) (hc : V.id c₁ = V.id c₂) :
    (triageAtIngress w₁ m d₁ c₁).1 = (triageAtIngress w₂ m d₂ c₂).1
      ∧ R (triageAtIngress w₁ m d₁ c₁).2 (triageAtIngress w₂ m d₂ c₂).2 := by
  have hw := U.append h (V.intakeDecisionDraft_eq m hd hc)
  unfold ClassificationService.triageAtIngress
  dsimp only
  rw [(V.decision_eq hd).2.2]
  exact ⟨rfl, U.enqueueTriage hw _⟩

theorem triageProposal (U : Unwinding V env₁ env₂ m R) (h : R w₁ w₂)
    (p₁ p₂ : Option ClassificationProposal) (hp : p₁.map V.proposal = p₂.map V.proposal) (reason : ReasonCode)
    {c₁ c₂ : PyStr} (hc : V.id c₁ = V.id c₂) :
    (triageProposal w₁ m p₁ reason c₁).1 = (triageProposal w₂ m p₂ reason c₂).1
      ∧ R (triageProposal w₁ m p₁ reason c₁).2 (triageProposal w₂ m p₂ reason c₂).2 :=
  ⟨rfl, U.enqueueTriage (U.append h (V.proposalDraft_eq m .triage (some reason) hp hc)) reason⟩

theorem authorisedCandidates (U : Unwinding V env₁ env₂ m R) (h : R w₁ w₂) :
    (authorisedCandidates w₁ m).1 = (authorisedCandidates w₂ m).1
      ∧ R (authorisedCandidates w₁ m).2 (authorisedCandidates w₂ m).2 := by
  obtain ⟨hnow, hw⟩ := U.now h
  refine ⟨List.filter_congr fun c _ => ?_, hw⟩
  show Decidable.decide ((authorise w₁.registry m.principalId c w₁.now.1).kind = .authorised)
    = Decidable.decide ((authorise w₂.registry m.principalId c w₂.now.1).kind = .authorised)
  rw [hnow, (V.decision_eq (U.gate h c _)).1]

theorem askClassifier (U : Unwinding V env₁ env₂ m R) (h : R w₁ w₂) (text : PyStr) {c₁ c₂ : PyStr}
    (hc : V.id c₁ = V.id c₂) :
    V.result (askClassifier env₁ w₁ m text c₁).1 = V.result (askClassifier env₂ w₂ m text c₂).1
      ∧ R (askClassifier env₁ w₁ m text c₁).2 (askClassifier env₂ w₂ m text c₂).2 := by
  obtain ⟨hcand, hw⟩ := U.authorisedCandidates h
  unfold ClassificationService.askClassifier
  dsimp only
  rw [hcand]
  obtain ⟨hp, hw⟩ := U.classify hw
    ⟨m.messageId, m.principalId, text, (ClassificationService.authorisedCandidates w₂ m).1⟩
  generalize ClassificationService.classify env₁ _ _ = x₁ at hp hw ⊢
  generalize ClassificationService.classify env₂ _ _ = x₂ at hp hw ⊢
  obtain ⟨p₁, v₁⟩ := x₁
  obtain ⟨p₂, v₂⟩ := x₂
  -- both classifiers raise, or both answer and are flagged for the same reason
  cases p₁ <;> cases p₂ <;> simp only [Option.map_none, Option.map_some, reduceCtorEq] at hp
  case none.none =>
    obtain ⟨hresult, hv⟩ := U.triageProposal hw none none rfl .classifierError hc
    exact ⟨congrArg V.result hresult, hv⟩
  case some.some p₁ p₂ =>
    obtain ⟨hreason, hpending⟩ := V.proposal_eq (Option.some.inj hp)
    dsimp only
    rw [hreason]
    cases p₂.triageReason with
    | some reason =>
        obtain ⟨hresult, hv⟩ := U.triageProposal hw (some p₁) (some p₂) hp reason hc
        exact ⟨congrArg V.result hresult, hv⟩
    | none =>
        have hdraft : V.draft (proposalDraft m (some p₁) .pending none c₁)
            = V.draft (proposalDraft m (some p₂) .pending none c₂) := V.proposalDraft_eq m .pending none hp hc
        exact ⟨hpending, U.append hw hdraft⟩

theorem propose (U : Unwinding V env₁ env₂ m R) (h : R w₁ w₂) (text : PyStr) :
    V.result (propose env₁ w₁ m text).1 = V.result (propose env₂ w₂ m text).1
      ∧ R (propose env₁ w₁ m text).2 (propose env₂ w₂ m text).2 := by
  unfold ClassificationService.propose
  rcases U.eventFor h (a := .classificationProposed) (by simp) with ⟨h₁, h₂⟩ | ⟨e₁, e₂, h₁, h₂, hd⟩ <;>
    rw [h₁, h₂]
  case inr => exact ⟨V.proposalFromEvent_eq hd, h⟩
  dsimp only
  rcases U.eventFor h (a := .intakeDecision) (by simp) with ⟨h₁, h₂⟩ | ⟨_, _, h₁, h₂, _⟩ <;> rw [h₁, h₂]
  case inr => exact ⟨rfl, h⟩
  obtain ⟨hid, hw⟩ := U.newId h
  dsimp only
  split
  · rename_i c _
    obtain ⟨hnow, hv⟩ := U.now hw
    have hgate := U.gate hv c w₂.newId.2.now.1
    rw [hnow, (V.decision_eq hgate).1]
    split_ifs
    · obtain ⟨hresult, hv⟩ := U.triageAtIngress hv hgate hid
      exact ⟨congrArg V.result hresult, hv⟩
    · exact U.askClassifier hv text hid
  · exact U.askClassifier hw text hid

/-! ## Confirming -/

theorem routeNewDeliverable (U : Unwinding V env₁ env₂ m R) (h : R w₁ w₂) (d : HumanDecision) :
    (routeNewDeliverable w₁ m d).1 = (routeNewDeliverable w₂ m d).1
      ∧ R (routeNewDeliverable w₁ m d).2 (routeNewDeliverable w₂ m d).2 := by
  unfold ClassificationService.routeNewDeliverable
  split_ifs
  · obtain ⟨hid, hw⟩ := U.newId h
    exact ⟨rfl, U.enqueueTask hw _ _ hid⟩
  · exact ⟨rfl, h⟩

theorem routeFollowup (U : Unwinding V env₁ env₂ m R) (h : R w₁ w₂) (d : HumanDecision) {c₁ c₂ : PyStr}
    (hc : V.id c₁ = V.id c₂) :
    (routeFollowup w₁ m d c₁).1 = (routeFollowup w₂ m d c₂).1
      ∧ R (routeFollowup w₁ m d c₁).2 (routeFollowup w₂ m d c₂).2 := by
  unfold ClassificationService.routeFollowup
  cases d.selectedCaseId with
  | none => exact ⟨rfl, U.enqueueTriage h _⟩
  | some c =>
      obtain ⟨hnow, hw⟩ := U.now h
      have hgate := U.gate hw c w₂.now.1
      obtain ⟨hk, hcase, hreason⟩ := V.decision_eq hgate
      have hv := U.append hw (V.authCheckDraft_eq m d hgate hc)
      dsimp only
      rw [hnow, hk]
      split_ifs
      · exact ⟨by rw [hcase], hv⟩
      · rw [hreason]
        exact ⟨rfl, U.enqueueTriage hv _⟩

theorem route (U : Unwinding V env₁ env₂ m R) (h : R w₁ w₂) (d : HumanDecision) {c₁ c₂ : PyStr}
    (hc : V.id c₁ = V.id c₂) :
    (route w₁ m d c₁).1 = (route w₂ m d c₂).1 ∧ R (route w₁ m d c₁).2 (route w₂ m d c₂).2 := by
  unfold ClassificationService.route
  split_ifs
  · exact ⟨rfl, U.enqueueTriage h _⟩
  cases d.confirmedClass with
  | none => exact ⟨rfl, U.enqueueTriage h _⟩
  | some cls =>
      cases cls with
      | response => exact ⟨rfl, h⟩
      | newDeliverable => exact U.routeNewDeliverable h d
      | existingFollowup => exact U.routeFollowup h d hc

theorem confirm (U : Unwinding V env₁ env₂ m R) (h : R w₁ w₂) (d : HumanDecision) :
    (confirm w₁ m d).1 = (confirm w₂ m d).1 ∧ R (confirm w₁ m d).2 (confirm w₂ m d).2 := by
  unfold ClassificationService.confirm
  rcases U.eventFor h (a := .classificationConfirmed) (by simp) with ⟨h₁, h₂⟩ | ⟨e₁, e₂, h₁, h₂, hd⟩ <;>
    rw [h₁, h₂]
  case inr =>
    have hsig := V.eventSignature_eq hd (by rw [(World.eventFor_spec h₁).2.1]; simp)
    dsimp only
    rw [hsig, V.confirmFromEvent_eq hd]
    split_ifs
    · exact ⟨rfl, h⟩
    · exact ⟨rfl, h⟩
  obtain ⟨hid, hw⟩ := U.openConfirmation h d
  obtain ⟨hout, hv⟩ := U.route hw d hid
  refine ⟨congrArg (fun r => Except.ok (ConfirmResult.mk r.1 r.2)) hout, U.append hv ?_⟩
  exact (congrArg (fun r => V.draft (confirmationDraft m d r.1
    (ClassificationService.openConfirmation w₁ m d).1)) hout).trans (V.reviewDraft_eq _ _ m d hid)

end Unwinding

/--
**The unwinding theorem.** A relation that survives the primitives survives a
call, and related worlds answer it alike.
-/
theorem serve_unwinds {call : MessageCall} (U : Unwinding V env₁ env₂ call.message R) (h : R w₁ w₂) :
    V.reply (serve env₁ w₁ call).1 = V.reply (serve env₂ w₂ call).1
      ∧ R (serve env₁ w₁ call).2 (serve env₂ w₂ call).2 := by
  cases call with
  | handleIntake m =>
      obtain ⟨hreply, hw⟩ := U.handleIntake h
      exact ⟨congrArg Reply.intake hreply, hw⟩
  | propose m text =>
      obtain ⟨hreply, hw⟩ := U.propose h text
      exact ⟨congrArg Reply.proposal hreply, hw⟩
  | confirm m d =>
      obtain ⟨hreply, hw⟩ := U.confirm h d
      exact ⟨congrArg Reply.confirmation hreply, hw⟩

/--
Where entries that compare equal carry one payload, confirmations open alike:
both sides record a correction or neither does.
-/
theorem openConfirmation_unwinds
    (newId : ∀ {w₁ w₂}, R w₁ w₂ → V.id w₁.newId.1 = V.id w₂.newId.1 ∧ R w₁.newId.2 w₂.newId.2)
    (append : ∀ {w₁ w₂}, R w₁ w₂ → ∀ {d₁ d₂}, V.draft d₁ = V.draft d₂ → R (w₁.append d₁) (w₂.append d₂))
    (hread : ∀ {e₁ e₂ : AuditEvent}, V.draft e₁.toAuditDraft = V.draft e₂.toAuditDraft →
      e₁.classification = e₂.classification ∧ V.id e₁.correlationId = V.id e₂.correlationId)
    (hproposed : (w₁.eventFor m.messageId .classificationProposed = none
        ∧ w₂.eventFor m.messageId .classificationProposed = none)
      ∨ ∃ e₁ e₂, w₁.eventFor m.messageId .classificationProposed = some e₁
        ∧ w₂.eventFor m.messageId .classificationProposed = some e₂
        ∧ V.draft e₁.toAuditDraft = V.draft e₂.toAuditDraft)
    (h : R w₁ w₂) (d : HumanDecision) :
    V.id (openConfirmation w₁ m d).1 = V.id (openConfirmation w₂ m d).1
      ∧ R (openConfirmation w₁ m d).2 (openConfirmation w₂ m d).2 := by
  unfold openConfirmation
  rcases hproposed with ⟨h₁, h₂⟩ | ⟨e₁, e₂, h₁, h₂, hd⟩ <;> rw [h₁, h₂]
  case inl => exact newId h
  obtain ⟨hpayload, hcid⟩ := hread hd
  have hcorrection : isCorrection e₁ d = isCorrection e₂ d := by
    rw [isCorrection, isCorrection, hpayload]
  dsimp only
  rw [hcorrection]
  split_ifs
  · exact ⟨hcid, append h (V.reviewDraft_eq _ _ m d hcid)⟩
  · exact ⟨hcid, h⟩

/-! ## One run -/

/-- A proposal compared as a whole, beside its flag. -/
theorem shown_injective : Function.Injective fun p : ClassificationProposal => (some p, p.triageReason) :=
  fun _ _ h => Option.some.inj (Prod.mk.inj h).1

/-- Nothing is left out. -/
def View.exact : View where
  id s := s
  decision d := d
  proposal p := (some p, p.triageReason)
  result r := r
  draft d := d
  decision_eq h := ⟨by rw [h], by rw [h], by rw [h]⟩
  proposal_eq h := ⟨(Prod.mk.inj h).2, by rw [Option.some.inj (Prod.mk.inj h).1]⟩
  intakeDecisionDraft_eq m _ _ _ _ hd hc := by rw [hd, hc]
  authCheckDraft_eq m d _ _ _ _ ha hc := by rw [ha, hc]
  reviewDraft_eq a out m d _ _ hc := by rw [hc]
  proposalDraft_eq m out reason p₁ p₂ _ _ hp hc := by rw [Option.map_injective shown_injective hp, hc]
  decisionFromEvent_eq h := by simp only [decisionFromEvent, h]
  proposalFromEvent_eq h := by simp only [proposalFromEvent, h]
  eventSignature_eq h _ := by simp only [eventSignature, h]
  confirmFromEvent_eq h := by simp only [confirmFromEvent, h]

/-- **What survives the primitives survives a call.** -/
theorem serve_preserves {P : World → Prop} {env : Env} {w : World}
    (newId : ∀ w, P w → P w.newId.2) (now : ∀ w, P w → P w.now.2)
    (append : ∀ w d, P w → P (w.append d))
    (enqueueTriage : ∀ w m reason, P w → P (w.enqueueTriage m reason))
    (enqueueTask : ∀ (w : World) task, P w → P { w with clarifications := (w.clarifications.enqueue task).2 })
    (classify : ∀ w shown, P w → P (ClassificationService.classify env w shown).2)
    (call : MessageCall) (h : P w) : P (serve env w call).2 := by
  have hid : ∀ {w₁ w₂ : World}, (w₁ = w₂ ∧ P w₁) →
      w₁.newId.1 = w₂.newId.1 ∧ w₁.newId.2 = w₂.newId.2 ∧ P w₁.newId.2 := by
    intro w₁ w₂ h
    obtain ⟨rfl, hw⟩ := h
    exact ⟨rfl, rfl, newId w₁ hw⟩
  have happend : ∀ {w₁ w₂ : World}, (w₁ = w₂ ∧ P w₁) → ∀ {d₁ d₂ : AuditDraft}, d₁ = d₂ →
      w₁.append d₁ = w₂.append d₂ ∧ P (w₁.append d₁) := by
    intro w₁ w₂ h d₁ d₂ hd
    obtain ⟨rfl, hw⟩ := h
    subst hd
    exact ⟨rfl, append w₁ d₁ hw⟩
  have hfor : ∀ {w₁ w₂ : World}, (w₁ = w₂ ∧ P w₁) → ∀ a,
      (w₁.eventFor call.message.messageId a = none ∧ w₂.eventFor call.message.messageId a = none)
        ∨ ∃ e₁ e₂, w₁.eventFor call.message.messageId a = some e₁
          ∧ w₂.eventFor call.message.messageId a = some e₂ ∧ e₁.toAuditDraft = e₂.toAuditDraft := by
    intro w₁ w₂ h a
    obtain ⟨rfl, _⟩ := h
    cases w₁.eventFor call.message.messageId a with
    | none => exact Or.inl ⟨rfl, rfl⟩
    | some e => exact Or.inr ⟨e, e, rfl, rfl, rfl⟩
  have hread : ∀ {e₁ e₂ : AuditEvent}, View.exact.draft e₁.toAuditDraft = View.exact.draft e₂.toAuditDraft →
      e₁.classification = e₂.classification
        ∧ View.exact.id e₁.correlationId = View.exact.id e₂.correlationId :=
    fun hd => ⟨congrArg AuditDraft.classification hd, congrArg AuditDraft.correlationId hd⟩
  have U : Unwinding View.exact env env call.message (fun w₁ w₂ => w₁ = w₂ ∧ P w₁) :=
    { gate := fun h c t => by rw [h.1]
      newId := hid
      now := by
        intro w₁ w₂ h
        obtain ⟨rfl, hw⟩ := h
        exact ⟨rfl, rfl, now w₁ hw⟩
      append := happend
      enqueueTriage := by
        intro w₁ w₂ h reason
        obtain ⟨rfl, hw⟩ := h
        exact ⟨rfl, enqueueTriage w₁ _ reason hw⟩
      enqueueTask := by
        intro w₁ w₂ h subtype missing i₁ i₂ hi
        obtain ⟨rfl, hw⟩ := h
        subst hi
        exact ⟨rfl, enqueueTask w₁ _ hw⟩
      classify := by
        intro w₁ w₂ h shown
        obtain ⟨rfl, hw⟩ := h
        exact ⟨rfl, rfl, classify w₁ shown hw⟩
      eventFor := fun h a _ => hfor h a
      openConfirmation := fun h d => openConfirmation_unwinds hid happend hread (hfor h _) h d }
  exact (serve_unwinds U ⟨rfl, h⟩).2.2

/-! ## Calls of the registry -/

/-- **The unwinding conditions for calls of the registry**, for a relation between worlds over equal registries. -/
structure RegistryUnwinding (R : World → World → Prop) : Prop where
  registry : ∀ {w₁ w₂}, R w₁ w₂ → w₁.registry = w₂.registry
  mutate : ∀ {w₁ w₂}, R w₁ w₂ → ∀ r, R { w₁ with registry := r } { w₂ with registry := r }
  newId : ∀ {w₁ w₂}, R w₁ w₂ → R w₁.newId.2 w₂.newId.2
  /-- The event of a registration bears the id that was drawn for it. -/
  record : ∀ {w₁ w₂}, R w₁ w₂ → ∀ c subjectDigest,
    R (w₁.newId.2.append (caseRegisteredDraft c subjectDigest w₁.newId.1))
      (w₂.newId.2.append (caseRegisteredDraft c subjectDigest w₂.newId.1))

namespace RegistryUnwinding

theorem registerCase (U : RegistryUnwinding R) (hsha : env₁.sha256 = env₂.sha256) (h : R w₁ w₂)
    (e : EngagementId) (c : CaseId) :
    (registerCase env₁ w₁ e c).1 = (registerCase env₂ w₂ e c).1
      ∧ R (registerCase env₁ w₁ e c).2 (registerCase env₂ w₂ e c).2 := by
  have hregistry : w₁.registry.registerCase e c = w₂.registry.registerCase e c := by rw [U.registry h]
  have hdigest : ∀ subject, digest env₁ subject = digest env₂ subject := by
    intro subject
    unfold digest
    rw [hsha]
  have h₁ := registerCase_spec env₁ w₁ e c
  have h₂ := registerCase_spec env₂ w₂ e c
  generalize IntakeService.registerCase env₁ w₁ e c = x₁ at h₁ ⊢
  generalize IntakeService.registerCase env₂ w₂ e c = x₂ at h₂ ⊢
  -- one registry and one hash, so both end in the same way
  cases h₁ with
  | refused hr₁ =>
      rw [hregistry] at hr₁
      cases h₂ with
      | refused hr₂ => cases hr₁.symm.trans hr₂; exact ⟨rfl, h⟩
      | lost hr₂ | recorded hr₂ => cases hr₁.symm.trans hr₂
  | lost hr₁ hd₁ =>
      rw [hregistry] at hr₁
      rw [hdigest] at hd₁
      cases h₂ with
      | refused hr₂ => cases hr₁.symm.trans hr₂
      | lost hr₂ => cases hr₁.symm.trans hr₂; exact ⟨rfl, U.newId (U.mutate h _)⟩
      | recorded _ hd₂ => cases hd₁.symm.trans hd₂
  | recorded hr₁ hd₁ =>
      rw [hregistry] at hr₁
      rw [hdigest] at hd₁
      cases h₂ with
      | refused hr₂ => cases hr₁.symm.trans hr₂
      | lost _ hd₂ => cases hd₁.symm.trans hd₂
      | recorded hr₂ hd₂ =>
          cases hr₁.symm.trans hr₂
          cases hd₁.symm.trans hd₂
          exact ⟨rfl, U.record (U.mutate h _) _ _⟩

/-- **The relation survives every call of the registry**, and both calls are answered alike. -/
theorem perform (U : RegistryUnwinding R) (hsha : env₁.sha256 = env₂.sha256) (h : R w₁ w₂) {call : Call}
    (hcall : ∀ m, call ≠ .message m) :
    (perform env₁ w₁ call).1 = (perform env₂ w₂ call).1 ∧ R (perform env₁ w₁ call).2 (perform env₂ w₂ call).2 := by
  cases call with
  | message m => exact absurd rfl (hcall m)
  | registerCase e c =>
      obtain ⟨hresult, hw⟩ := U.registerCase hsha h e c
      exact ⟨congrArg Reply.registry hresult, hw⟩
  | registry op =>
      unfold Intake.perform
      dsimp only
      rw [U.registry h]
      cases w₂.registry.apply op with
      | error err => exact ⟨rfl, h⟩
      | ok r => exact ⟨rfl, U.mutate h r⟩

end RegistryUnwinding

/-- **What survives the primitives and a change of the registry survives any call.** -/
theorem perform_preserves {P : World → Prop} {env : Env}
    (newId : ∀ w, P w → P w.newId.2) (now : ∀ w, P w → P w.now.2)
    (append : ∀ w d, P w → P (w.append d))
    (enqueueTriage : ∀ w m reason, P w → P (w.enqueueTriage m reason))
    (enqueueTask : ∀ (w : World) task, P w → P { w with clarifications := (w.clarifications.enqueue task).2 })
    (classify : ∀ w shown, P w → P (ClassificationService.classify env w shown).2)
    (registry : ∀ (w : World) registry, P w → P { w with registry })
    {w : World} (h : P w) (call : Call) : P (perform env w call).2 := by
  have U : RegistryUnwinding fun w₁ w₂ => w₁ = w₂ ∧ P w₁ :=
    { registry := fun h => congrArg World.registry h.1
      mutate := by
        intro w₁ w₂ h r
        obtain ⟨rfl, hw⟩ := h
        exact ⟨rfl, registry w₁ r hw⟩
      newId := by
        intro w₁ w₂ h
        obtain ⟨rfl, hw⟩ := h
        exact ⟨rfl, newId w₁ hw⟩
      record := by
        intro w₁ w₂ h c subjectDigest
        obtain ⟨rfl, hw⟩ := h
        exact ⟨rfl, append _ _ (newId w₁ hw)⟩ }
  cases call with
  | message call => exact serve_preserves newId now append enqueueTriage enqueueTask classify call h
  | registerCase e c => exact (U.perform rfl ⟨rfl, h⟩ (by simp)).2.2
  | registry op => exact (U.perform rfl ⟨rfl, h⟩ (by simp)).2.2

/-- **And of any step of the system**, if it does not depend on what the clock shows. -/
theorem system_preserves {P : World → Prop} {env : Env}
    (newId : ∀ w, P w → P w.newId.2) (now : ∀ w, P w → P w.now.2)
    (append : ∀ w d, P w → P (w.append d))
    (enqueueTriage : ∀ w m reason, P w → P (w.enqueueTriage m reason))
    (enqueueTask : ∀ (w : World) task, P w → P { w with clarifications := (w.clarifications.enqueue task).2 })
    (classify : ∀ w shown, P w → P (ClassificationService.classify env w shown).2)
    (registry : ∀ (w : World) registry, P w → P { w with registry })
    (during : ∀ (w : World) clock, P w → P (w.during clock))
    (w : World) (req : Request) (h : P w) : P (system env w req).2 :=
  perform_preserves newId now append enqueueTriage enqueueTask classify registry (during w req.clock h) req.call

end Intake.Proof
