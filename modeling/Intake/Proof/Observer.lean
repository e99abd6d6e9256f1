import Intake.Proof.Unwinding

/-!
# Observers

Two runs of the system are compared by what an observer sees of them. An observer
may be kept from the audit-only denial detail, or from everything the model has a
hand in: the proposals themselves, the corrections they provoke, and the ids and
sequence numbers, whose count depends on whether a correction was written.

`serve_twin` is the unwinding theorem for every observer at once: if two worlds
look alike, the gates of the two registries answer alike and the two classifiers
answer alike, then a call is answered alike and the worlds still look alike.
-/

namespace Intake.Proof

open IntakeService ClassificationService EventLog

/-- What an observer is shown besides what everybody sees. -/
structure Observer where
  /-- The audit-only detail of a denial. -/
  detail : Bool
  /-- What the model proposed, and the generated values that depend on it. -/
  model : Bool

namespace Observer

variable (o : Observer)

/-! ## What an observer sees -/

def id (s : PyStr) : PyStr := if o.model then s else []

def decision (d : AuthorisationDecision) : AuthorisationDecision :=
  { d with detail := if o.detail then d.detail else none }

/-- Of a proposal everybody sees whether it was flagged. -/
def proposal (p : ClassificationProposal) : Option ClassificationProposal × Option ReasonCode :=
  (if o.model then some p else none, p.triageReason)

def result (r : ProposalResult) : ProposalResult :=
  { r with proposal := if o.model then r.proposal else none }

/-- The payload of a proposed event is the model's; the payload of any other event is not. -/
def payload (action : AuditAction) (p : ClassificationPayload) : ClassificationPayload :=
  if o.model || action ≠ .classificationProposed then p else payloadOf none

def draft (d : AuditDraft) : AuditDraft :=
  { d with
    detail := if o.detail then d.detail else none
    correlationId := o.id d.correlationId
    classification := d.classification.map (o.payload d.action) }

/-- Corrections are seen only together with the proposals they correct. -/
def event (e : AuditEvent) : Option AuditEvent :=
  if o.model || e.action ≠ .classificationCorrected then
    some
      { toAuditDraft := o.draft e.toAuditDraft
        eventId := o.id e.eventId
        sequence := if o.model then e.sequence else 0
        stampedAt := e.stampedAt }
  else
    none

def log (audit : List AuditEvent) : List AuditEvent := audit.filterMap o.event

def item (i : TriageItem) : TriageItem := { i with triageItemId := o.id i.triageItemId }

def task (t : ClarificationTask) : ClarificationTask := { t with taskId := o.id t.taskId }

def reply : Reply → Reply
  | .intake r => .intake (r.map o.decision)
  | .proposal r => .proposal (o.result r)
  | .confirmation r => .confirmation r
  | .registry r => .registry r

/-! ## What a view determines -/

variable {o}

theorem decision_eq {d₁ d₂ : AuthorisationDecision} (h : o.decision d₁ = o.decision d₂) :
    d₁.kind = d₂.kind ∧ d₁.caseId = d₂.caseId ∧ d₁.reason = d₂.reason
      ∧ (if o.detail then d₁.detail else none) = if o.detail then d₂.detail else none :=
  AuthorisationDecision.mk.inj h

theorem draft_eq {d₁ d₂ : AuditDraft} (h : o.draft d₁ = o.draft d₂) :
    d₁.action = d₂.action ∧ d₁.outcome = d₂.outcome ∧ d₁.caseId = d₂.caseId ∧ d₁.reason = d₂.reason
      ∧ d₁.reviewerId = d₂.reviewerId ∧ o.id d₁.correlationId = o.id d₂.correlationId := by
  obtain ⟨h1, h2, _, _, _, h6, _, h8, h9, h10, _⟩ := AuditDraft.mk.inj h
  exact ⟨h1, h2, h8, h6, h10, h9⟩

/-- A payload that is not the model's, or shown to someone who sees the model's, is seen in full. -/
theorem classification_eq {d₁ d₂ : AuditDraft} (h : o.draft d₁ = o.draft d₂)
    (hv : o.model = true ∨ d₁.action ≠ .classificationProposed) :
    d₁.classification = d₂.classification := by
  have hpayload : d₁.classification.map (o.payload d₁.action) = d₂.classification.map (o.payload d₂.action) :=
    congrArg AuditDraft.classification h
  have hfull : ∀ p, o.payload d₁.action p = p := fun p => if_pos (by simpa using hv)
  rw [← (draft_eq h).1, funext hfull] at hpayload
  simpa using hpayload

/-- What is seen of an event is its draft, as far as that is seen. -/
theorem event_draft {e e' : AuditEvent} (h : o.event e = some e') :
    e'.toAuditDraft = o.draft e.toAuditDraft := by
  unfold event at h
  split at h
  · rw [← Option.some.inj h]
  · cases h

theorem event_eq_none {e : AuditEvent} (h : o.event e = none) :
    o.model = false ∧ e.action = .classificationCorrected := by
  unfold event at h
  split at h
  · cases h
  · rename_i hno
    simpa using hno

theorem item_congr (m : IntakeMessage) (reason : ReasonCode) {i₁ i₂ : PyStr} (hi : o.id i₁ = o.id i₂) :
    o.item (triageItem m reason i₁) = o.item (triageItem m reason i₂) := by
  simp [item, triageItem, hi]

theorem intakeDecisionDraft_congr (m : IntakeMessage) {d₁ d₂ : AuthorisationDecision} {c₁ c₂ : PyStr}
    (hd : o.decision d₁ = o.decision d₂) (hc : o.id c₁ = o.id c₂) :
    o.draft (intakeDecisionDraft m d₁ c₁) = o.draft (intakeDecisionDraft m d₂ c₂) := by
  obtain ⟨hk, hcase, hr, hdetail⟩ := decision_eq hd
  simp [draft, intakeDecisionDraft, hk, hcase, hr, hdetail, hc]

theorem authCheckDraft_congr (m : IntakeMessage) (d : HumanDecision) {a₁ a₂ : AuthorisationDecision}
    {c₁ c₂ : PyStr} (ha : o.decision a₁ = o.decision a₂) (hc : o.id c₁ = o.id c₂) :
    o.draft (authCheckDraft m d a₁ c₁) = o.draft (authCheckDraft m d a₂ c₂) := by
  obtain ⟨hk, hcase, hr, hdetail⟩ := decision_eq ha
  simp [draft, authCheckDraft, hk, hcase, hr, hdetail, hc]

theorem reviewDraft_congr (a : AuditAction) (out : AuditOutcome) (m : IntakeMessage) (d : HumanDecision)
    {c₁ c₂ : PyStr} (hc : o.id c₁ = o.id c₂) :
    o.draft (reviewDraft a out m d c₁) = o.draft (reviewDraft a out m d c₂) := by
  simp [draft, reviewDraft, hc]

theorem proposalDraft_congr (m : IntakeMessage) (out : AuditOutcome) (reason : Option ReasonCode)
    {p₁ p₂ : Option ClassificationProposal} {c₁ c₂ : PyStr} (hp : p₁.map o.proposal = p₂.map o.proposal)
    (hc : o.id c₁ = o.id c₂) :
    o.draft (proposalDraft m p₁ out reason c₁) = o.draft (proposalDraft m p₂ out reason c₂) := by
  have hpayload : o.payload .classificationProposed (payloadOf p₁)
      = o.payload .classificationProposed (payloadOf p₂) := by
    unfold payload
    cases hm : o.model with
    | false => rfl
    | true =>
        have hinj : Function.Injective o.proposal := by
          intro p q hpq
          simp only [proposal, hm, if_true, Prod.mk.injEq, Option.some.injEq] at hpq
          exact hpq.1
        rw [Option.map_injective hinj hp]
  simp [draft, proposalDraft, hpayload, hc]

/-! ## What is read back from an event -/

theorem decisionFromEvent_congr {e₁ e₂ : AuditEvent}
    (h : o.draft e₁.toAuditDraft = o.draft e₂.toAuditDraft) :
    (decisionFromEvent e₁).map o.decision = (decisionFromEvent e₂).map o.decision := by
  obtain ⟨_, hout, hcase, hreason, _, _⟩ := draft_eq h
  have hdetail : (if o.detail then e₁.detail else none) = if o.detail then e₂.detail else none :=
    congrArg AuditDraft.detail h
  rw [decisionFromEvent, decisionFromEvent, hout]
  cases DecisionKind.ofValue e₂.outcome with
  | error err => rfl
  | ok kind => simp [Except.map, decision, hcase, hreason, hdetail]

/-- A replayed proposal is pending only if the event says so and carries a payload, whichever. -/
theorem proposalFromEvent_triaged (e : AuditEvent) :
    (proposalFromEvent e).triaged = !(Decidable.decide (e.outcome = .pending) && e.classification.isSome) := by
  rw [proposalFromEvent]
  cases e.outcome <;> cases e.classification <;> rfl

theorem proposalFromEvent_congr {e₁ e₂ : AuditEvent}
    (h : o.draft e₁.toAuditDraft = o.draft e₂.toAuditDraft) :
    o.result (proposalFromEvent e₁) = o.result (proposalFromEvent e₂) := by
  obtain ⟨_, hout, _⟩ := draft_eq h
  cases hm : o.model with
  | true => rw [proposalFromEvent, proposalFromEvent, hout, classification_eq h (Or.inl hm)]
  | false =>
      -- the payload is hidden, but not whether there is one
      have hsome : e₁.classification.isSome = e₂.classification.isSome := by
        simpa [draft] using congrArg (fun d => d.classification.isSome) h
      simp [result, hm, proposalFromEvent_triaged, hout, hsome]

theorem eventSignature_congr {e₁ e₂ : AuditEvent} (h : o.draft e₁.toAuditDraft = o.draft e₂.toAuditDraft)
    (ha : e₁.action ≠ .classificationProposed) : eventSignature e₁ = eventSignature e₂ := by
  obtain ⟨_, hout, hcase, _, hreviewer, _⟩ := draft_eq h
  rw [eventSignature, eventSignature, hout, hcase, hreviewer, classification_eq h (Or.inr ha)]

theorem confirmFromEvent_congr {e₁ e₂ : AuditEvent}
    (h : o.draft e₁.toAuditDraft = o.draft e₂.toAuditDraft) : confirmFromEvent e₁ = confirmFromEvent e₂ := by
  obtain ⟨_, hout, hcase, _⟩ := draft_eq h
  rw [confirmFromEvent, confirmFromEvent, hout, hcase]

end Observer

/-! ## Worlds that look alike -/

/-- The two worlds look alike to `o`, and their registries are related by `G`. -/
structure Alike (o : Observer) (G : CaseRegistry → CaseRegistry → Prop) (w₁ w₂ : World) : Prop where
  registry : G w₁.registry w₂.registry
  audit : o.log w₁.audit = o.log w₂.audit
  triage : w₁.triage.items.map o.item = w₂.triage.items.map o.item
  clarifications : w₁.clarifications.items.map o.task = w₂.clarifications.items.map o.task
  classified : w₁.classified = w₂.classified
  clock : w₁.clock = w₂.clock
  /-- The generators are in step as far as they can be seen. -/
  ids : o.model = true → w₁.ids = w₂.ids
  /-- Whoever does not see corrections does not see the clock move for one either. -/
  fixed : o.model = true ∨ ∃ t, w₁.clock = Stream'.const t

/-- Two results with their worlds, seen through `f` and `o`. -/
def Twin {α β : Type} (o : Observer) (G : CaseRegistry → CaseRegistry → Prop) (f : α → β)
    (x₁ x₂ : α × World) : Prop :=
  f x₁.1 = f x₂.1 ∧ Alike o G x₁.2 x₂.2

variable {o : Observer} {G : CaseRegistry → CaseRegistry → Prop} {w₁ w₂ : World}

theorem Observer.log_length (hm : o.model = true) (l : List AuditEvent) : (o.log l).length = l.length := by
  rw [log, List.length_filterMap_eq_countP, List.countP_eq_length]
  intro e _
  simp [event, hm]

/-! ## The primitives -/

theorem Alike.newId (h : Alike o G w₁ w₂) : Twin o G o.id w₁.newId w₂.newId := by
  refine ⟨?_, { h with ids := fun hm => congrArg Stream'.tail (h.ids hm) }⟩
  cases hm : o.model with
  | true => exact congrArg o.id (congrArg Stream'.head (h.ids hm))
  | false => simp [Observer.id, hm]

theorem Alike.now (h : Alike o G w₁ w₂) : w₁.now.1 = w₂.now.1 ∧ Alike o G w₁.now.2 w₂.now.2 :=
  ⟨congrArg Stream'.head h.clock,
    { h with
      clock := congrArg Stream'.tail h.clock
      fixed := h.fixed.imp (fun hm => hm) fun ⟨t, ht⟩ => ⟨t, by
        rw [show w₁.now.2.clock = w₁.clock.tail from rfl, ht, Stream'.tail_const]⟩ }⟩

theorem Alike.append (h : Alike o G w₁ w₂) {d₁ d₂ : AuditDraft} (hd : o.draft d₁ = o.draft d₂) :
    Alike o G (w₁.append d₁) (w₂.append d₂) := by
  obtain ⟨hid, hw⟩ := h.newId
  obtain ⟨hnow, hw⟩ := hw.now
  -- whoever sees sequence numbers sees every event, so the two logs are equally long
  have hseq : (if o.model then w₁.audit.length + 1 else 0) = if o.model then w₂.audit.length + 1 else 0 := by
    split_ifs with hm
    · rw [← o.log_length hm w₁.audit, h.audit, o.log_length hm]
    · rfl
  refine { hw with audit := ?_ }
  have hevent : o.event ⟨d₁, w₁.newId.1, w₁.audit.length + 1, w₁.newId.2.now.1⟩
      = o.event ⟨d₂, w₂.newId.1, w₂.audit.length + 1, w₂.newId.2.now.1⟩ := by
    simp only [Observer.event, hd, hid, hseq, hnow, (Observer.draft_eq hd).1]
  show o.log (w₁.audit ++ [_]) = o.log (w₂.audit ++ [_])
  rw [Observer.log, Observer.log, List.filterMap_append, List.filterMap_append, ← Observer.log,
    ← Observer.log, h.audit]
  congr 1
  exact congrArg Option.toList hevent

/-- An unseen event leaves no trace on one side: not in the log, nor on a clock that stands still. -/
theorem Alike.append_left (h : Alike o G w₁ w₂) (hm : o.model = false) {d : AuditDraft}
    (hd : d.action = .classificationCorrected) : Alike o G (w₁.append d) w₂ := by
  obtain ⟨t, ht⟩ := h.fixed.resolve_left (by simp [hm])
  have hclock : (w₁.append d).clock = w₁.clock := by
    rw [show (w₁.append d).clock = w₁.clock.tail from rfl, ht, Stream'.tail_const]
  refine { h with
    audit := ?_
    clock := hclock.trans h.clock
    ids := fun hm' => absurd hm' (by simp [hm])
    fixed := Or.inr ⟨t, hclock.trans ht⟩ }
  have hunseen : o.event ⟨d, w₁.newId.1, w₁.audit.length + 1, w₁.newId.2.now.1⟩ = none := by
    simp [Observer.event, hm, hd]
  show o.log (w₁.audit ++ [_]) = _
  rw [Observer.log, List.filterMap_append, ← Observer.log, h.audit]
  exact (congrArg (fun x => o.log w₂.audit ++ Option.toList x) hunseen).trans (List.append_nil _)

theorem Alike.symm (h : Alike o G w₁ w₂) : Alike o (fun r₁ r₂ => G r₂ r₁) w₂ w₁ where
  registry := h.registry
  audit := h.audit.symm
  triage := h.triage.symm
  clarifications := h.clarifications.symm
  classified := h.classified.symm
  clock := h.clock.symm
  ids := fun hm => (h.ids hm).symm
  fixed := h.fixed.imp (fun hm => hm) fun ⟨t, ht⟩ => ⟨t, h.clock ▸ ht⟩

theorem Alike.enqueueTriage (h : Alike o G w₁ w₂) (m : IntakeMessage) (reason : ReasonCode) :
    Alike o G (w₁.enqueueTriage m reason) (w₂.enqueueTriage m reason) := by
  obtain ⟨hid, hw⟩ := h.newId
  have hkey : ∀ a b, o.item a = o.item b → a.messageId = b.messageId := fun a b hab => by
    have hm := congrArg TriageItem.messageId hab
    exact hm
  exact { hw with triage := KeyedQueue.enqueue_congr o.item hkey hw.triage (Observer.item_congr m reason hid) }

theorem Alike.enqueueTask (h : Alike o G w₁ w₂) (m : MessageId) (subtype : Option NewDeliverableSubtype)
    (missing : List MissingField) {i₁ i₂ : PyStr} (hi : o.id i₁ = o.id i₂) :
    Alike o G { w₁ with clarifications := (w₁.clarifications.enqueue ⟨i₁, m, subtype, missing⟩).2 }
      { w₂ with clarifications := (w₂.clarifications.enqueue ⟨i₂, m, subtype, missing⟩).2 } := by
  have hkey : ∀ a b, o.task a = o.task b → a.messageId = b.messageId := fun a b hab => by
    have hm := congrArg ClarificationTask.messageId hab
    exact hm
  exact { h with
    clarifications := KeyedQueue.enqueue_congr o.task hkey h.clarifications (by simp only [Observer.task, hi]) }

/-- **Lookups look alike**, except for events that may be unseen. -/
theorem Alike.eventFor (h : Alike o G w₁ w₂) (x : MessageId) {a : AuditAction}
    (ha : a ≠ .classificationCorrected) :
    (w₁.eventFor x a = none ∧ w₂.eventFor x a = none)
      ∨ ∃ e₁ e₂, w₁.eventFor x a = some e₁ ∧ w₂.eventFor x a = some e₂
        ∧ o.draft e₁.toAuditDraft = o.draft e₂.toAuditDraft := by
  have hseen : ∀ {w : World} {e : AuditEvent}, w.eventFor x a = some e →
      ∃ e', o.event e = some e' ∧ e'.toAuditDraft = o.draft e.toAuditDraft := by
    intro w e he
    cases hev : o.event e with
    | none => exact absurd ((World.eventFor_spec he).2.1.symm.trans (Observer.event_eq_none hev).2) ha
    | some e' => exact ⟨e', rfl, Observer.event_draft hev⟩
  have hany : ∀ e : AuditEvent, (o.event e).any (fun e => e.toAuditDraft.isFor x a)
      = e.toAuditDraft.isFor x a := by
    intro e
    cases hev : o.event e with
    | none => simp [AuditDraft.isFor, (Observer.event_eq_none hev).2, ha.symm]
    | some e' => rw [Option.any_some, Observer.event_draft hev]; rfl
  have hview : (w₁.eventFor x a).bind o.event = (w₂.eventFor x a).bind o.event := by
    rw [World.eventFor, World.eventFor, ← latest_filterMap o.event hany, ← latest_filterMap o.event hany]
    exact congrArg _ h.audit
  -- a lookup finds only events that are seen, so it succeeds on both sides or on neither
  cases h₁ : w₁.eventFor x a <;> cases h₂ : w₂.eventFor x a <;> rw [h₁, h₂] at hview
  case none.none => exact Or.inl ⟨rfl, rfl⟩
  case none.some e =>
      obtain ⟨e', he', _⟩ := hseen h₂
      exact absurd (hview.trans he') (by simp)
  case some.none e =>
      obtain ⟨e', he', _⟩ := hseen h₁
      exact absurd (hview.symm.trans he') (by simp)
  case some.some e₁ e₂ =>
      obtain ⟨e₁', he₁, hd₁⟩ := hseen h₁
      obtain ⟨e₂', he₂, hd₂⟩ := hseen h₂
      have heq : e₁' = e₂' := Option.some.inj (he₁.symm.trans (hview.trans he₂))
      exact Or.inr ⟨e₁, e₂, rfl, rfl, by rw [← hd₁, ← hd₂, heq]⟩

/-! ## What unwinds -/

/-- What an observer sees determines what the code reads back. -/
def Observer.view (o : Observer) : View where
  id := o.id
  decision := o.decision
  proposal := o.proposal
  result := o.result
  draft := o.draft
  decision_eq h := ⟨(decision_eq h).1, (decision_eq h).2.1, (decision_eq h).2.2.1⟩
  proposal_eq h := ⟨(Prod.mk.inj h).2, by simpa [result] using (Prod.mk.inj h).1⟩
  intakeDecisionDraft_eq m _ _ _ _ := intakeDecisionDraft_congr m
  authCheckDraft_eq m d _ _ _ _ := authCheckDraft_congr m d
  reviewDraft_eq a out m d _ _ := reviewDraft_congr a out m d
  proposalDraft_eq m out reason _ _ _ _ := proposalDraft_congr m out reason
  decisionFromEvent_eq := decisionFromEvent_congr
  proposalFromEvent_eq := proposalFromEvent_congr
  eventSignature_eq := eventSignature_congr
  confirmFromEvent_eq := confirmFromEvent_congr

theorem Observer.view_reply (o : Observer) : o.view.reply = o.reply := by
  funext r
  cases r <;> rfl

/-- The gate answers alike over the two registries, for one principal. -/
def GateAlike (o : Observer) (p : PrincipalId) (r₁ r₂ : CaseRegistry) : Prop :=
  ∀ c t, o.decision (authorise r₁ p c t) = o.decision (authorise r₂ p c t)

/-- The two classifiers look alike: on every projection, whatever they were shown before. -/
def ModelAlike (o : Observer) (env₁ env₂ : Env) : Prop :=
  ∀ history shown, (env₁.classify history shown).map o.proposal = (env₂.classify history shown).map o.proposal

variable {env₁ env₂ : Env} {m : IntakeMessage}

theorem classify_twin (h : Alike o G w₁ w₂) (hmodel : ModelAlike o env₁ env₂) (shown : MessageProjection) :
    Twin o G (Option.map o.proposal) (ClassificationService.classify env₁ w₁ shown)
      (ClassificationService.classify env₂ w₂ shown) := by
  refine ⟨?_, { h with classified := by simp [ClassificationService.classify, h.classified] }⟩
  simp only [ClassificationService.classify, h.classified]
  exact hmodel _ _

/-- One side may record a correction that the other does not, if the observer cannot tell. -/
theorem openConfirmation_twin (h : Alike o G w₁ w₂) (d : HumanDecision) :
    Twin o G o.id (openConfirmation w₁ m d) (openConfirmation w₂ m d) := by
  unfold openConfirmation
  rcases h.eventFor m.messageId (a := .classificationProposed) (by simp) with
    ⟨h₁, h₂⟩ | ⟨e₁, e₂, h₁, h₂, hd⟩ <;> rw [h₁, h₂]
  case inl => exact h.newId
  have hcid : o.id e₁.correlationId = o.id e₂.correlationId := (Observer.draft_eq hd).2.2.2.2.2
  dsimp only
  cases hm : o.model with
  | true =>
      have hcorrection : isCorrection e₁ d = isCorrection e₂ d := by
        rw [isCorrection, isCorrection, Observer.classification_eq hd (Or.inl hm)]
      rw [hcorrection]
      split_ifs
      · exact ⟨hcid, h.append (Observer.reviewDraft_congr _ _ m d hcid)⟩
      · exact ⟨hcid, h⟩
  | false =>
      -- the payloads may differ, so either side may record a correction on its own
      split_ifs
      · exact ⟨hcid, h.append (Observer.reviewDraft_congr _ _ m d hcid)⟩
      · exact ⟨hcid, h.append_left hm rfl⟩
      · exact ⟨hcid, (h.symm.append_left hm rfl).symm⟩
      · exact ⟨hcid, h⟩

theorem alike_unwinding (hmodel : ModelAlike o env₁ env₂) (m : IntakeMessage) :
    Unwinding o.view env₁ env₂ m (Alike o (GateAlike o m.principalId)) where
  gate h := h.registry
  newId h := h.newId
  now h := h.now
  append h _ _ := h.append
  enqueueTriage h := h.enqueueTriage m
  enqueueTask h subtype missing _ _ := h.enqueueTask m.messageId subtype missing
  classify h := classify_twin h hmodel
  eventFor h _ := h.eventFor m.messageId
  openConfirmation h := openConfirmation_twin h

/--
**The unwinding step.** Worlds that look alike serve a call alike and keep looking
alike, if the gates and the classifiers look alike.
-/
theorem serve_twin (hmodel : ModelAlike o env₁ env₂) (call : MessageCall)
    (h : Alike o (GateAlike o call.message.principalId) w₁ w₂) :
    Twin o (GateAlike o call.message.principalId) o.reply (serve env₁ w₁ call) (serve env₂ w₂ call) := by
  obtain ⟨hreply, hw⟩ := serve_unwinds (alike_unwinding hmodel call.message) h
  rw [o.view_reply] at hreply
  exact ⟨hreply, hw⟩

end Intake.Proof
