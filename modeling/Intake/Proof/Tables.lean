import Intake.Proof.Replay
import Intake.Proof.Restart

/-!
# What the services remember

The services hold no state of their own. Before a call does anything it searches the
log for an event of its message, and answers from that event if there is one: the
log is their database, and events are decoded into answers.

`Tables` is that database without the log. It has one table for each of the three
kinds of answer, under the message id, and no entry is ever written twice. `tables`
is the services over it: no events, no ids and no queues. What the gate and the
reviewer decide is one function each, `decideAt` and `routeAt`.

Every run of the services is answered as some run of the tables: the same calls, with
instants that the clocks of the requests really showed.
-/

namespace Intake.Proof

open IntakeService ClassificationService EventLog

/-! ## Policy, without the bookkeeping -/

/-- What an intake decides at an instant. -/
def decideAt (r : CaseRegistry) (m : IntakeMessage) (t : Instant) : AuthorisationDecision :=
  match m.claimedCaseIds with
  | [] => { kind := .triage, reason := some .noCaseReference }
  | [claimed] => authorise r m.principalId claimed t
  | _ => { kind := .triage, reason := some .ambiguousCaseReference }

/-- A single claimed case, denied at an instant. -/
def DeniedAt (r : CaseRegistry) (m : IntakeMessage) (t : Instant) : Prop :=
  m.claimedCaseIds.length = 1 ∧ (decideAt r m t).kind = .triage

instance (r : CaseRegistry) (m : IntakeMessage) (t : Instant) : Decidable (DeniedAt r m t) :=
  inferInstanceAs (Decidable (_ ∧ _))

/-- What a proposal reports of the classifier's answer. -/
def reportOf : Option ClassificationProposal → ProposalResult
  | none => ⟨none, true⟩
  | some p => if p.triageReason = none then ⟨some p, false⟩ else ⟨none, true⟩

/-- Where a reviewer's decision leads at an instant. -/
def routeAt (r : CaseRegistry) (m : IntakeMessage) (d : HumanDecision) (t : Instant) : ConfirmResult :=
  if d.triage then
    ⟨.triage, none⟩
  else
    match d.confirmedClass with
    | none => ⟨.triage, none⟩
    | some .response => ⟨.responseReady, none⟩
    | some .newDeliverable =>
        if d.confirmedMissingFields = [] then ⟨.newDeliverableReady, none⟩ else ⟨.awaitingInputs, none⟩
    | some .existingFollowup =>
        match d.selectedCaseId with
        | none => ⟨.triage, none⟩
        | some c =>
            if (authorise r m.principalId c t).kind = .authorised then ⟨.followupAuthorised, some c⟩
            else ⟨.triage, none⟩

/-- The decision that a second confirmation has to repeat: the flag is the outcome's. -/
def recordedDecision (d : HumanDecision) (result : ConfirmResult) : HumanDecision :=
  { d with triage := decide (result.outcome = .triage) }

/-! ## The tables -/

/-- Answers already given, under the id of the message they were given for. -/
structure Tables where
  registry : CaseRegistry
  decisions : MessageId → Option AuthorisationDecision
  proposals : MessageId → Option ProposalResult
  confirmations : MessageId → Option (HumanDecision × ConfirmResult)
  /-- What the classifier has been shown. -/
  shown : List MessageProjection

/-- Nothing answered yet. -/
def Tables.init (registry : CaseRegistry) : Tables :=
  ⟨registry, fun _ => none, fun _ => none, fun _ => none, []⟩

/-- A call, with the instant at which the gate is read and the one at which candidates are. -/
structure Task where
  call : Call
  gate : Instant
  scope : Instant

/-- The first proposal of a message. -/
def Tables.firstProposal (env : Env) (s : Tables) (m : IntakeMessage) (text : PyStr) (gate scope : Instant) :
    ProposalResult × Tables :=
  if DeniedAt s.registry m gate then
    (⟨none, true⟩,
      { s with decisions := Function.update s.decisions m.messageId (some (decideAt s.registry m gate)) })
  else
    let projection := projectionAt s.registry scope m text
    let report := reportOf (env.classify s.shown projection)
    (report,
      { s with
        proposals := Function.update s.proposals m.messageId (some (withoutSpans report))
        shown := s.shown ++ [projection] })

/-- **The services over tables.** -/
def tables (env : Env) : Machine Tables Task Reply := fun s task =>
  match task.call with
  | .message (.handleIntake m) =>
      match s.decisions m.messageId with
      | some decision => (.intake (.ok decision), s)
      | none =>
          let decision := decideAt s.registry m task.gate
          (.intake (.ok decision),
            { s with decisions := Function.update s.decisions m.messageId (some decision) })
  | .message (.propose m text) =>
      match s.proposals m.messageId, s.decisions m.messageId with
      | some report, _ => (.proposal report, s)
      | none, some _ => (.proposal ⟨none, true⟩, s)
      | none, none =>
          let (report, s) := s.firstProposal env m text task.gate task.scope
          (.proposal report, s)
  | .message (.confirm m d) =>
      match s.confirmations m.messageId with
      | some (recorded, result) =>
          (.confirmation (if recorded = d then .ok result else .error (.conflictingDecision m.messageId)), s)
      | none =>
          let result := routeAt s.registry m d task.gate
          (.confirmation (.ok result),
            { s with
              confirmations :=
                Function.update s.confirmations m.messageId (some (recordedDecision d result, result)) })
  | .registerCase e c =>
      match s.registry.registerCase e c with
      | .error err => (.registry (.error err), s)
      | .ok registry =>
          let subject := e ++ PyStr.ofString ":" ++ c
          (.registry (if (digest env subject).isSome then .ok () else .error .unicodeEncodeError),
            { s with registry })
  | .registry op =>
      match s.registry.apply op with
      | .error err => (.registry (.error err), s)
      | .ok registry => (.registry (.ok ()), { s with registry })

/-! ## Reading the tables off the log -/

/-- **The tables hold what the log decodes to.** -/
structure Remembers (w : World) (s : Tables) : Prop where
  registry : s.registry = w.registry
  decisions : ∀ x, (w.eventFor x .intakeDecision).map decisionFromEvent = (s.decisions x).map Except.ok
  proposals : ∀ x, (w.eventFor x .classificationProposed).map proposalFromEvent = s.proposals x
  confirmations : ∀ x,
    (w.eventFor x .classificationConfirmed).map (fun e => (eventSignature e, confirmFromEvent e))
      = (s.confirmations x).map fun entry => (decisionSignature entry.1, .ok entry.2)
  shown : s.shown = w.classified

theorem remembers_init (registry : CaseRegistry) (ids : Stream' PyStr) :
    Remembers (World.init registry ids) (Tables.init registry) :=
  ⟨rfl, fun _ => rfl, fun _ => rfl, fun _ => rfl, rfl⟩

/-- One more entry of a table, and the lookup that finds it. -/
theorem map_update {β γ : Type} {look look' : MessageId → Option β} {table : MessageId → Option γ} {g : γ → β}
    {x₀ : MessageId} {v : γ} (h : ∀ x, look x = (table x).map g) (hown : look' x₀ = some (g v))
    (hother : ∀ x, x ≠ x₀ → look' x = look x) (x : MessageId) :
    look' x = (Function.update table x₀ (some v) x).map g := by
  by_cases hx : x = x₀
  · subst hx
    rw [Function.update_self, hown]
    rfl
  · rw [Function.update_of_ne hx, hother x hx]
    exact h x

/-- Lookups that a batch with one self-guarding event does not answer. -/
theorem eventFor_of_written {w w' : World} {f : Effect} (happ : Applied w f w') {l : List AuditDraft} {d : AuditDraft}
    (hf : f.drafts = l ++ [d]) (hl : ∀ y ∈ l, ¬ OncePerMessage y.action) {x : MessageId} {a : AuditAction}
    (ha : OncePerMessage a) (hd : ¬ d.isFor x a = true) : w'.eventFor x a = w.eventFor x a := by
  refine eventFor_of_applied happ ?_
  have hnone : latest (AuditDraft.isFor x a) l = none := by
    rw [AuditDraft.latest_isFor]
    intro y hy haction
    exact absurd (haction ▸ ha) (hl y hy)
  rw [hf, latest_append, latest_singleton, if_neg hd, hnone]
  rfl

/-- A batch without a self-guarding event leaves the tables alone. -/
theorem Remembers.silent {w w' : World} {f : Effect} {s : Tables} (h : Remembers w s) (happ : Applied w f w')
    (hf : ∀ y ∈ f.drafts, ¬ OncePerMessage y.action) (hasked : f.asked = []) : Remembers w' s := by
  have hsame : ∀ x a, OncePerMessage a → w'.eventFor x a = w.eventFor x a := by
    intro x a ha
    refine eventFor_of_applied happ ?_
    rw [AuditDraft.latest_isFor]
    intro y hy haction
    exact absurd (haction ▸ ha) (hf y hy)
  refine ⟨h.registry.trans happ.registry.symm, fun x => ?_, fun x => ?_, fun x => ?_, ?_⟩
  · rw [hsame x _ (Or.inl rfl)]
    exact h.decisions x
  · rw [hsame x _ (Or.inr (Or.inl rfl))]
    exact h.proposals x
  · rw [hsame x _ (Or.inr (Or.inr rfl))]
    exact h.confirmations x
  · rw [happ.classified, hasked, List.append_nil]
    exact h.shown

/-! ## Writing the tables -/

section Written

variable {w w' : World} {f : Effect} {s : Tables} {m : IntakeMessage} {cid : PyStr}

/-- An intake decision in the log is an entry of the first table. -/
theorem Remembers.decided (h : Remembers w s) (happ : Applied w f w') {decision : AuthorisationDecision}
    (hf : f.drafts = [intakeDecisionDraft m decision cid]) (hasked : f.asked = []) :
    Remembers w' { s with decisions := Function.update s.decisions m.messageId (some decision) } := by
  have hother : ∀ x a, OncePerMessage a → (a = .intakeDecision → x ≠ m.messageId) →
      w'.eventFor x a = w.eventFor x a := by
    intro x a ha hx
    refine eventFor_of_written happ (l := []) hf (by simp) ha ?_
    rw [AuditDraft.isFor_iff]
    rintro ⟨haction, hid⟩
    exact hx haction.symm (Option.some.inj hid).symm
  refine ⟨h.registry.trans happ.registry.symm, ?_, fun x => ?_, fun x => ?_, ?_⟩
  · obtain ⟨e, he, hdraft⟩ := eventFor_of_last (l := []) happ hf (x := m.messageId) (a := .intakeDecision)
      (AuditDraft.isFor_iff.mpr ⟨rfl, rfl⟩)
    refine map_update h.decisions ?_ fun x hx => by rw [hother x _ (Or.inl rfl) fun _ => hx]
    rw [he, Option.map_some, decisionFromEvent_of_draft hdraft]
  · rw [hother x _ (Or.inr (Or.inl rfl)) nofun]
    exact h.proposals x
  · rw [hother x _ (Or.inr (Or.inr rfl)) nofun]
    exact h.confirmations x
  · rw [happ.classified, hasked, List.append_nil]
    exact h.shown

/-- A proposed event in the log is an entry of the second. -/
theorem Remembers.proposed (h : Remembers w s) (happ : Applied w f w') {d : AuditDraft}
    (hf : f.drafts = [d]) (haction : d.action = .classificationProposed) (hid : d.messageId = some m.messageId)
    {report : ProposalResult} (hreport : ∀ e : AuditEvent, e.toAuditDraft = d → proposalFromEvent e = report)
    {projection : MessageProjection} (hasked : f.asked = [projection]) :
    Remembers w'
      { s with
        proposals := Function.update s.proposals m.messageId (some report)
        shown := s.shown ++ [projection] } := by
  have hother : ∀ x a, OncePerMessage a → (a = .classificationProposed → x ≠ m.messageId) →
      w'.eventFor x a = w.eventFor x a := by
    intro x a ha hx
    refine eventFor_of_written happ (l := []) hf (by simp) ha ?_
    rw [AuditDraft.isFor_iff, haction, hid]
    rintro ⟨rfl, hxm⟩
    exact hx rfl (Option.some.inj hxm).symm
  refine ⟨h.registry.trans happ.registry.symm, fun x => ?_, ?_, fun x => ?_, ?_⟩
  · rw [hother x _ (Or.inl rfl) nofun]
    exact h.decisions x
  · obtain ⟨e, he, hdraft⟩ := eventFor_of_last (l := []) happ hf (x := m.messageId) (a := .classificationProposed)
      (AuditDraft.isFor_iff.mpr ⟨haction, hid⟩)
    intro x
    have hproposals : ∀ x, (w.eventFor x .classificationProposed).map proposalFromEvent = (s.proposals x).map id :=
      fun x => by rw [h.proposals, Option.map_id]; rfl
    have hown : (w'.eventFor m.messageId .classificationProposed).map proposalFromEvent = some (id report) := by
      rw [he, Option.map_some, hreport e hdraft]
      rfl
    have hkept : ∀ x, x ≠ m.messageId → (w'.eventFor x .classificationProposed).map proposalFromEvent
        = (w.eventFor x .classificationProposed).map proposalFromEvent :=
      fun x hx => by rw [hother x _ (Or.inr (Or.inl rfl)) fun _ => hx]
    have hupdate := map_update hproposals hown hkept x
    rw [Option.map_id] at hupdate
    exact hupdate
  · rw [hother x _ (Or.inr (Or.inr rfl)) nofun]
    exact h.confirmations x
  · rw [happ.classified, hasked, h.shown]

/-- A confirmed event in the log is an entry of the third. -/
theorem Remembers.confirmed (h : Remembers w s) (happ : Applied w f w') {r : CaseRegistry} {t : Instant}
    {d : HumanDecision} {o : ClassificationOutcome} {c : Option CaseId} {g : Effect}
    (hr : Routed r t m d cid o c g) {l : List AuditDraft} (hf : f.drafts = l ++ [confirmationDraft m d o cid])
    (hl : ∀ y ∈ l, ¬ OncePerMessage y.action) (hasked : f.asked = []) :
    Remembers w'
      { s with
        confirmations :=
          Function.update s.confirmations m.messageId (some (recordedDecision d ⟨o, c⟩, ⟨o, c⟩)) } := by
  have hother : ∀ x a, OncePerMessage a → (a = .classificationConfirmed → x ≠ m.messageId) →
      w'.eventFor x a = w.eventFor x a := by
    intro x a ha hx
    refine eventFor_of_written happ hf hl ha ?_
    rw [AuditDraft.isFor_iff]
    rintro ⟨haction, hid⟩
    exact hx haction.symm (Option.some.inj hid).symm
  refine ⟨h.registry.trans happ.registry.symm, fun x => ?_, fun x => ?_, ?_, ?_⟩
  · rw [hother x _ (Or.inl rfl) nofun]
    exact h.decisions x
  · rw [hother x _ (Or.inr (Or.inl rfl)) nofun]
    exact h.proposals x
  · obtain ⟨e, he, hdraft⟩ := eventFor_of_last happ hf (x := m.messageId) (a := .classificationConfirmed)
      (AuditDraft.isFor_iff.mpr ⟨rfl, rfl⟩)
    refine map_update h.confirmations ?_ fun x hx => by rw [hother x _ (Or.inr (Or.inr rfl)) fun _ => hx]
    rw [he, Option.map_some, eventSignature_of_confirmation hdraft, confirmFromEvent_of_confirmation hr hdraft]
    rfl
  · rw [happ.classified, hasked, List.append_nil]
    exact h.shown

end Written

/-! ## Policy and code agree -/

theorem decide_eq_decideAt (w : World) (m : IntakeMessage) : (decide w m).1 = decideAt w.registry m w.clock.head := by
  unfold IntakeService.decide decideAt
  cases m.claimedCaseIds with
  | nil => rfl
  | cons c rest => cases rest <;> rfl

theorem decideAt_single {r : CaseRegistry} {m : IntakeMessage} {c : CaseId} (hm : m.claimedCaseIds = [c])
    (t : Instant) : decideAt r m t = authorise r m.principalId c t := by
  rw [decideAt, hm]

theorem Routed.result_eq {r : CaseRegistry} {t : Instant} {m : IntakeMessage} {d : HumanDecision} {cid : PyStr}
    {o : ClassificationOutcome} {c : Option CaseId} {f : Effect} (h : Routed r t m d cid o c f) :
    routeAt r m d t = ⟨o, c⟩ := by
  unfold routeAt
  cases h with
  | flagged h =>
      rcases h with h | h
      · rw [if_pos h]
      · rw [h]
        split <;> rfl
  | response ht hc => simp [ht, hc]
  | awaiting ht hc hm => simp [ht, hc, hm]
  | ready ht hc hm => simp [ht, hc, hm]
  | noCase ht hc hs => simp [ht, hc, hs]
  | authorised ht hc hs hg => simp [ht, hc, hs, hg]
  | denied ht hc hs hg => simp [ht, hc, hs, hg, deny]

/-- The gate of a confirmation reads the request's clock. -/
theorem gateInstant_read (w : World) (m : IntakeMessage) (d : HumanDecision) :
    ∃ n, gateInstant w m d = w.clock.get n := by
  unfold gateInstant
  cases w.eventFor m.messageId .classificationProposed with
  | none => exact ⟨0, rfl⟩
  | some proposed =>
      dsimp only
      split_ifs
      · exact ⟨1, rfl⟩
      · exact ⟨0, rfl⟩

/-- And so does the reading of the candidates. -/
theorem candidateInstant_read (w : World) (m : IntakeMessage) : ∃ n, candidateInstant w m = w.clock.get n := by
  unfold candidateInstant
  split_ifs
  · exact ⟨1, rfl⟩
  · exact ⟨0, rfl⟩

/-! ## One call -/

/-- The task is the request's call, at instants that the request's clock shows. -/
structure TaskOf (req : Request) (task : Task) : Prop where
  call : task.call = req.call
  gate : ∃ n, task.gate = req.clock.get n
  scope : ∃ n, task.scope = req.clock.get n

/-- The task of a message call: the instants at which the call really reads. -/
def taskFor (w : World) (call : MessageCall) : Task :=
  ⟨.message call, gateRead w call, candidateInstant w call.message⟩

/-- The lookups of a call find nothing exactly where the tables have no entry. -/
theorem Remembers.decision_none {w : World} {s : Tables} (h : Remembers w s) {x : MessageId} :
    w.eventFor x .intakeDecision = none ↔ s.decisions x = none := by
  rw [← Option.map_eq_none_iff (f := decisionFromEvent), h.decisions, Option.map_eq_none_iff]

theorem Remembers.confirmation_none {w : World} {s : Tables} (h : Remembers w s) {x : MessageId} :
    w.eventFor x .classificationConfirmed = none ↔ s.confirmations x = none := by
  rw [← Option.map_eq_none_iff (f := fun e => (eventSignature e, confirmFromEvent e)), h.confirmations,
    Option.map_eq_none_iff]

/-- An intake is answered from the tables. -/
theorem handleIntake_remembered (env : Env) {w : World} {s : Tables} (h : Remembers w s) (m : IntakeMessage) :
    (serve env w (.handleIntake m)).1 = (tables env s (taskFor w (.handleIntake m))).1
      ∧ Remembers (serve env w (.handleIntake m)).2 (tables env s (taskFor w (.handleIntake m))).2 := by
  obtain ⟨f, hs, happ⟩ := serve_served env w (.handleIntake m)
  have hfirst : ∀ {decision : AuthorisationDecision}, w.decisionFor m.messageId = none →
      decideAt w.registry m w.clock.head = decision →
      tables env s (taskFor w (.handleIntake m)) = (.intake (.ok decision),
        { s with decisions := Function.update s.decisions m.messageId (some decision) }) := by
    intro decision hnone hd
    have hempty := h.decision_none.mp hnone
    simp only [tables, taskFor, gateRead, hempty, h.registry, hd]
  generalize (serve env w (.handleIntake m)).1 = reply at hs ⊢
  generalize (serve env w (.handleIntake m)).2 = w' at happ ⊢
  cases hs with
  | @intakeReplayed _ prior hprior =>
      have hentry := h.decisions m.messageId
      have hprior' : w.eventFor m.messageId .intakeDecision = some prior := hprior
      rw [hprior', Option.map_some, eq_comm, Option.map_eq_some_iff] at hentry
      obtain ⟨decision, htable, hd⟩ := hentry
      have hanswer : tables env s (taskFor w (.handleIntake m)) = (.intake (.ok decision), s) := by
        simp only [tables, taskFor, htable]
      rw [hanswer, ← hd]
      exact ⟨rfl, h.silent happ (by simp) rfl⟩
  | intakeAuthorised hnone hm hg =>
      rw [hfirst hnone ((decideAt_single hm _).trans (authorise_of_authorised hg))]
      exact ⟨rfl, h.decided happ rfl rfl⟩
  | intakeTriaged hnone hd =>
      rw [hfirst hnone ((decide_eq_decideAt w m).symm.trans hd)]
      exact ⟨rfl, h.decided happ rfl rfl⟩

theorem deniedAt_iff {r : CaseRegistry} {m : IntakeMessage} {t : Instant} :
    DeniedAt r m t ↔ ∃ c, m.claimedCaseIds = [c] ∧ (authorise r m.principalId c t).kind = .triage := by
  unfold DeniedAt
  rw [List.length_eq_one_iff]
  refine ⟨?_, ?_⟩
  · intro h
    obtain ⟨⟨c, hm⟩, hk⟩ := h
    exact ⟨c, hm, decideAt_single hm t ▸ hk⟩
  · intro h
    obtain ⟨c, hm, hk⟩ := h
    exact ⟨⟨c, hm⟩, decideAt_single hm t ▸ hk⟩

/-- What the classifier's answer is recorded as, and reported. -/
theorem Asked.remembered {env : Env} {w w' : World} {s : Tables} (h : Remembers w s) {m : IntakeMessage}
    {shown : MessageProjection} {cid : PyStr} {report : ProposalResult} {f : Effect}
    (ha : Asked env w.classified m shown cid report f) (happ : Applied w f w') :
    report = reportOf (env.classify s.shown shown)
      ∧ Remembers w'
        { s with
          proposals := Function.update s.proposals m.messageId (some (withoutSpans report))
          shown := s.shown ++ [shown] } := by
  rw [h.shown]
  cases ha with
  | failed hnone =>
      refine ⟨by rw [hnone]; rfl, ?_⟩
      have hnext := h.proposed happ rfl rfl rfl (fun e he => proposalFromEvent_triage he) rfl
      rw [h.shown] at hnext
      exact hnext
  | flagged hsome hr =>
      refine ⟨by rw [hsome, reportOf, hr]; rfl, ?_⟩
      have hnext := h.proposed happ rfl rfl rfl (fun e he => proposalFromEvent_triage he) rfl
      rw [h.shown] at hnext
      exact hnext
  | pending hsome hr =>
      refine ⟨by rw [hsome, reportOf, if_pos hr], ?_⟩
      have hnext := h.proposed happ rfl rfl rfl (fun e he => proposalFromEvent_pending he hr) rfl
      rw [h.shown] at hnext
      exact hnext

/-- A proposal is answered from the tables. -/
theorem propose_remembered (env : Env) {w : World} {s : Tables} (h : Remembers w s) (m : IntakeMessage)
    (text : PyStr) :
    (serve env w (.propose m text)).1 = (tables env s (taskFor w (.propose m text))).1
      ∧ Remembers (serve env w (.propose m text)).2 (tables env s (taskFor w (.propose m text))).2 := by
  obtain ⟨f, hs, happ⟩ := serve_served env w (.propose m text)
  have hproposals := h.proposals m.messageId
  -- the two lookups of a first proposal are empty in the tables, too
  have hfirst : w.eventFor m.messageId .classificationProposed = none → w.decisionFor m.messageId = none →
      tables env s (taskFor w (.propose m text)) =
        (.proposal (s.firstProposal env m text w.clock.head (candidateInstant w m)).1,
          (s.firstProposal env m text w.clock.head (candidateInstant w m)).2) := by
    intro hp hi
    have hempty := h.decision_none.mp hi
    rw [hp] at hproposals
    have hempty' : s.proposals m.messageId = none := hproposals.symm
    simp only [tables, taskFor, gateRead, MessageCall.message, hempty, hempty']
  by_cases hasks : AsksClassifier w m
  · -- what was shown is known from the guard of the call
    obtain ⟨cid, g, ha, happ'⟩ := propose_asked env hasks text
    have hdenied : ¬ DeniedAt s.registry m w.clock.head := by
      rw [deniedAt_iff, h.registry]
      intro hd
      obtain ⟨c, hm, hk⟩ := hd
      exact absurd ((hasks.2.2 c hm).symm.trans hk) (by simp)
    obtain ⟨hreport, hnext⟩ := ha.remembered h happ'
    rw [← h.registry] at hreport hnext
    rw [hfirst hasks.1 hasks.2.1, Tables.firstProposal, if_neg hdenied]
    dsimp only
    rw [← hreport]
    exact ⟨rfl, hnext⟩
  generalize (serve env w (.propose m text)).1 = reply at hs ⊢
  generalize (serve env w (.propose m text)).2 = w' at happ ⊢
  cases hs with
  | @proposeReplayed _ _ e hp =>
      rw [hp, Option.map_some, eq_comm] at hproposals
      have hanswer : tables env s (taskFor w (.propose m text)) = (.proposal (proposalFromEvent e), s) := by
        simp only [tables, taskFor, hproposals]
      rw [hanswer]
      exact ⟨rfl, h.silent happ (by simp) rfl⟩
  | @proposeAfterIntake _ _ prior hp hi =>
      have hdecisions := h.decisions m.messageId
      have hi' : w.eventFor m.messageId .intakeDecision = some prior := hi
      rw [hi', Option.map_some, eq_comm, Option.map_eq_some_iff] at hdecisions
      obtain ⟨decision, htable, _⟩ := hdecisions
      rw [hp] at hproposals
      have hempty : s.proposals m.messageId = none := hproposals.symm
      have hanswer : tables env s (taskFor w (.propose m text)) = (.proposal ⟨none, true⟩, s) := by
        simp only [tables, taskFor, htable, hempty]
      rw [hanswer]
      exact ⟨rfl, h.silent happ (by simp) rfl⟩
  | proposeDenied hp hi hm hg =>
      rw [← h.registry] at hg
      have hdenied : DeniedAt s.registry m w.clock.head := deniedAt_iff.mpr ⟨_, hm, by rw [hg]; rfl⟩
      rw [hfirst hp hi, Tables.firstProposal, if_pos hdenied, decideAt_single hm, hg]
      exact ⟨rfl, h.decided happ rfl rfl⟩
  | proposeAsked hp hi hg => exact absurd ⟨hp, hi, hg⟩ hasks

/-- A confirmation is answered from the tables. -/
theorem confirm_remembered (env : Env) {w : World} {s : Tables} (h : Remembers w s) (m : IntakeMessage)
    (d : HumanDecision) :
    (serve env w (.confirm m d)).1 = (tables env s (taskFor w (.confirm m d))).1
      ∧ Remembers (serve env w (.confirm m d)).2 (tables env s (taskFor w (.confirm m d))).2 := by
  obtain ⟨f, hs, happ⟩ := serve_served env w (.confirm m d)
  have hentry := h.confirmations m.messageId
  generalize (serve env w (.confirm m d)).1 = reply at hs ⊢
  generalize (serve env w (.confirm m d)).2 = w' at happ ⊢
  have hagain : ∀ {e : AuditEvent}, w.eventFor m.messageId .classificationConfirmed = some e →
      ∃ recorded result, eventSignature e = decisionSignature recorded ∧ confirmFromEvent e = .ok result
        ∧ tables env s (taskFor w (.confirm m d)) =
          (.confirmation (if recorded = d then .ok result else .error (.conflictingDecision m.messageId)), s) := by
    intro e he
    rw [he, Option.map_some, eq_comm, Option.map_eq_some_iff] at hentry
    obtain ⟨⟨recorded, result⟩, htable, hpair⟩ := hentry
    obtain ⟨hsignature, hresult⟩ := Prod.mk.inj hpair
    exact ⟨recorded, result, hsignature.symm, hresult.symm, by simp only [tables, taskFor, htable]⟩
  cases hs with
  | @confirmReplayed _ _ e he hsignature =>
      obtain ⟨recorded, result, hrecorded, hresult, hanswer⟩ := hagain he
      have hsame : recorded = d := decisionSignature_inj.mp (hrecorded.symm.trans hsignature)
      rw [hanswer, if_pos hsame, hresult]
      exact ⟨rfl, h.silent happ (by simp) rfl⟩
  | @confirmConflict _ _ e he hsignature =>
      obtain ⟨recorded, result, hrecorded, _, hanswer⟩ := hagain he
      have hdiffer : recorded ≠ d := fun hsame => hsignature (hsame ▸ hrecorded)
      rw [hanswer, if_neg hdiffer]
      exact ⟨rfl, h.silent happ (by simp) rfl⟩
  | @confirmed _ _ cid o c g hnone _ hr =>
      have hempty := h.confirmation_none.mp hnone
      have hroute := hr.result_eq
      rw [← h.registry] at hroute
      have hanswer : tables env s (taskFor w (.confirm m d)) = (.confirmation (.ok ⟨o, c⟩),
          { s with
            confirmations :=
              Function.update s.confirmations m.messageId (some (recordedDecision d ⟨o, c⟩, ⟨o, c⟩)) }) := by
        simp only [tables, taskFor, gateRead, hempty, hroute]
      rw [hanswer]
      exact ⟨rfl, h.confirmed happ hr rfl hr.not_once hr.asked⟩

/-- A call of the registry, or of the registration service, with any task for it. -/
theorem registry_remembered (env : Env) {w : World} {s : Tables} (h : Remembers w s) {call : Call}
    (hcall : ∀ c, call ≠ .message c) {task : Task} (htask : task.call = call) :
    (perform env w call).1 = (tables env s task).1 ∧ Remembers (perform env w call).2 (tables env s task).2 := by
  have hregistry := h.registry
  cases call with
  | message c => exact absurd rfl (hcall c)
  | registry op =>
      unfold perform tables
      dsimp only
      rw [htask]
      dsimp only
      rw [hregistry]
      cases w.registry.apply op with
      | error err => exact ⟨rfl, h⟩
      | ok r => exact ⟨rfl, rfl, h.decisions, h.proposals, h.confirmations, h.shown⟩
  | registerCase e c =>
      have hspec := registerCase_spec env w e c
      have hstart : ∀ r, Remembers ({ w with registry := r } : World).newId.2 { s with registry := r } := by
        intro r
        have hr : Remembers { w with registry := r } { s with registry := r } :=
          ⟨rfl, h.decisions, h.proposals, h.confirmations, h.shown⟩
        exact hr.silent (applied_newId _) (by simp) rfl
      unfold perform tables
      dsimp only
      rw [htask]
      dsimp only
      rw [hregistry]
      generalize registerCase env w e c = x at hspec ⊢
      cases hspec with
      | refused hr => rw [hr]; exact ⟨rfl, h⟩
      | lost hr hd =>
          rw [hr]
          dsimp only
          rw [hd]
          exact ⟨rfl, hstart _⟩
      | recorded hr hd =>
          rw [hr]
          dsimp only
          rw [hd]
          exact ⟨rfl, (hstart _).silent (applied_append _ _) (by simp [OncePerMessage, caseRegisteredDraft]) rfl⟩

/-! ## Runs -/

/-- **One step of the system is one step of the tables**, for a task of the request. -/
theorem step_remembered (env : Env) {w : World} {s : Tables} (h : Remembers w s) (req : Request) :
    ∃ task, TaskOf req task ∧ (system env w req).1 = (tables env s task).1
      ∧ Remembers (system env w req).2 (tables env s task).2 := by
  obtain ⟨call, clock⟩ := req
  have hstart : Remembers (w.during clock) s := ⟨h.registry, h.decisions, h.proposals, h.confirmations, h.shown⟩
  cases call with
  | message call =>
      have htask : TaskOf ⟨.message call, clock⟩ (taskFor (w.during clock) call) := by
        refine ⟨rfl, ?_, candidateInstant_read _ _⟩
        cases call with
        | handleIntake m => exact ⟨0, rfl⟩
        | propose m text => exact ⟨0, rfl⟩
        | confirm m d => exact gateInstant_read _ _ _
      refine ⟨_, htask, ?_⟩
      cases call with
      | handleIntake m => exact handleIntake_remembered env hstart m
      | propose m text => exact propose_remembered env hstart m text
      | confirm m d => exact confirm_remembered env hstart m d
  | registerCase e c =>
      exact ⟨⟨.registerCase e c, clock.get 0, clock.get 0⟩, ⟨rfl, ⟨0, rfl⟩, ⟨0, rfl⟩⟩,
        registry_remembered env hstart (fun _ h => by cases h) rfl⟩
  | registry op =>
      exact ⟨⟨.registry op, clock.get 0, clock.get 0⟩, ⟨rfl, ⟨0, rfl⟩, ⟨0, rfl⟩⟩,
        registry_remembered env hstart (fun _ h => by cases h) rfl⟩

/-- What is decoded from a log does not depend on the ids in it. -/
theorem Remembers.congr {queues : Prop} {w w' : World} {s : Tables} (h : Remembers w s)
    (hmemory : SameMemory queues w w') : Remembers w' s := by
  have hlookup : ∀ {β : Type} (f : AuditEvent → β),
      (∀ e e', uncorrelated e.toAuditDraft = uncorrelated e'.toAuditDraft → f e = f e') →
      ∀ x a, (w'.eventFor x a).map f = (w.eventFor x a).map f := by
    intro β f hf x a
    rcases hmemory.eventFor x a with ⟨hw, hw'⟩ | ⟨e, e', hw, hw', he⟩
    · rw [hw, hw']
    · rw [hw, hw', Option.map_some, Option.map_some, hf e e' he]
  refine ⟨h.registry.trans hmemory.registry, fun x => ?_, fun x => ?_, fun x => ?_, h.shown.trans hmemory.classified⟩
  · rw [hlookup decisionFromEvent fun e e' he => ?_]
    · exact h.decisions x
    · obtain ⟨c, hc⟩ := eq_of_uncorrelated he
      simp only [decisionFromEvent, hc]
  · rw [hlookup proposalFromEvent fun e e' he => ?_]
    · exact h.proposals x
    · obtain ⟨c, hc⟩ := eq_of_uncorrelated he
      simp only [proposalFromEvent, hc]
  · rw [hlookup (fun e => (eventSignature e, confirmFromEvent e)) fun e e' he => ?_]
    · exact h.confirmations x
    · obtain ⟨c, hc⟩ := eq_of_uncorrelated he
      simp only [eventSignature, confirmFromEvent, hc]

/--
**The services refine their tables.**

Every run of the services from an empty log is answered, reply by reply, as a run of
the tables: the calls are the same, and the gate and the candidates are read at
instants that the clock of the request shows. In the end the tables hold exactly what
the log decodes to. One run of the tables serves for all id generators.
-/
theorem services_refine_tables (env : Env) (registry : CaseRegistry) (reqs : List Request) :
    ∃ tasks, List.Forall₂ TaskOf reqs tasks ∧ ∀ ids,
      Machine.outputs (system env) (World.init registry ids) reqs
          = Machine.outputs (tables env) (Tables.init registry) tasks
        ∧ Remembers (runFrom env registry ids reqs) (Machine.run (tables env) (Tables.init registry) tasks) := by
  obtain ⟨tasks, htasks, houtputs, hremembers⟩ :=
    Machine.run_refines (M := system env) (N := tables env) (R := Remembers) (I := TaskOf)
      (fun _ _ req h => step_remembered env h req) (remembers_init registry (Stream'.const [])) reqs
  refine ⟨tasks, htasks, fun ids => ?_⟩
  -- no answer and no memory depends on the generator
  have hinit : SameMemory True (World.init registry (Stream'.const [])) (World.init registry ids) :=
    (SameMemory.refl True (World.init registry ids)).congr _ _ _ _
  obtain ⟨hreplies, hmemory⟩ := hinit.run env reqs
  exact ⟨hreplies.symm.trans houtputs, hremembers.congr hmemory⟩

end Intake.Proof
