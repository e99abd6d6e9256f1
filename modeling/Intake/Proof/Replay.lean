import Intake.Proof.Queues
import Intake.Proof.Finality
import Intake.Proof.Ingress

/-!
# Answers from the log

A call whose answer is already in the log decodes it from there. The decoding is
the inverse of what was written, with one exception: a proposal is logged without
its evidence spans and comes back without them.

Which event a replay decodes never changes, because decisions and proposals are
written once; and a message that was decided at ingress is never proposed.
-/

namespace Intake.Proof

open IntakeService ClassificationService EventLog

/-! ## Ingress decisions -/

/-- **An intake decision is decoded as it was written.** -/
theorem decisionFromEvent_of_draft {e : AuditEvent} {m : IntakeMessage} {d : AuthorisationDecision}
    {cid : PyStr} (h : e.toAuditDraft = intakeDecisionDraft m d cid) : decisionFromEvent e = .ok d := by
  have hout : e.outcome = d.kind.value := by rw [h]; rfl
  rw [decisionFromEvent, hout, DecisionKind.ofValue_value, h]
  rfl

/-- No reachable decision fails to decode. -/
theorem decisionFromEvent_isOk {env : Env} {w : World} (h : Reachable env w) {x : MessageId} {e : AuditEvent}
    (he : w.decisionFor x = some e) : ∃ d, decisionFromEvent e = .ok d := by
  obtain ⟨hmem, haction, _⟩ := World.eventFor_spec he
  rw [decisionFromEvent]
  rcases decided_reachable h _ (List.mem_map_of_mem hmem) haction with hout | hout
  · rw [hout]; exact ⟨_, rfl⟩
  · rw [hout]; exact ⟨_, rfl⟩

/-- A recorded decision answers every later intake of its message. -/
theorem handleIntake_replayed (env : Env) {w : World} {m : IntakeMessage} {e : AuditEvent}
    (h : w.decisionFor m.messageId = some e) (clock : Stream' Instant) :
    system env w ⟨.message (.handleIntake m), clock⟩ = (.intake (decisionFromEvent e), w.during clock) := by
  have h' : (w.during clock).decisionFor m.messageId = some e := h
  simp only [system, perform, serve, handleIntake, h']

/-- After an intake there is a decision in the log, and it decodes to the answer. -/
theorem handleIntake_recorded {env : Env} {w : World} (h : Reachable env w) (m : IntakeMessage)
    (clock : Stream' Instant) :
    ∃ d e, (system env w ⟨.message (.handleIntake m), clock⟩).1 = .intake (.ok d)
      ∧ (system env w ⟨.message (.handleIntake m), clock⟩).2.decisionFor m.messageId = some e
      ∧ decisionFromEvent e = .ok d := by
  obtain ⟨f, hs, happ⟩ := system_served env w (.handleIntake m) clock
  have hwritten : ∀ (d : AuthorisationDecision) (cid : PyStr), f.drafts = [] ++ [intakeDecisionDraft m d cid] →
      ∃ e, (system env w ⟨.message (.handleIntake m), clock⟩).2.decisionFor m.messageId = some e
        ∧ decisionFromEvent e = .ok d := by
    intro d cid hf
    obtain ⟨e, he, hdraft⟩ := eventFor_of_last happ hf (x := m.messageId) (a := .intakeDecision)
      (AuditDraft.isFor_iff.mpr ⟨rfl, rfl⟩)
    exact ⟨e, he, decisionFromEvent_of_draft hdraft⟩
  generalize (system env w ⟨.message (.handleIntake m), clock⟩).1 = reply at hs ⊢
  cases hs with
  | @intakeReplayed _ prior hprior =>
      obtain ⟨d, hd⟩ := decisionFromEvent_isOk (w := w) h hprior
      have hkept : (system env w ⟨.message (.handleIntake m), clock⟩).2.decisionFor m.messageId = some prior :=
        (eventFor_of_applied happ rfl).trans hprior
      exact ⟨d, prior, by rw [hd], hkept, hd⟩
  | intakeAuthorised =>
      obtain ⟨e, he, hd⟩ := hwritten _ _ rfl
      exact ⟨_, e, rfl, he, hd⟩
  | intakeTriaged =>
      obtain ⟨e, he, hd⟩ := hwritten _ _ rfl
      exact ⟨_, e, rfl, he, hd⟩

/-- A claim that is denied when it is proposed is recorded as an intake decision. -/
theorem proposeDenied_recorded (env : Env) {w : World} {m : IntakeMessage} (text : PyStr)
    (clock : Stream' Instant) {c : CaseId} (hp : w.eventFor m.messageId .classificationProposed = none)
    (hi : w.eventFor m.messageId .intakeDecision = none) (hm : m.claimedCaseIds = [c])
    (hg : (authorise w.registry m.principalId c clock.head).kind = .triage) :
    ∃ e, (system env w ⟨.message (.propose m text), clock⟩).2.decisionFor m.messageId = some e
      ∧ decisionFromEvent e = .ok (authorise w.registry m.principalId c clock.head) := by
  obtain ⟨_, cid, _, happ⟩ := propose_denied env text clock hp hi hm hg
  obtain ⟨e, he, hdraft⟩ := eventFor_of_last (l := []) happ rfl (x := m.messageId) (a := .intakeDecision)
    (AuditDraft.isFor_iff.mpr ⟨rfl, rfl⟩)
  exact ⟨e, he, decisionFromEvent_of_draft hdraft⟩

/-- An intake leaves things as they are: it was answered with `d`, from the one decision in the log. -/
structure AnsweredWith (env : Env) (w : World) (m : IntakeMessage) (clock : Stream' Instant)
    (d : AuthorisationDecision) : Prop where
  reply : (system env w ⟨.message (.handleIntake m), clock⟩).1 = .intake (.ok d)
  registry : (system env w ⟨.message (.handleIntake m), clock⟩).2.registry = w.registry
  audit : (system env w ⟨.message (.handleIntake m), clock⟩).2.audit = w.audit
  triage : (system env w ⟨.message (.handleIntake m), clock⟩).2.triage = w.triage
  clarifications : (system env w ⟨.message (.handleIntake m), clock⟩).2.clarifications = w.clarifications
  once : (w.audit.filter fun e => e.action = .intakeDecision && e.messageId = some m.messageId).length = 1

theorem answeredWith_of_recorded {env : Env} {w : World} (h : Reachable env w) {m : IntakeMessage}
    {e : AuditEvent} {d : AuthorisationDecision} (he : w.decisionFor m.messageId = some e)
    (hd : decisionFromEvent e = .ok d) (more : List Request) (clock : Stream' Instant) :
    AnsweredWith env (Machine.run (system env) w more) m clock d := by
  have hlater : (Machine.run (system env) w more).decisionFor m.messageId = some e :=
    eventFor_run (Or.inl rfl) he more
  have hreach : Reachable env (Machine.run (system env) w more) := by
    obtain ⟨registry, ids, reqs, rfl⟩ := h
    exact ⟨registry, ids, reqs ++ more, (Machine.run_append ..).symm⟩
  have hanswer := handleIntake_replayed env hlater clock
  refine ⟨by rw [hanswer, hd], by rw [hanswer]; rfl, by rw [hanswer]; rfl, by rw [hanswer]; rfl,
    by rw [hanswer]; rfl, ?_⟩
  have hlatest := World.latest_of_eventFor hlater
  have honce := (writeOnce_reachable hreach m.messageId .intakeDecision (Or.inl rfl)).filter_eq
    (mem_of_latest hlatest) (prop_of_latest hlatest)
  have hlength := congrArg List.length honce
  rw [World.trail, List.filter_map, List.length_map] at hlength
  exact hlength

/--
**An ingress decision is written once and never changes.**

In every reachable state an intake returns a decision, never an exception. From
then on, after any requests, the log holds exactly one intake decision for the
message, and an intake returns the same decision and changes nothing. A decision
recorded when a proposal was denied is returned in the same way.
-/
theorem ingress_decision_final {env : Env} {w : World} (h : Reachable env w) (m : IntakeMessage)
    (clock : Stream' Instant) :
    (∃ d, (system env w ⟨.message (.handleIntake m), clock⟩).1 = .intake (.ok d)
        ∧ ∀ more clock', AnsweredWith env
          (Machine.run (system env) (system env w ⟨.message (.handleIntake m), clock⟩).2 more) m clock' d)
      ∧ ∀ text c, w.eventFor m.messageId .classificationProposed = none →
        w.eventFor m.messageId .intakeDecision = none → m.claimedCaseIds = [c] →
        (authorise w.registry m.principalId c clock.head).kind = .triage →
        (∃ e, (system env w ⟨.message (.propose m text), clock⟩).2.decisionFor m.messageId = some e
            ∧ decisionFromEvent e = .ok (authorise w.registry m.principalId c clock.head))
          ∧ ∀ more clock', AnsweredWith env
            (Machine.run (system env) (system env w ⟨.message (.propose m text), clock⟩).2 more) m clock'
            (authorise w.registry m.principalId c clock.head) := by
  refine ⟨?_, ?_⟩
  · obtain ⟨d, e, hreply, he, hd⟩ := handleIntake_recorded h m clock
    exact ⟨d, hreply, fun more clock' => answeredWith_of_recorded (h.step _) he hd more clock'⟩
  · intro text c hp hi hm hg
    obtain ⟨e, he, hd⟩ := proposeDenied_recorded env text clock hp hi hm hg
    exact ⟨⟨e, he, hd⟩, fun more clock' => answeredWith_of_recorded (h.step _) he hd more clock'⟩

/-- A follow-up that was let through stays let through after its sender has moved to another client. -/
theorem ingress_decision_final_moved :
    let m := Sample.message "P" ["CASE-1"]
    let first := system (Sample.env none) Sample.world (Sample.request (.handleIntake m))
    ∃ d, first.1 = .intake (.ok d)
      ∧ AnsweredWith (Sample.env none)
        (Machine.run (system (Sample.env none)) first.2
          [⟨.registry (.addPrincipal "P" "C2" none), Stream'.const 0⟩]) m (Stream'.const 0) d := by
  intro m first
  have hreach : Reachable (Sample.env none) Sample.world := ⟨Sample.registry, Sample.ids, [], rfl⟩
  obtain ⟨d, hreply, hlater⟩ := (ingress_decision_final hreach m (Stream'.const 0)).1
  exact ⟨d, hreply, hlater _ _⟩

/-! ## Proposals -/

/-- A result as it comes back from the log. -/
def withoutSpans (r : ProposalResult) : ProposalResult :=
  { r with proposal := r.proposal.map fun p => { p with evidenceSpans := [] } }

/-- **A pending proposal is decoded as it was written, without its spans.** -/
theorem proposalFromEvent_pending {e : AuditEvent} {m : IntakeMessage} {p : ClassificationProposal} {cid : PyStr}
    (h : e.toAuditDraft = proposalDraft m (some p) .pending none cid) (hp : p.triageReason = none) :
    proposalFromEvent e = withoutSpans ⟨some p, false⟩ := by
  obtain ⟨_, _, _, _, _, _, reason⟩ := p
  obtain rfl : reason = none := hp
  rw [proposalFromEvent, h]
  rfl

theorem proposalFromEvent_triage {e : AuditEvent} {m : IntakeMessage} {p : Option ClassificationProposal}
    {reason : Option ReasonCode} {cid : PyStr} (h : e.toAuditDraft = proposalDraft m p .triage reason cid) :
    proposalFromEvent e = ⟨none, true⟩ := by
  rw [proposalFromEvent, h]
  rfl

/-- What comes back from the log has no spans to lose. -/
theorem withoutSpans_proposalFromEvent (e : AuditEvent) :
    withoutSpans (proposalFromEvent e) = proposalFromEvent e := by
  rw [proposalFromEvent]
  cases e.outcome <;> cases e.classification <;> rfl

/-! ### What stays as it is -/

/-- A message is not proposed after it was decided at ingress. -/
theorem Served.proposes {env : Env} {w : World} {call : MessageCall} {reply : Reply} {f : Effect}
    (h : Served env w call reply f) {x : MessageId} (hi : ∃ e, w.decisionFor x = some e) :
    latest (AuditDraft.isFor x .classificationProposed) f.drafts = none := by
  by_cases hx : x = call.message.messageId
  case neg => exact h.latest_of_ne hx _
  subst hx
  obtain ⟨e, he⟩ := hi
  cases h with
  | intakeReplayed | proposeReplayed | proposeAfterIntake | confirmReplayed | confirmConflict => rfl
  | intakeAuthorised | intakeTriaged | proposeDenied => rfl
  | proposeAsked _ hnone => exact absurd (hnone.symm.trans he) (by simp)
  | confirmed _ _ hr =>
      rw [latest_append, confirmed_latest hr _ (Or.inr (Or.inl rfl))]
      rfl

/-- Decided at ingress and never proposed. -/
def OnlyDecided (w : World) (x : MessageId) : Prop :=
  w.eventFor x .classificationProposed = none ∧ ∃ e, w.eventFor x .intakeDecision = some e

theorem onlyDecided_step {env : Env} {w : World} {x : MessageId} (h : OnlyDecided w x) (req : Request) :
    OnlyDecided (system env w req).2 x := by
  obtain ⟨hp, e, he⟩ := h
  refine ⟨?_, e, eventFor_step (Or.inl rfl) he req⟩
  rcases system_step env w req with ⟨call, f, _, hs, happ⟩ | ⟨r, f, hreg, _, _, _, happ⟩
  · rw [eventFor_of_applied happ (hs.proposes ⟨e, he⟩)]
    exact hp
  · rw [eventFor_of_applied happ (registered_latest hreg x _)]
    exact hp

/-- A later proposal of the message is answered with `r`, and leaves everything as it is. -/
def Answers (env : Env) (w : World) (x : MessageId) (r : ProposalResult) : Prop :=
  ∀ more m text clock, m.messageId = x →
    system env (Machine.run (system env) w more) ⟨.message (.propose m text), clock⟩
      = (.proposal r, (Machine.run (system env) w more).during clock)

theorem answers_of_proposed (env : Env) {w : World} {x : MessageId} {e : AuditEvent}
    (h : w.eventFor x .classificationProposed = some e) : Answers env w x (proposalFromEvent e) := by
  intro more m text clock hm
  subst hm
  have hlater : ((Machine.run (system env) w more).during clock).eventFor m.messageId .classificationProposed
      = some e := eventFor_run (Or.inr (Or.inl rfl)) h more
  simp only [system, perform, serve, propose, hlater]

theorem answers_of_decided (env : Env) {w : World} {x : MessageId} (h : OnlyDecided w x) :
    Answers env w x ⟨none, true⟩ := by
  intro more m text clock hm
  subst hm
  obtain ⟨hp, e, hi⟩ : OnlyDecided (Machine.run (system env) w more) m.messageId :=
    Machine.run_invariant (P := fun w : World => OnlyDecided w m.messageId)
      (fun _ req hw => onlyDecided_step hw req) h more
  have hp' : ((Machine.run (system env) w more).during clock).eventFor m.messageId .classificationProposed
      = none := hp
  have hi' : ((Machine.run (system env) w more).during clock).eventFor m.messageId .intakeDecision
      = some e := hi
  simp only [system, perform, serve, propose, hp', hi']

/-- **Every later proposal is answered like the first**, without spans. -/
theorem propose_again (env : Env) (w : World) (m : IntakeMessage) (text : PyStr) (clock : Stream' Instant) :
    ∃ r, (system env w ⟨.message (.propose m text), clock⟩).1 = .proposal r
      ∧ Answers env (system env w ⟨.message (.propose m text), clock⟩).2 m.messageId (withoutSpans r) := by
  obtain ⟨f, hs, happ⟩ := system_served env w (.propose m text) clock
  -- the last draft of the call is what later lookups find
  have hwritten : ∀ d : AuditDraft, f.drafts = [] ++ [d] → d.messageId = some m.messageId →
      ∃ e, (system env w ⟨.message (.propose m text), clock⟩).2.eventFor m.messageId d.action = some e
        ∧ e.toAuditDraft = d :=
    fun d hf hid => eventFor_of_last happ hf (AuditDraft.isFor_iff.mpr ⟨rfl, hid⟩)
  generalize (system env w ⟨.message (.propose m text), clock⟩).1 = reply at hs ⊢
  cases hs with
  | @proposeReplayed _ _ e hp =>
      refine ⟨_, rfl, ?_⟩
      rw [withoutSpans_proposalFromEvent]
      exact answers_of_proposed env ((eventFor_of_applied happ rfl).trans hp)
  | @proposeAfterIntake _ _ e hp hi =>
      refine ⟨_, rfl, answers_of_decided env ⟨(eventFor_of_applied happ rfl).trans hp, e, ?_⟩⟩
      exact (eventFor_of_applied happ rfl).trans hi
  | proposeDenied hp =>
      obtain ⟨e, he, _⟩ := hwritten _ rfl rfl
      exact ⟨_, rfl, answers_of_decided env ⟨(eventFor_of_applied happ rfl).trans hp, e, he⟩⟩
  | proposeAsked _ _ _ ask =>
      cases ask with
      | failed | flagged =>
          obtain ⟨e, he, hdraft⟩ := hwritten _ rfl rfl
          refine ⟨_, rfl, ?_⟩
          have hanswers := answers_of_proposed env he
          rw [proposalFromEvent_triage hdraft] at hanswers
          exact hanswers
      | @pending p _ hr =>
          obtain ⟨e, he, hdraft⟩ := hwritten _ rfl rfl
          refine ⟨_, rfl, ?_⟩
          have hanswers := answers_of_proposed env he
          rw [proposalFromEvent_pending hdraft hr] at hanswers
          exact hanswers

/-! ### What the first proposal returns -/

/-- A `propose` that does not ask the classifier returns no spans. -/
theorem propose_unasked (env : Env) {w : World} {m : IntakeMessage} (h : ¬ AsksClassifier w m) (text : PyStr) :
    withoutSpans (propose env w m text).1 = (propose env w m text).1 := by
  obtain ⟨f, hs, _⟩ := propose_served env w m text
  generalize (propose env w m text).1 = r at hs ⊢
  cases hs with
  | proposeReplayed => exact withoutSpans_proposalFromEvent _
  | proposeAfterIntake => rfl
  | proposeDenied => rfl
  | proposeAsked hp hi hg => exact absurd ⟨hp, hi, hg⟩ h

/-- The classifier, if it is asked, names no spans in a proposal that is left to a human. -/
def NoSpans (env : Env) (w : World) (m : IntakeMessage) (text : PyStr) : Prop :=
  AsksClassifier w m →
    ∀ p, env.classify w.classified (projectionAt w.registry (candidateInstant w m) m text) = some p →
      p.triageReason = none → p.evidenceSpans = []

/-- The log keeps all of the answer exactly if there are no spans in it. -/
theorem withoutSpans_propose (env : Env) (w : World) (m : IntakeMessage) (text : PyStr) :
    withoutSpans (propose env w m text).1 = (propose env w m text).1 ↔ NoSpans env w m text := by
  by_cases hasks : AsksClassifier w m
  case neg =>
    have hkept := propose_unasked env hasks text
    exact ⟨fun _ h => absurd h hasks, fun _ => hkept⟩
  obtain ⟨cid, f, ha, _⟩ := propose_asked env hasks text
  generalize (propose env w m text).1 = r at ha ⊢
  cases ha with
  | failed hc =>
      refine ⟨fun _ _ p hp => ?_, fun _ => rfl⟩
      rw [hc] at hp
      cases hp
  | flagged hc hr =>
      refine ⟨fun _ _ p hp hnone => ?_, fun _ => rfl⟩
      rw [hc] at hp
      rw [Option.some.inj hp, hnone] at hr
      cases hr
  | @pending p hc hr =>
      refine ⟨?_, ?_⟩
      · intro hkept _ p' hp' _
        rw [hc] at hp'
        obtain rfl := Option.some.inj hp'
        have hspans : some { p with evidenceSpans := [] } = some p := congrArg ProposalResult.proposal hkept
        rw [← Option.some.inj hspans]
      · intro hno
        have hspans := hno hasks p hc hr
        obtain ⟨_, _, _, spans, _, _, _⟩ := p
        obtain rfl : spans = [] := hspans
        rfl

/-- The second call returned what the first one did, and changed nothing. -/
structure SameAnswer (first again : Reply × World) (before : World) : Prop where
  reply : again.1 = first.1
  registry : again.2.registry = before.registry
  audit : again.2.audit = before.audit
  triage : again.2.triage = before.triage
  clarifications : again.2.clarifications = before.clarifications
  classified : again.2.classified = before.classified

/--
**When proposing is idempotent.**

In any state, for any message: whatever happens after a first `propose`, a later
one returns an equal result, asks no classifier and changes nothing, exactly if
the first did not get evidence spans from the classifier.
-/
theorem propose_idempotent_iff (env : Env) (w : World) (m : IntakeMessage) (text : PyStr)
    (clock : Stream' Instant) :
    let first := system env w ⟨.message (.propose m text), clock⟩
    (∀ more text' clock',
        SameAnswer first
          (system env (Machine.run (system env) first.2 more) ⟨.message (.propose m text'), clock'⟩)
          (Machine.run (system env) first.2 more))
      ↔ NoSpans env (w.during clock) m text := by
  intro first
  obtain ⟨r, hreply, hanswers⟩ := propose_again env w m text clock
  have hr : (propose env (w.during clock) m text).1 = r := Reply.proposal.inj hreply
  rw [← withoutSpans_propose, hr]
  refine ⟨?_, ?_⟩
  · intro hall
    have hsame := (hall [] [] (Stream'.const 0)).reply
    rw [hanswers [] m [] (Stream'.const 0) rfl] at hsame
    exact Reply.proposal.inj (hsame.trans hreply)
  · intro hkept more text' clock'
    rw [hanswers more m text' clock' rfl, hkept]
    exact ⟨hreply.symm, rfl, rfl, rfl, rfl, rfl⟩

/-- A proposal that quotes the message loses the quotation. -/
theorem propose_not_idempotent :
    let p : ClassificationProposal :=
      { routeClass := .response, subtype := none, confidence := ⟨1⟩
        evidenceSpans := [⟨0, 6⟩], candidateCaseIds := [], missingFields := [] }
    let call := Sample.request (.propose (Sample.message "P" []) "page 7")
    let first := system (Sample.env (some p)) Sample.world call
    let again := system (Sample.env (some p)) first.2 call
    first.1 = .proposal ⟨some p, false⟩
      ∧ again.1 = .proposal ⟨some { p with evidenceSpans := [] }, false⟩
      ∧ again.1 ≠ first.1 := by
  intro p call first again
  refine ⟨rfl, rfl, fun h => ?_⟩
  have hproposal : some { p with evidenceSpans := [] } = some p :=
    congrArg ProposalResult.proposal (Reply.proposal.inj h)
  have hspans := congrArg ClassificationProposal.evidenceSpans (Option.some.inj hproposal)
  cases hspans

end Intake.Proof
