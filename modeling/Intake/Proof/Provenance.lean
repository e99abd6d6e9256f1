import Intake.Proof.Confirmation

/-!
# Where an authorisation comes from

The registry keeps changing under the log: an authorised event may name a case
whose chain has long been broken. What holds of it is a statement about the past.
`audit_origin` cuts a run at the very request that appended an event, and the
chain was intact in the registry of that cut, at the instant that request read.

Replies are answered from the log, so they have the same origin; but the message
of the origin need only share its *id* with the message of the call. That is the
difference between what this module proves and what a caller might hope for.
-/

namespace Intake.Proof

open IntakeService ClassificationService EventLog

/-! ## The step that wrote an event -/

/-- The run of the system from an empty log. -/
abbrev runFrom (env : Env) (registry : CaseRegistry) (ids : Stream' PyStr) (reqs : List Request) : World :=
  Machine.run (system env) (World.init registry ids) reqs

theorem runFrom_concat (env : Env) (registry : CaseRegistry) (ids : Stream' PyStr) (reqs : List Request)
    (req : Request) :
    runFrom env registry ids (reqs ++ [req]) = (system env (runFrom env registry ids reqs) req).2 :=
  Machine.run_concat ..

/-- The events a request appends. -/
def newEvents (env : Env) (w : World) (req : Request) : List AuditEvent :=
  (system env w req).2.audit.drop w.audit.length

theorem system_audit (env : Env) (w : World) (req : Request) :
    (system env w req).2.audit = w.audit ++ newEvents env w req := by
  have hprefix : w.audit <+: (system env w req).2.audit := by
    rcases system_step env w req with ⟨_, _, _, _, happ⟩ | ⟨_, _, _, _, _, _, happ⟩
    · exact happ.audit
    · exact happ.audit
  exact (List.prefix_iff_eq_append.mp hprefix).symm

/-- **Every event but a case registration was written by some message call of the run.** -/
theorem audit_origin {env : Env} {registry : CaseRegistry} {ids : Stream' PyStr} {reqs : List Request}
    {e : AuditEvent} (h : e ∈ (runFrom env registry ids reqs).audit) (hm : e.action ≠ .caseRegistered) :
    ∃ pre req post call f, reqs = pre ++ req :: post ∧ req.call = .message call
      ∧ e ∈ newEvents env (runFrom env registry ids pre) req
      ∧ Served env ((runFrom env registry ids pre).during req.clock) call
          (system env (runFrom env registry ids pre) req).1 f
      ∧ e.toAuditDraft ∈ f.drafts := by
  rcases Machine.run_origin (system_audit env) h with h₀ | ⟨pre, req, post, rfl, hnew⟩
  · exact absurd h₀ List.not_mem_nil
  -- the new events are the step's drafts, whichever kind of step it was
  have hdrafts : ∀ {w : World} {f : Effect}, Applied w f (system env (runFrom env registry ids pre) req).2 →
      w.audit = (runFrom env registry ids pre).audit → e.toAuditDraft ∈ f.drafts := by
    intro w f happ hw
    obtain ⟨es, hes, hmap⟩ := happ.appended
    rw [system_audit, ← hw, List.append_right_inj] at hes
    exact hmap ▸ List.mem_map_of_mem (hes ▸ hnew)
  rcases system_step env (runFrom env registry ids pre) req with
    ⟨call, f, hcall, hs, happ⟩ | ⟨r, f, hreg, _, _, _, happ⟩
  · exact ⟨pre, req, post, call, f, rfl, hcall, hnew, hs, hdrafts happ rfl⟩
  · exact absurd (hreg _ (hdrafts happ rfl)).1 hm

/-! ## What was checked before an authorisation was written -/

/-- An authorised intake decision is written for the single claimed case of an intact chain. -/
theorem Served.authorised_decision {env : Env} {w : World} {call : MessageCall} {reply : Reply} {f : Effect}
    (h : Served env w call reply f) {x : AuditDraft} (hx : x ∈ f.drafts)
    (ha : x.action = .intakeDecision) (ho : x.outcome = .authorised) :
    ∃ m c cid, call = .handleIntake m ∧ w.decisionFor m.messageId = none ∧ m.claimedCaseIds = [c]
      ∧ x = intakeDecisionDraft m (granted c) cid
      ∧ ChainIntact w.registry m.principalId c w.clock.head := by
  cases h with
  | intakeReplayed | proposeReplayed | proposeAfterIntake | confirmReplayed | confirmConflict =>
      exact absurd hx List.not_mem_nil
  | @intakeAuthorised m c cid hnone hm hg =>
      exact ⟨m, c, cid, rfl, hnone, hm, List.mem_singleton.mp hx, (authorise_kind.mp hg).2⟩
  | intakeTriaged | proposeDenied =>
      rw [List.mem_singleton.mp hx] at ho
      cases ho
  | proposeAsked _ _ _ ask =>
      cases ask with
      | _ => rw [List.mem_singleton.mp hx] at ha; cases ha
  | confirmed _ _ hr =>
      rcases List.mem_append.mp hx with hx | hx
      · exact absurd (Or.inl ha) (hr.not_once x hx)
      · rw [List.mem_singleton.mp hx] at ha; cases ha

/-- An authorised follow-up is written for the selected case of an intact chain. -/
theorem Served.authorised_followup {env : Env} {w : World} {call : MessageCall} {reply : Reply} {f : Effect}
    (h : Served env w call reply f) {x : AuditDraft} (hx : x ∈ f.drafts)
    (ha : x.action = .classificationConfirmed) (ho : x.outcome = .followupAuthorised) :
    ∃ m d c cid, call = .confirm m d ∧ w.eventFor m.messageId .classificationConfirmed = none
      ∧ d.triage = false ∧ d.selectedCaseId = some c
      ∧ x = confirmationDraft m d .followupAuthorised cid
      ∧ ChainIntact w.registry m.principalId c (gateInstant w m d) := by
  cases h with
  | intakeReplayed | proposeReplayed | proposeAfterIntake | confirmReplayed | confirmConflict =>
      exact absurd hx List.not_mem_nil
  | intakeAuthorised | intakeTriaged | proposeDenied =>
      rw [List.mem_singleton.mp hx] at ha; cases ha
  | proposeAsked _ _ _ ask =>
      cases ask with
      | _ => rw [List.mem_singleton.mp hx] at ha; cases ha
  | @confirmed m d cid o _ _ hnone _ hr =>
      rcases List.mem_append.mp hx with hx | hx
      · exact absurd (Or.inr (Or.inr ha)) (hr.not_once x hx)
      rw [List.mem_singleton.mp hx] at ho ⊢
      cases hr with
      | @authorised c ht _ hs hg =>
          exact ⟨m, d, c, cid, rfl, hnone, ht, hs, rfl, (authorise_kind.mp hg).2⟩
      | _ => cases ho

/-! ## The log: every authorisation was checked -/

/-- The instant a call reads for the gate, when its answer is an authorisation. -/
def gateRead (w : World) : MessageCall → Instant
  | .handleIntake _ => w.clock.head
  | .propose _ _ => w.clock.head
  | .confirm m d => gateInstant w m d

/-- A confirmation that attaches a message to a case. -/
def AttachingConfirmation (d : AuditDraft) : Prop :=
  d.action = .classificationConfirmed ∧ d.outcome = .followupAuthorised

/-- An event that attaches its message to a case, at ingress or on review. -/
def Authorises (d : AuditDraft) : Prop :=
  (d.action = .intakeDecision ∧ d.outcome = .authorised) ∨ AttachingConfirmation d

/-- **An authorising event names the case of a chain that was intact when it was written.** -/
theorem authorising_event {env : Env} {registry : CaseRegistry} {ids : Stream' PyStr} {reqs : List Request}
    {e : AuditEvent} (he : e ∈ (runFrom env registry ids reqs).audit) (ha : Authorises e.toAuditDraft) :
    ∃ pre req post call c p, reqs = pre ++ req :: post ∧ req.call = .message call
      ∧ e ∈ newEvents env (runFrom env registry ids pre) req
      ∧ e.caseId = some c ∧ e.principalId = some p
      ∧ ChainIntact (runFrom env registry ids pre).registry p c
          (gateRead ((runFrom env registry ids pre).during req.clock) call) := by
  rcases ha with ⟨haction, hout⟩ | ⟨haction, hout⟩
  · obtain ⟨pre, req, post, call, f, rfl, hcall, hnew, hs, hx⟩ := audit_origin he (by simp [haction])
    obtain ⟨m, c, cid, rfl, _, _, hdraft, hchain⟩ := hs.authorised_decision hx haction hout
    exact ⟨pre, req, post, _, c, m.principalId, rfl, hcall, hnew, by rw [hdraft]; rfl, by rw [hdraft]; rfl,
      hchain⟩
  · obtain ⟨pre, req, post, call, f, rfl, hcall, hnew, hs, hx⟩ := audit_origin he (by simp [haction])
    obtain ⟨m, d, c, cid, rfl, _, _, hsel, hdraft, hchain⟩ := hs.authorised_followup hx haction hout
    exact ⟨pre, req, post, _, c, m.principalId, rfl, hcall, hnew, by rw [hdraft]; exact hsel,
      by rw [hdraft]; rfl, hchain⟩

/-- The check behind an attaching confirmation. -/
def ChecksFor (check confirmed : AuditDraft) : Prop :=
  check.action = .followupAuthChecked ∧ check.outcome = .authorised
    ∧ check.messageId = confirmed.messageId ∧ check.principalId = confirmed.principalId
    ∧ check.caseId = confirmed.caseId ∧ check.reviewerId = confirmed.reviewerId
    ∧ check.correlationId = confirmed.correlationId

/-- A check that failed. -/
def DeniedCheck (d : AuditDraft) : Prop := d.action = .followupAuthChecked ∧ d.outcome = .triage

/-- The triage that answers a failed check. -/
def TriagedAfter (check confirmed : AuditDraft) : Prop :=
  confirmed.action = .classificationConfirmed ∧ confirmed.outcome = .triage
    ∧ confirmed.messageId = check.messageId

/-- The batch of a confirmation ends with the check and the event it leads to. -/
theorem Routed.adjacent {w : World} {r : CaseRegistry} {t : Instant} {m : IntakeMessage}
    {d : HumanDecision} {cid : PyStr} {o : ClassificationOutcome} {c : Option CaseId} {f : Effect}
    (h : Routed r t m d cid o c f) :
    PrecededBy AttachingConfirmation ChecksFor
        (corrections w m d cid ++ f.drafts ++ [confirmationDraft m d o cid])
      ∧ FollowedBy DeniedCheck TriagedAfter
        (corrections w m d cid ++ f.drafts ++ [confirmationDraft m d o cid]) := by
  have hcorr : FollowedBy DeniedCheck TriagedAfter (corrections w m d cid) :=
    followedBy_of_forall fun x hx hd => by rw [mem_corrections hx] at hd; cases hd.1
  have hlast : ¬ DeniedCheck (confirmationDraft m d o cid) := fun hd => by cases hd.1
  refine ⟨?_, ?_⟩
  · refine PrecededBy.concat (precededBy_of_forall fun x hx ha =>
      h.not_once x hx (Or.inr (Or.inr ha.1))) fun ha => ?_
    cases h with
    | authorised _ _ hs _ => exact ⟨_, _, rfl, rfl, rfl, rfl, rfl, hs.symm, rfl, rfl⟩
    | _ => cases ha.2
  · rw [List.append_assoc]
    refine hcorr.append ?_
    cases h with
    | authorised => exact followedBy_pair (fun hd => by cases hd.2) hlast
    | denied => exact followedBy_pair (fun _ => ⟨rfl, rfl, rfl⟩) hlast
    | _ => exact followedBy_of_forall fun x hx hd => hlast (List.mem_singleton.mp hx ▸ hd)

/-- Every other call writes neither checks nor confirmations. -/
theorem Served.adjacent {env : Env} {w : World} {call : MessageCall} {reply : Reply} {f : Effect}
    (h : Served env w call reply f) :
    PrecededBy AttachingConfirmation ChecksFor f.drafts ∧ FollowedBy DeniedCheck TriagedAfter f.drafts := by
  have single : ∀ {d : AuditDraft}, d.action ≠ .classificationConfirmed → d.action ≠ .followupAuthChecked →
      PrecededBy AttachingConfirmation ChecksFor [d] ∧ FollowedBy DeniedCheck TriagedAfter [d] :=
    fun hc hf => ⟨precededBy_of_forall fun x hx ha => hc (List.mem_singleton.mp hx ▸ ha.1),
      followedBy_of_forall fun x hx hd => hf (List.mem_singleton.mp hx ▸ hd.1)⟩
  cases h with
  | intakeReplayed | proposeReplayed | proposeAfterIntake | confirmReplayed | confirmConflict =>
      exact ⟨precededBy_nil _ _, followedBy_nil _ _⟩
  | intakeAuthorised | intakeTriaged | proposeDenied => exact single nofun nofun
  | proposeAsked _ _ _ ask =>
      cases ask with
      | _ => exact single nofun nofun
  | confirmed _ _ hr => exact hr.adjacent

/-- Checks and confirmations stand next to each other. -/
structure Adjacent (w : World) : Prop where
  checked : PrecededBy AttachingConfirmation ChecksFor w.trail
  triaged : FollowedBy DeniedCheck TriagedAfter w.trail

theorem adjacent_init (registry : CaseRegistry) (ids : Stream' PyStr) :
    Adjacent (World.init registry ids) :=
  ⟨precededBy_nil _ _, followedBy_nil _ _⟩

theorem adjacent_step {env : Env} (w : World) (req : Request) (h : Adjacent w) :
    Adjacent (system env w req).2 := by
  rcases system_step env w req with ⟨call, f, _, hs, happ⟩ | ⟨r, f, hreg, _, _, _, happ⟩
  · refine ⟨?_, ?_⟩
    · rw [happ.trail]; exact h.checked.append hs.adjacent.1
    · rw [happ.trail]; exact h.triaged.append hs.adjacent.2
  · have hne : ∀ d ∈ f.drafts, ¬ AttachingConfirmation d ∧ ¬ DeniedCheck d := by
      intro d hd
      refine ⟨?_, ?_⟩
      · intro ha
        cases (hreg d hd).1.symm.trans ha.1
      · intro ha
        cases (hreg d hd).1.symm.trans ha.1
    refine ⟨?_, ?_⟩
    · rw [happ.trail]; exact h.checked.append (precededBy_of_forall fun d hd => (hne d hd).1)
    · rw [happ.trail]; exact h.triaged.append (followedBy_of_forall fun d hd => (hne d hd).2)

theorem adjacent_reachable {env : Env} {w : World} (h : Reachable env w) : Adjacent w :=
  h.invariant adjacent_init adjacent_step

/--
**No authorisation is recorded without an intact chain and its check.**

For every run: an authorising event names a chain that was intact in the registry
of the request that wrote it, at the instant that request read; an attaching
confirmation stands right after its check; and a failed check right before the
triage of its message.
-/
theorem authorisations_checked (env : Env) (registry : CaseRegistry) (ids : Stream' PyStr)
    (reqs : List Request) :
    (∀ e ∈ (runFrom env registry ids reqs).audit, Authorises e.toAuditDraft →
        ∃ pre req post call c p, reqs = pre ++ req :: post ∧ req.call = .message call
          ∧ e ∈ newEvents env (runFrom env registry ids pre) req
          ∧ e.caseId = some c ∧ e.principalId = some p
          ∧ ChainIntact (runFrom env registry ids pre).registry p c
              (gateRead ((runFrom env registry ids pre).during req.clock) call))
      ∧ PrecededBy (fun e => AttachingConfirmation e.toAuditDraft)
          (fun check e => ChecksFor check.toAuditDraft e.toAuditDraft) (runFrom env registry ids reqs).audit
      ∧ FollowedBy (fun e => DeniedCheck e.toAuditDraft)
          (fun e after => TriagedAfter e.toAuditDraft after.toAuditDraft)
          (runFrom env registry ids reqs).audit := by
  have hreachable : Reachable env (runFrom env registry ids reqs) := ⟨registry, ids, reqs, rfl⟩
  have hadjacent := adjacent_reachable hreachable
  exact ⟨fun _ he ha => authorising_event he ha, hadjacent.checked.of_map, hadjacent.triaged.of_map⟩

/-! ## Replies: the message that was checked -/

/-- An event a call appended is in the log after it. -/
theorem mem_audit_of_draft {w w' : World} {f : Effect} (h : Applied w f w') {d : AuditDraft}
    (hd : d ∈ f.drafts) : ∃ e ∈ w'.audit, e.toAuditDraft = d := by
  obtain ⟨es, hes, hmap⟩ := h.appended
  rw [← hmap] at hd
  obtain ⟨e, he, rfl⟩ := List.mem_map.mp hd
  exact ⟨e, hes ▸ List.mem_append_right _ he, rfl⟩

/-- An authorised intake reply, fresh or replayed, is backed by an event of the log. -/
theorem intake_reply_event {env : Env} {w w' : World} {m : IntakeMessage}
    {decision : AuthorisationDecision} {f : Effect}
    (hs : Served env w (.handleIntake m) (.intake (.ok decision)) f) (happ : Applied w f w')
    (hk : decision.kind = .authorised) :
    ∃ e ∈ w'.audit, e.action = .intakeDecision ∧ e.outcome = .authorised
      ∧ e.messageId = some m.messageId ∧ e.caseId = decision.caseId := by
  generalize hreply : Reply.intake (.ok decision) = reply at hs
  cases hs with
  | @intakeReplayed _ prior h =>
      obtain ⟨hmem, haction, hid⟩ := World.eventFor_spec h
      refine ⟨prior, happ.audit.subset hmem, haction, ?_⟩
      simp only [Reply.intake.injEq, decisionFromEvent] at hreply
      cases hout : prior.outcome <;> rw [hout] at hreply <;> simp [DecisionKind.ofValue] at hreply
      · exact ⟨rfl, hid, by rw [hreply]⟩
      · rw [hreply] at hk; cases hk
  | @intakeAuthorised _ c cid =>
      obtain ⟨e, he, hdraft⟩ := mem_audit_of_draft happ (List.mem_singleton_self _)
      obtain rfl : decision = granted c := by simpa using hreply
      exact ⟨e, he, by rw [hdraft]; rfl, by rw [hdraft]; rfl, by rw [hdraft]; rfl, by rw [hdraft]; rfl⟩
  | intakeTriaged =>
      simp only [Reply.intake.injEq, Except.ok.injEq] at hreply
      rw [hreply] at hk
      cases hk

/-- An authorised follow-up reply, fresh or replayed, is backed by an event of the same decision. -/
theorem followup_reply_event {env : Env} {w w' : World} {m : IntakeMessage} {d : HumanDecision}
    {caseId : Option CaseId} {f : Effect}
    (hs : Served env w (.confirm m d) (.confirmation (.ok ⟨.followupAuthorised, caseId⟩)) f)
    (happ : Applied w f w') :
    ∃ e ∈ w'.audit, e.action = .classificationConfirmed ∧ e.outcome = .followupAuthorised
      ∧ e.messageId = some m.messageId ∧ e.caseId = caseId
      ∧ eventSignature e = decisionSignature d := by
  generalize hreply : Reply.confirmation (.ok ⟨.followupAuthorised, caseId⟩) = reply at hs
  cases hs with
  | @confirmReplayed _ _ confirmed h hsig =>
      obtain ⟨hmem, haction, hid⟩ := World.eventFor_spec h
      refine ⟨confirmed, happ.audit.subset hmem, haction, ?_⟩
      simp only [Reply.confirmation.injEq, confirmFromEvent] at hreply
      cases hout : confirmed.outcome <;> rw [hout] at hreply <;>
        simp [ClassificationOutcome.ofValue] at hreply
      exact ⟨rfl, hid, hreply.symm, hsig⟩
  | confirmConflict => cases hreply
  | @confirmed _ _ cid o c g _ _ hr =>
      simp only [Reply.confirmation.injEq, Except.ok.injEq, ConfirmResult.mk.injEq] at hreply
      obtain ⟨rfl, rfl⟩ := hreply
      obtain ⟨e, he, hdraft⟩ := mem_audit_of_draft happ (List.mem_append_right _ (List.mem_singleton_self _))
      refine ⟨e, he, by rw [hdraft]; rfl, by rw [hdraft]; rfl, by rw [hdraft]; rfl, ?_, ?_⟩
      · rw [hdraft, hr.caseId_eq, if_pos rfl]; rfl
      · rw [eventSignature_of_confirmation hdraft, decisionSignature_inj]
        cases hr with
        | authorised ht => exact withTriage_eq_self.mpr ht.symm

/-- An authorised intake reply goes back to the intake whose message was checked. -/
theorem intake_reply_origin {env : Env} {registry : CaseRegistry} {ids : Stream' PyStr}
    {reqs : List Request} {clock : Stream' Instant} {m : IntakeMessage} {decision : AuthorisationDecision}
    (hreply : (system env (runFrom env registry ids reqs) ⟨.message (.handleIntake m), clock⟩).1
      = .intake (.ok decision)) (hk : decision.kind = .authorised) :
    ∃ pre r₀ post m₀ c, reqs ++ [⟨.message (.handleIntake m), clock⟩] = pre ++ r₀ :: post
      ∧ r₀.call = .message (.handleIntake m₀) ∧ m₀.messageId = m.messageId
      ∧ (runFrom env registry ids pre).decisionFor m.messageId = none
      ∧ decision.caseId = some c ∧ m₀.claimedCaseIds = [c]
      ∧ ChainIntact (runFrom env registry ids pre).registry m₀.principalId c r₀.clock.head := by
  obtain ⟨f, hs, happ⟩ := serve_served env ((runFrom env registry ids reqs).during clock) (.handleIntake m)
  obtain ⟨e, he, haction, hout, hid, hcase⟩ := intake_reply_event (hreply ▸ hs) happ hk
  -- the event behind the reply is in the log by the end of the call, so it has an origin up to there
  have he' : e ∈ (runFrom env registry ids (reqs ++ [⟨.message (.handleIntake m), clock⟩])).audit := by
    rw [runFrom_concat]
    exact he
  obtain ⟨pre, r₀, post, call, g, hcut, hcall, _, hs₀, hx⟩ := audit_origin he' (by simp [haction])
  obtain ⟨m₀, c, cid, rfl, hnone, hclaimed, hdraft, hchain⟩ := hs₀.authorised_decision hx haction hout
  have hid₀ : m₀.messageId = m.messageId := by
    rw [hdraft] at hid
    exact Option.some.inj hid
  have hc : decision.caseId = some c := by rw [← hcase, hdraft]; rfl
  exact ⟨pre, r₀, post, m₀, c, hcut, hcall, hid₀, hid₀ ▸ hnone, hc, hclaimed, hchain⟩

/-- An authorised follow-up reply goes back to the confirmation of the same decision. -/
theorem followup_reply_origin {env : Env} {registry : CaseRegistry} {ids : Stream' PyStr}
    {reqs : List Request} {clock : Stream' Instant} {m : IntakeMessage} {d : HumanDecision}
    {caseId : Option CaseId}
    (hreply : (system env (runFrom env registry ids reqs) ⟨.message (.confirm m d), clock⟩).1
      = .confirmation (.ok ⟨.followupAuthorised, caseId⟩)) :
    ∃ pre r₀ post m₀ c, reqs ++ [⟨.message (.confirm m d), clock⟩] = pre ++ r₀ :: post
      ∧ r₀.call = .message (.confirm m₀ d) ∧ m₀.messageId = m.messageId
      ∧ (runFrom env registry ids pre).eventFor m.messageId .classificationConfirmed = none
      ∧ caseId = some c ∧ d.selectedCaseId = some c
      ∧ ChainIntact (runFrom env registry ids pre).registry m₀.principalId c
          (gateInstant ((runFrom env registry ids pre).during r₀.clock) m₀ d) := by
  obtain ⟨f, hs, happ⟩ := serve_served env ((runFrom env registry ids reqs).during clock) (.confirm m d)
  obtain ⟨e, he, haction, hout, hid, hcase, hsig⟩ := followup_reply_event (hreply ▸ hs) happ
  have he' : e ∈ (runFrom env registry ids (reqs ++ [⟨.message (.confirm m d), clock⟩])).audit := by
    rw [runFrom_concat]
    exact he
  obtain ⟨pre, r₀, post, call, g, hcut, hcall, _, hs₀, hx⟩ := audit_origin he' (by simp [haction])
  obtain ⟨m₀, d₀, c, cid, rfl, hnone, ht, hsel, hdraft, hchain⟩ := hs₀.authorised_followup hx haction hout
  have hid₀ : m₀.messageId = m.messageId := by
    rw [hdraft] at hid
    exact Option.some.inj hid
  -- a replay is only given for the recorded decision, and an authorised one carries no triage flag
  obtain rfl : d₀ = d := by
    rw [eventSignature_of_confirmation hdraft, decisionSignature_inj] at hsig
    rw [← hsig]
    exact (withTriage_eq_self.mpr ht.symm).symm
  have hc : caseId = some c := by rw [← hcase, hdraft]; exact hsel
  exact ⟨pre, r₀, post, m₀, c, hcut, hcall, hid₀, hid₀ ▸ hnone, hc, hsel, hchain⟩

/--
**An authorised reply answers the message that was checked.**

Every authorised reply of a run, fresh or replayed, goes back to one request of
the run, the reply's own at the latest, whose message `m₀` carried the same id.
At that request the chain from `m₀`'s sender to the returned case was intact. The
case is what `m₀` claimed, for an intake; for a confirmation it is also what the
call at hand selected.
-/
theorem authorised_reply (env : Env) (registry : CaseRegistry) (ids : Stream' PyStr)
    (reqs : List Request) (req : Request) :
    (∀ m decision, req.call = .message (.handleIntake m) →
        (system env (runFrom env registry ids reqs) req).1 = .intake (.ok decision) →
        decision.kind = .authorised →
        ∃ pre r₀ post m₀ c, reqs ++ [req] = pre ++ r₀ :: post
          ∧ r₀.call = .message (.handleIntake m₀) ∧ m₀.messageId = m.messageId
          ∧ (runFrom env registry ids pre).decisionFor m.messageId = none
          ∧ decision.caseId = some c ∧ m₀.claimedCaseIds = [c]
          ∧ ChainIntact (runFrom env registry ids pre).registry m₀.principalId c r₀.clock.head)
      ∧ ∀ m d caseId, req.call = .message (.confirm m d) →
        (system env (runFrom env registry ids reqs) req).1
          = .confirmation (.ok ⟨.followupAuthorised, caseId⟩) →
        ∃ pre r₀ post m₀ c, reqs ++ [req] = pre ++ r₀ :: post
          ∧ r₀.call = .message (.confirm m₀ d) ∧ m₀.messageId = m.messageId
          ∧ (runFrom env registry ids pre).eventFor m.messageId .classificationConfirmed = none
          ∧ caseId = some c ∧ d.selectedCaseId = some c
          ∧ ChainIntact (runFrom env registry ids pre).registry m₀.principalId c
              (gateInstant ((runFrom env registry ids pre).during r₀.clock) m₀ d) := by
  obtain ⟨call, clock⟩ := req
  refine ⟨?_, ?_⟩
  · intro m decision hcall hreply hk
    cases hcall
    exact intake_reply_origin hreply hk
  · intro m d caseId hcall hreply
    cases hcall
    exact followup_reply_origin hreply

/-- The id of a message is all a replay looks at: `P2` is answered with the case `P` was let through to. -/
theorem authorised_reply_other_sender :
    let first := system (Sample.env none) Sample.world
      (Sample.request (.handleIntake (Sample.message "P" ["CASE-1"])))
    let second := system (Sample.env none) first.2
      (Sample.request (.handleIntake (Sample.message "P2" ["CASE-2"])))
    second.1 = .intake (.ok (granted "CASE-1"))
      ∧ (∀ t, ¬ ChainIntact Sample.registry "P2" "CASE-1" t)
      ∧ (PyStr.ofString "CASE-1") ∉ (Sample.message "P2" ["CASE-2"]).claimedCaseIds := by
  refine ⟨rfl, ?_, by decide⟩
  intro t hchain
  obtain ⟨e, k, revokedAt, hc, he, hp, _⟩ := hchain
  obtain rfl : PyStr.ofString "E" = e := Option.some.inj hc
  obtain rfl : PyStr.ofString "C" = k := Option.some.inj he
  have hclient : PyStr.ofString "C2" = PyStr.ofString "C" := congrArg Principal.clientId (Option.some.inj hp)
  exact absurd hclient (by decide)

end Intake.Proof
