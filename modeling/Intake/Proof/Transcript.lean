import Intake.Proof.Grammar
import Intake.Proof.Ingress

/-!
# The classifier and its transcript

The classifier is a machine of its own: what it answers may depend on everything it
was shown before. The service keeps no copy of its answers, it writes an event for
each.

`log_transcribes` says that these events are the run of that machine, in order and
with nothing added: whoever has the log knows what the classifier answered, and
when it raised. The other two results say how it is asked: once for a message, and
about no case that the sender could not attach to at that instant.
-/

namespace Intake.Proof

open IntakeService ClassificationService EventLog

/-! ## What an answer becomes -/

/-- The classifier, which remembers what it was shown. -/
def classifier (env : Env) : Machine (List MessageProjection) MessageProjection (Option ClassificationProposal) :=
  fun history shown => (env.classify history shown, history ++ [shown])

/-- Outcome and reason of the event for an answer. -/
def verdict : Option ClassificationProposal → AuditOutcome × Option ReasonCode
  | none => (.triage, some .classifierError)
  | some proposal =>
      match proposal.triageReason with
      | some reason => (.triage, some reason)
      | none => (.pending, none)

/-- What a proposed event says. -/
structure Entry where
  messageId : Option MessageId
  outcome : AuditOutcome
  reason : Option ReasonCode
  payload : Option ClassificationPayload

/-- The entry of a draft, if it is a proposed event. -/
def entryOf (d : AuditDraft) : Option Entry :=
  if d.action = .classificationProposed then some ⟨d.messageId, d.outcome, d.reason, d.classification⟩ else none

/-- The entry for an answer. -/
def entryFor (shown : MessageProjection) (answer : Option ClassificationProposal) : Entry :=
  ⟨some shown.messageId, (verdict answer).1, (verdict answer).2, some (payloadOf answer)⟩

/-- The entries for all answers the classifier gives to a list of projections. -/
def transcript (env : Env) (history shown : List MessageProjection) : List Entry :=
  List.zipWith entryFor shown (Machine.outputs (classifier env) history shown)

theorem run_classifier (env : Env) (history shown : List MessageProjection) :
    Machine.run (classifier env) history shown = history ++ shown := by
  induction shown generalizing history with
  | nil => exact (List.append_nil _).symm
  | cons x shown ih =>
      rw [Machine.run_cons, ih]
      exact List.append_assoc history [x] shown

theorem transcript_append (env : Env) (history shown shown' : List MessageProjection) :
    transcript env history (shown ++ shown')
      = transcript env history shown ++ transcript env (history ++ shown) shown' := by
  unfold transcript
  rw [Machine.outputs_append, run_classifier, List.zipWith_append (Machine.length_outputs ..).symm]

/-- A transcript names the messages of its projections. -/
theorem messageIds_transcript (env : Env) (history shown : List MessageProjection) :
    (transcript env history shown).filterMap Entry.messageId = shown.map MessageProjection.messageId := by
  induction shown generalizing history with
  | nil => rfl
  | cons x shown ih => exact congrArg (x.messageId :: ·) (ih (history ++ [x]))

theorem isFor_of_entryOf {d : AuditDraft} {x : MessageId} (h : (entryOf d).bind Entry.messageId = some x) :
    d.isFor x .classificationProposed = true := by
  unfold entryOf at h
  split_ifs at h with haction
  · exact AuditDraft.isFor_iff.mpr ⟨haction, h⟩
  · cases h

/-! ## One step -/

/-- The event for an answer, whichever way it was given. -/
theorem Asked.drafts_eq {env : Env} {history : List MessageProjection} {m : IntakeMessage}
    {shown : MessageProjection} {cid : PyStr} {r : ProposalResult} {f : Effect}
    (h : Asked env history m shown cid r f) :
    f.drafts = [proposalDraft m (env.classify history shown) (verdict (env.classify history shown)).1
      (verdict (env.classify history shown)).2 cid] := by
  cases h with
  | failed h => rw [h]; rfl
  | flagged h hr => rw [h, verdict, hr]
  | pending h hr => rw [h, verdict, hr]

theorem filterMap_entryOf_eq_nil {l : List AuditDraft} (h : ∀ d ∈ l, d.action ≠ .classificationProposed) :
    l.filterMap entryOf = [] :=
  List.filterMap_eq_nil_iff.mpr fun d hd => if_neg (h d hd)

/-- **A call enters the answer it got**, and nothing else. -/
theorem Served.reports {env : Env} {w : World} {call : MessageCall} {reply : Reply} {f : Effect}
    (h : Served env w call reply f) : f.drafts.filterMap entryOf = transcript env w.classified f.asked := by
  cases h with
  | intakeReplayed | proposeReplayed | proposeAfterIntake | confirmReplayed | confirmConflict => rfl
  | intakeAuthorised | intakeTriaged | proposeDenied => rfl
  | proposeAsked _ _ _ ask =>
      rw [ask.drafts_eq, ask.shown]
      rfl
  | @confirmed m d cid o c g _ _ hr =>
      have hsilent : ∀ y ∈ corrections w m d cid ++ g.drafts ++ [confirmationDraft m d o cid],
          y.action ≠ .classificationProposed := by
        intro y hy haction
        rcases List.mem_append.mp hy with hy | hy
        · exact hr.not_once y hy (Or.inr (Or.inl haction))
        · rw [List.mem_singleton.mp hy] at haction
          cases haction
      have hasked : g.asked = [] := hr.asked
      rw [filterMap_entryOf_eq_nil hsilent]
      show [] = transcript env w.classified g.asked
      rw [hasked]
      rfl

/-- The proposed events of the log are the transcript of the classifier. -/
def Transcribed (env : Env) (w : World) : Prop := w.trail.filterMap entryOf = transcript env [] w.classified

theorem transcribed_step {env : Env} (w : World) (req : Request) (h : Transcribed env w) :
    Transcribed env (system env w req).2 := by
  unfold Transcribed at h ⊢
  rcases system_step env w req with ⟨call, f, _, hs, happ⟩ | ⟨r, f, hreg, _, _, hasked, happ⟩
  · rw [happ.trail, happ.classified, List.filterMap_append, transcript_append]
    exact congrArg₂ (· ++ ·) h hs.reports
  · have hsilent := filterMap_entryOf_eq_nil (l := f.drafts) fun d hd ha => by
      rw [(hreg d hd).1] at ha
      cases ha
    rw [happ.trail, happ.classified, List.filterMap_append, hsilent, hasked, List.append_nil, List.append_nil]
    exact h

theorem transcribed_reachable {env : Env} {w : World} (h : Reachable env w) : Transcribed env w :=
  h.invariant (fun _ _ => rfl) transcribed_step

/-! ## What the classifier is asked -/

/-- The projections a request shows to the classifier. -/
def newlyShown (env : Env) (w : World) (req : Request) : List MessageProjection :=
  (system env w req).2.classified.drop w.classified.length

/-- **What a request shows** is the projection of a message that was neither proposed nor decided. -/
theorem system_shows (env : Env) (w : World) (req : Request) :
    (system env w req).2.classified = w.classified ++ newlyShown env w req
      ∧ ∀ shown ∈ newlyShown env w req, ∃ m text, req.call = .message (.propose m text)
        ∧ AsksClassifier (w.during req.clock) m
        ∧ shown = projectionAt w.registry (candidateInstant (w.during req.clock) m) m text := by
  have hsplit : ∀ {asked : List MessageProjection},
      (system env w req).2.classified = w.classified ++ asked → newlyShown env w req = asked := by
    intro asked h
    rw [newlyShown, h, List.drop_left]
  rcases system_step env w req with ⟨call, f, hcall, hs, happ⟩ | ⟨r, f, _, _, _, hasked, happ⟩
  · have hclassified : (system env w req).2.classified = w.classified ++ f.asked := happ.classified
    refine ⟨by rw [hsplit hclassified, hclassified], ?_⟩
    rw [hsplit hclassified]
    intro shown hshown
    obtain ⟨_, clock⟩ := req
    generalize (system env w _).1 = reply at hs
    cases hs with
    | intakeReplayed | proposeReplayed | proposeAfterIntake | confirmReplayed | confirmConflict =>
        exact absurd hshown List.not_mem_nil
    | intakeAuthorised | intakeTriaged | proposeDenied => exact absurd hshown List.not_mem_nil
    | confirmed _ _ hr =>
        have hnone := hr.asked
        exact absurd (hnone ▸ hshown) List.not_mem_nil
    | @proposeAsked m text _ _ _ _ hp hi hg ask =>
        obtain rfl : _ = Call.message (.propose m text) := hcall
        obtain ⟨_, g, ha, happ'⟩ := propose_asked env (w := w.during clock) ⟨hp, hi, hg⟩ text
        have hsame : w.classified ++ f.asked = w.classified ++ g.asked := hclassified.symm.trans happ'.classified
        rw [List.append_cancel_left hsame, ha.shown, List.mem_singleton] at hshown
        exact ⟨m, text, rfl, ⟨hp, hi, hg⟩, hshown⟩
  · have hclassified : (system env w req).2.classified = w.classified ++ [] := by rw [← hasked]; exact happ.classified
    refine ⟨by rw [hsplit hclassified, hclassified], ?_⟩
    rw [hsplit hclassified]
    exact fun shown hshown => absurd hshown List.not_mem_nil

/--
**The log is the transcript of the classifier.**

In every run, the proposed events of the log report, in order, what the classifier
answered to the projections it was shown, and where it raised. No two projections
are of one message. Each was built by a call of the run, for a message that was
neither proposed nor decided then, and its candidates are the claimed cases whose
chain was intact when the call read the clock.
-/
theorem log_transcribes (env : Env) (registry : CaseRegistry) (ids : Stream' PyStr) (reqs : List Request) :
    let w := runFrom env registry ids reqs
    w.trail.filterMap entryOf = transcript env [] w.classified
      ∧ (w.classified.map MessageProjection.messageId).Nodup
      ∧ ∀ shown ∈ w.classified, ∃ pre m text clock post,
        reqs = pre ++ ⟨.message (.propose m text), clock⟩ :: post
          ∧ AsksClassifier ((runFrom env registry ids pre).during clock) m
          ∧ shown.messageId = m.messageId ∧ shown.principalId = m.principalId ∧ shown.text = text
          ∧ ∀ c, c ∈ shown.candidateCaseIds ↔ c ∈ m.claimedCaseIds ∧ isWellFormedCaseId c = true
            ∧ ChainIntact (runFrom env registry ids pre).registry m.principalId c
              (candidateInstant ((runFrom env registry ids pre).during clock) m) := by
  intro w
  have hreachable : Reachable env w := ⟨registry, ids, reqs, rfl⟩
  have htranscript := transcribed_reachable hreachable
  refine ⟨htranscript, ?_, ?_⟩
  · -- one proposed event for a message, so one projection
    rw [← messageIds_transcript env [], ← htranscript, List.filterMap_filterMap]
    refine nodup_filterMap_of_atMostOnce
      (fun x => writeOnce_reachable hreachable x .classificationProposed (Or.inr (Or.inl rfl))) fun d x hd => ?_
    exact isFor_of_entryOf hd
  · intro shown hshown
    rcases Machine.run_origin (M := system env) (fun w req => (system_shows env w req).1) hshown with
      h₀ | ⟨pre, req, post, hcut, hnew⟩
    · exact absurd h₀ List.not_mem_nil
    · obtain ⟨m, text, hcall, hasks, rfl⟩ := (system_shows env _ req).2 shown hnew
      obtain ⟨_, clock⟩ := req
      subst hcall
      refine ⟨pre, m, text, clock, post, hcut, hasks, rfl, rfl, rfl, fun c => ?_⟩
      rw [← authorise_kind, projectionAt, List.mem_filter, decide_eq_true_iff]

end Intake.Proof
