import Intake.Proof.Served
import Intake.Proof.Observer

/-!
# The model is advisory

A proposal is logged, read back by later calls, compared with the reviewer's
decision and answered with a correction event where the two differ. None of that
reaches the routing: two classifiers that raise and flag the same messages cannot
be told apart by anyone who is not shown their proposals.

This is `serve_twin` again, for an observer who is shown the denial details but
nothing the model has a hand in. The one asymmetry is the correction event, which
one run may log and the other not; it moves the generator and the clock, so ids
are hidden from this observer too and the clock stands still within a call.
-/

namespace Intake.Proof

open IntakeService ClassificationService

/-- Sees everything but what the model has a hand in. -/
def reviewer : Observer := { detail := true, model := false }

/-- An answer without the proposal. -/
def withoutProposal : Reply → Reply
  | .proposal r => .proposal { r with proposal := none }
  | r => r

/-- An event without generated values, and without the model's payload; corrections are left out. -/
def withoutModel (e : AuditEvent) : Option AuditEvent :=
  if e.action = .classificationCorrected then
    none
  else
    some
      { e with
        eventId := []
        sequence := 0
        correlationId := []
        classification := if e.action = .classificationProposed then none else e.classification }

theorem reviewer_reply : reviewer.reply = withoutProposal := by
  funext r
  cases r with
  | intake r => cases r <;> rfl
  | _ => rfl

/-- The reviewer's view determines the log without the model. -/
theorem reviewer_log (l : List AuditEvent) : (reviewer.log l).filterMap withoutModel = l.filterMap withoutModel := by
  rw [Observer.log, List.filterMap_filterMap]
  refine List.filterMap_congr fun e _ => ?_
  obtain ⟨⟨action, _, _, _, _, _, _, _, _, _, classification⟩, _, _, _⟩ := e
  cases action <;> cases classification <;> rfl

/-- Two classifiers that raise and flag alike look alike to the reviewer. -/
theorem modelAlike_reviewer {env₁ env₂ : Env}
    (h : ∀ history shown, (env₁.classify history shown).map ClassificationProposal.triageReason
      = (env₂.classify history shown).map ClassificationProposal.triageReason) :
    ModelAlike reviewer env₁ env₂ := by
  intro history shown
  have hview : reviewer.proposal = (fun reason => (none, reason)) ∘ ClassificationProposal.triageReason := rfl
  rw [hview, ← Option.map_map, h, Option.map_map]

/-! ## Registry calls -/

theorem alike_registry (o : Observer) : RegistryUnwinding (Alike o Eq) :=
  { registry := fun h => h.registry
    mutate := fun h _ => { h with registry := rfl }
    newId := fun h => h.newId.2
    record := fun h c subjectDigest => by
      obtain ⟨hid, hw⟩ := h.newId
      exact hw.append (by simp [Observer.draft, caseRegisteredDraft, hid]) }

/-! ## Two runs -/

/-- The registry is not the services' to change. -/
theorem serve_registry (env : Env) (w : World) (call : MessageCall) :
    (serve env w call).2.registry = w.registry := by
  obtain ⟨_, _, happ⟩ := serve_served env w call
  exact happ.registry

/-- **One request**, over equal registries. -/
theorem system_twin {o : Observer} {env₁ env₂ : Env} {w₁ w₂ : World} (hmodel : ModelAlike o env₁ env₂)
    (hsha : env₁.sha256 = env₂.sha256) (h : Alike o Eq w₁ w₂) {req : Request} {t : Instant}
    (hclock : req.clock = Stream'.const t) :
    Twin o Eq o.reply (system env₁ w₁ req) (system env₂ w₂ req) := by
  have hstart : Alike o Eq (w₁.during req.clock) (w₂.during req.clock) :=
    { h with clock := rfl, fixed := Or.inr ⟨t, hclock⟩ }
  obtain ⟨call, clock⟩ := req
  by_cases hmessage : ∃ m, call = .message m
  · obtain ⟨call, rfl⟩ := hmessage
    have hgate : GateAlike o call.message.principalId w₁.registry w₂.registry := fun c t => by
      rw [h.registry]
    have hcall : Alike o (GateAlike o call.message.principalId) (w₁.during clock) (w₂.during clock) :=
      { hstart with registry := hgate }
    obtain ⟨hreply, hw⟩ := serve_twin hmodel call hcall
    -- neither call touched its registry
    refine ⟨hreply, { hw with registry := ?_ }⟩
    show (serve env₁ (w₁.during clock) call).2.registry = (serve env₂ (w₂.during clock) call).2.registry
    rw [serve_registry, serve_registry]
    exact h.registry
  · obtain ⟨hreply, hw⟩ := (alike_registry o).perform hsha hstart fun m hm => hmessage ⟨m, hm⟩
    exact ⟨congrArg o.reply hreply, hw⟩

/--
**The model never routes.**

Take two classifiers that raise on the same projections and flag the same ones.
Every run, with the clock fixed within each call, gives the same answers with
either, proposals apart. Registry and queues end up equal but for generated ids,
and so do the logs, without corrections and without the payloads of proposals.
-/
theorem model_advisory (env : Env)
    (classify : List MessageProjection → MessageProjection → Option ClassificationProposal)
    (registry : CaseRegistry) (ids : Stream' PyStr) (reqs : List Request)
    (hclassify : ∀ history shown, (env.classify history shown).map ClassificationProposal.triageReason
      = (classify history shown).map ClassificationProposal.triageReason)
    (hclock : ∀ req ∈ reqs, ∃ t, req.clock = Stream'.const t) :
    let other : Env := { env with classify }
    let w₁ := Machine.run (system env) (World.init registry ids) reqs
    let w₂ := Machine.run (system other) (World.init registry ids) reqs
    List.Forall₂ (fun reply reply' => withoutProposal reply = withoutProposal reply')
        (Machine.outputs (system env) (World.init registry ids) reqs)
        (Machine.outputs (system other) (World.init registry ids) reqs)
      ∧ w₁.registry = w₂.registry
      ∧ w₁.triage.items.map (fun item => { item with triageItemId := [] })
        = w₂.triage.items.map (fun item => { item with triageItemId := [] })
      ∧ w₁.clarifications.items.map (fun task => { task with taskId := [] })
        = w₂.clarifications.items.map (fun task => { task with taskId := [] })
      ∧ w₁.audit.filterMap withoutModel = w₂.audit.filterMap withoutModel := by
  intro other w₁ w₂
  have hinit : Alike reviewer Eq (World.init registry ids) (World.init registry ids) :=
    ⟨rfl, rfl, rfl, rfl, rfl, rfl, fun _ => rfl, Or.inr ⟨0, rfl⟩⟩
  have hreqs : List.Forall₂ (fun req req' => req = req' ∧ ∃ t, req.clock = Stream'.const t) reqs reqs :=
    List.forall₂_same.mpr fun req hreq => ⟨rfl, hclock req hreq⟩
  have hmodel : ModelAlike reviewer env other := modelAlike_reviewer hclassify
  obtain ⟨hout, h⟩ := Machine.run_related (M := system env) (N := system other) (R := Alike reviewer Eq)
    (O := fun reply reply' => reviewer.reply reply = reviewer.reply reply')
    (fun _ _ _ _ h hreq => by
      obtain ⟨rfl, t, ht⟩ := hreq
      exact system_twin hmodel rfl h ht) hinit hreqs
  refine ⟨by simpa only [reviewer_reply] using hout, h.registry, h.triage, h.clarifications, ?_⟩
  rw [← reviewer_log w₁.audit, ← reviewer_log w₂.audit]
  exact congrArg (List.filterMap withoutModel) h.audit

/-- A message proposed as a response or as a follow-up is confirmed as a response all the same. -/
theorem model_advisory_response :
    let proposal : ClassificationClass → ClassificationProposal := fun cls =>
      { routeClass := cls, subtype := none, confidence := ⟨0⟩, evidenceSpans := [], candidateCaseIds := []
        missingFields := [] }
    let m := Sample.message "P" []
    let reqs := [Sample.request (.propose m "text"),
      Sample.request (.confirm m { reviewerId := "R1", confirmedClass := some .response })]
    List.Forall₂ (fun reply reply' => withoutProposal reply = withoutProposal reply')
      (Machine.outputs (system (Sample.env (some (proposal .response)))) Sample.world reqs)
      (Machine.outputs (system (Sample.env (some (proposal .existingFollowup)))) Sample.world reqs) := by
  intro proposal m reqs
  exact (model_advisory (Sample.env (some (proposal .response))) (fun _ _ => some (proposal .existingFollowup))
    Sample.registry Sample.ids reqs (fun _ _ => rfl) (by
      intro req hreq
      simp only [reqs, List.mem_cons, List.not_mem_nil, or_false] at hreq
      rcases hreq with rfl | rfl <;> exact ⟨0, rfl⟩)).1

end Intake.Proof
