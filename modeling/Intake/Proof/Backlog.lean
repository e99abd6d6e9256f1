import Intake.Proof.Queues

/-!
# The order of the queues

That both queues agree with the log message by message leaves open in which order
they hold their messages. It is the order of the log: a queue holds the messages
its events ask for, each at the place of the first such event, and an item never
moves or leaves.

Four of the five code paths that triage a message append before they enqueue. A
confirmation enqueues first and appends last. So the order holds of whole calls,
not of every single write.
-/

namespace Intake.Proof

open IntakeService ClassificationService EventLog

/-! ## Who is asked for -/

/-- The message an event sends to human triage. -/
def triagedMessage (d : AuditDraft) : Option MessageId :=
  d.messageId.filter fun x => Triages x d

/-- The message an event makes wait for inputs. -/
def awaitingMessage (d : AuditDraft) : Option MessageId :=
  d.messageId.filter fun x => Awaits x d

theorem triagedMessage_eq_some {d : AuditDraft} {x : MessageId} :
    triagedMessage d = some x ↔ Triages x d = true := by
  rw [triagedMessage, Option.filter_eq_some_iff]
  exact ⟨fun h => h.2, fun h => ⟨messageId_of_triages h, h⟩⟩

theorem awaitingMessage_eq_some {d : AuditDraft} {x : MessageId} :
    awaitingMessage d = some x ↔ Awaits x d = true := by
  rw [awaitingMessage, Option.filter_eq_some_iff]
  exact ⟨fun h => h.2, fun h => ⟨messageId_of_awaits h, h⟩⟩

/-- Both queues are in the order of the log. -/
structure Ordered (w : World) : Prop where
  triage : w.triage.InOrder triagedMessage w.trail
  clarifications : w.clarifications.InOrder awaitingMessage w.trail

/-! ## One call -/

/-- Only self-guarding events ask for anything. -/
theorem filterMap_triagedMessage_eq_nil {l : List AuditDraft} (h : ∀ y ∈ l, ¬ OncePerMessage y.action) :
    l.filterMap triagedMessage = [] := by
  rw [List.filterMap_eq_nil_iff]
  intro y hy
  rw [Option.eq_none_iff_forall_ne_some]
  intro x hx
  exact h y hy (once_of_triages (triagedMessage_eq_some.mp hx))

theorem filterMap_awaitingMessage_eq_nil {l : List AuditDraft} (h : ∀ y ∈ l, ¬ OncePerMessage y.action) :
    l.filterMap awaitingMessage = [] := by
  rw [List.filterMap_eq_nil_iff]
  intro y hy
  rw [Option.eq_none_iff_forall_ne_some]
  intro x hx
  exact h y hy (once_of_awaits (awaitingMessage_eq_some.mp hx))

/-- What a call queues for triage, in the order in which it logs it. -/
theorem Served.queued_eq {env : Env} {w : World} {call : MessageCall} {reply : Reply} {f : Effect}
    (h : Served env w call reply f) : f.drafts.filterMap triagedMessage = f.queued.map TriageItem.messageId := by
  cases h with
  | intakeReplayed | proposeReplayed | proposeAfterIntake | confirmReplayed | confirmConflict => rfl
  | intakeAuthorised => rfl
  | intakeTriaged | proposeDenied => simp [triagedMessage, Triages, intakeDecisionDraft, triageItem, deny]
  | proposeAsked _ _ _ ask =>
      cases ask with
      | failed | flagged => simp [triagedMessage, Triages, proposalDraft, triageItem]
      | pending => rfl
  | confirmed _ _ hr =>
      rw [List.filterMap_append, filterMap_triagedMessage_eq_nil hr.not_once, List.nil_append]
      cases hr with
      | flagged | noCase | denied =>
          simp [triagedMessage, Triages, confirmationDraft, reviewDraft, triageItem, ClassificationOutcome.value]
      | response | awaiting | ready | authorised => rfl

/-- What a call asks inputs for, likewise. -/
theorem Served.tasked_eq {env : Env} {w : World} {call : MessageCall} {reply : Reply} {f : Effect}
    (h : Served env w call reply f) :
    f.drafts.filterMap awaitingMessage = f.tasked.map ClarificationTask.messageId := by
  cases h with
  | intakeReplayed | proposeReplayed | proposeAfterIntake | confirmReplayed | confirmConflict => rfl
  | intakeAuthorised | intakeTriaged | proposeDenied => rfl
  | proposeAsked _ _ _ ask =>
      cases ask with
      | _ => rfl
  | confirmed _ _ hr =>
      rw [List.filterMap_append, filterMap_awaitingMessage_eq_nil hr.not_once, List.nil_append]
      cases hr with
      | awaiting => simp [awaitingMessage, Awaits, confirmationDraft, reviewDraft, ClassificationOutcome.value]
      | _ => rfl

/-! ## One step -/

/-- **What a step of the system offers to the queues** is what its events ask for, in their order. -/
structure Offers (w : World) (f : Effect) (w' : World) : Prop where
  trail : w'.trail = w.trail ++ f.drafts
  triage : w'.triage = w.triage.offerAll f.queued
  clarifications : w'.clarifications = w.clarifications.offerAll f.tasked
  triages : ∀ x, Option.Rel QueuedFor (f.drafts.find? (Triages x))
    (f.queued.find? fun item => Decidable.decide (item.messageId = x))
  awaits : ∀ x, Option.Rel TaskedFor (f.drafts.find? (Awaits x))
    (f.tasked.find? fun task => Decidable.decide (task.messageId = x))
  queued : f.drafts.filterMap triagedMessage = f.queued.map TriageItem.messageId
  tasked : f.drafts.filterMap awaitingMessage = f.tasked.map ClarificationTask.messageId

theorem system_offers (env : Env) (w : World) (req : Request) : ∃ f, Offers w f (system env w req).2 := by
  rcases system_step env w req with ⟨call, f, _, hs, happ⟩ | ⟨r, f, hreg, hqueued, htasked, _, happ⟩
  · exact ⟨f, happ.trail, happ.triage, happ.clarifications, hs.triages, hs.awaits, hs.queued_eq, hs.tasked_eq⟩
  · -- registry calls ask for nothing
    have honce : ∀ y ∈ f.drafts, ¬ OncePerMessage y.action := by
      intro y hy h
      rw [(hreg y hy).1] at h
      rcases h with h | h | h <;> cases h
    refine ⟨f, happ.trail, happ.triage, happ.clarifications, fun x => ?_, fun x => ?_, ?_, ?_⟩
    · rw [registered_find? hreg fun _ => once_of_triages, hqueued]
      exact Option.Rel.none
    · rw [registered_find? hreg fun _ => once_of_awaits, htasked]
      exact Option.Rel.none
    · rw [filterMap_triagedMessage_eq_nil honce, hqueued]
      rfl
    · rw [filterMap_awaitingMessage_eq_nil honce, htasked]
      rfl

theorem ordered_step {env : Env} (w : World) (req : Request) (h : Ordered w) : Ordered (system env w req).2 := by
  obtain ⟨f, hf⟩ := system_offers env w req
  refine ⟨?_, ?_⟩
  · rw [hf.trail, hf.triage]
    exact h.triage.append hf.queued
  · rw [hf.trail, hf.clarifications]
    exact h.clarifications.append hf.tasked

theorem ordered_reachable {env : Env} {w : World} (h : Reachable env w) : Ordered w :=
  h.invariant (fun _ _ => ⟨rfl, rfl⟩) ordered_step

/-! ## First come, first queued -/

/-- A confirmation is the only event that makes a message wait for inputs, and there is one of them. -/
theorem awaiting_nodup {w : World} (h : WriteOnce w) : (w.trail.filterMap awaitingMessage).Nodup := by
  refine nodup_filterMap_of_atMostOnce (fun x => h x .classificationConfirmed (Or.inr (Or.inr rfl))) ?_
  intro d x hx
  have hawaits := awaitingMessage_eq_some.mp hx
  simp only [Awaits, Bool.and_eq_true, decide_eq_true_eq] at hawaits
  exact AuditDraft.isFor_iff.mpr ⟨hawaits.1.1, hawaits.2⟩

/-- Queues only grow, at their ends. -/
theorem items_run (env : Env) (w : World) (reqs : List Request) :
    w.triage.items <+: (Machine.run (system env) w reqs).triage.items
      ∧ w.clarifications.items <+: (Machine.run (system env) w reqs).clarifications.items := by
  have hstep : ∀ (w : World) (req : Request), w.triage.items <+: (system env w req).2.triage.items
      ∧ w.clarifications.items <+: (system env w req).2.clarifications.items := by
    intro w req
    obtain ⟨f, hf⟩ := system_offers env w req
    rw [hf.triage, hf.clarifications]
    exact ⟨w.triage.items_offerAll f.queued, w.clarifications.items_offerAll f.tasked⟩
  exact Machine.run_invariant
    (P := fun w' => w.triage.items <+: w'.triage.items ∧ w.clarifications.items <+: w'.clarifications.items)
    (fun w' req h => ⟨h.1.trans (hstep w' req).1, h.2.trans (hstep w' req).2⟩)
    ⟨List.prefix_refl _, List.prefix_refl _⟩ reqs

/--
**First come, first queued.**

In every state of every run, the triage queue holds the messages that the log has
triaged, in the order in which it first did so, and the clarification queue the
messages that the log makes wait for inputs, in its order. Whatever happens later,
the items queued so far stay where they are.
-/
theorem queues_in_order (env : Env) (registry : CaseRegistry) (ids : Stream' PyStr) (reqs reqs' : List Request) :
    let w := Machine.run (system env) (World.init registry ids) reqs
    let w' := Machine.run (system env) w reqs'
    w.triage.InOrder triagedMessage w.trail
      ∧ w.clarifications.items.map ClarificationTask.messageId = w.trail.filterMap awaitingMessage
      ∧ w.triage.items <+: w'.triage.items
      ∧ w.clarifications.items <+: w'.clarifications.items := by
  intro w w'
  have hreachable : Reachable env w := ⟨registry, ids, reqs, rfl⟩
  have hordered := ordered_reachable hreachable
  refine ⟨hordered.triage, ?_, items_run env w reqs'⟩
  rw [← KeyedQueue.eraseDups_of_nodup (awaiting_nodup (writeOnce_reachable hreachable))]
  exact hordered.clarifications

end Intake.Proof
