import Intake.Proof.Backlog
import Intake.Proof.Interference

/-!
# What a restart keeps and what it loses

Nothing the services do depends on the queues, or on where the id generator
stands: both are only ever written. So a restart that brings back the registry and
the log brings back every answer there will be.

The queues it does not bring back. An item is offered once, together with the
event that asks for it, and the event is in the log for good. After a restart only
later events fill the queues.
-/

namespace Intake.Proof

open IntakeService ClassificationService EventLog

/-! ## One memory -/

/-- An event without its generated ids, at its place in the log. -/
def unidentified (e : AuditEvent) : AuditEvent :=
  { e with toAuditDraft := uncorrelated e.toAuditDraft, eventId := [] }

/--
Two worlds with one memory: one registry, one log up to generated ids, and a
classifier that was shown the same. Their queues are compared only if `queues`.
-/
structure SameMemory (queues : Prop) (w₁ w₂ : World) : Prop where
  registry : w₁.registry = w₂.registry
  events : w₁.audit.map unidentified = w₂.audit.map unidentified
  classified : w₁.classified = w₂.classified
  triage : queues → w₁.triage.items.map unlabelledItem = w₂.triage.items.map unlabelledItem
  clarifications : queues →
    w₁.clarifications.items.map unlabelledTask = w₂.clarifications.items.map unlabelledTask

namespace SameMemory

variable {queues : Prop} {w₁ w₂ : World}

theorem refl (queues : Prop) (w : World) : SameMemory queues w w := ⟨rfl, rfl, rfl, fun _ => rfl, fun _ => rfl⟩

/-- Clock and id generator are not part of the memory. -/
theorem congr (h : SameMemory queues w₁ w₂) (c₁ c₂ : Stream' Instant) (i₁ i₂ : Stream' PyStr) :
    SameMemory queues { w₁ with clock := c₁, ids := i₁ } { w₂ with clock := c₂, ids := i₂ } :=
  ⟨h.registry, h.events, h.classified, h.triage, h.clarifications⟩

theorem append (h : SameMemory queues w₁ w₂) (hclock : w₁.clock = w₂.clock) {d₁ d₂ : AuditDraft}
    (hd : uncorrelated d₁ = uncorrelated d₂) : SameMemory queues (w₁.append d₁) (w₂.append d₂) where
  registry := h.registry
  events := by
    have hlength : w₁.audit.length = w₂.audit.length := by simpa using congrArg List.length h.events
    show (w₁.audit ++ [_]).map unidentified = (w₂.audit ++ [_]).map unidentified
    rw [List.map_append, List.map_append, h.events]
    simp only [List.map_cons, List.map_nil, unidentified, hd, hclock, hlength]
  classified := h.classified
  triage := h.triage
  clarifications := h.clarifications

theorem enqueueTriage (h : SameMemory queues w₁ w₂) (m : IntakeMessage) (reason : ReasonCode) :
    SameMemory queues (w₁.enqueueTriage m reason) (w₂.enqueueTriage m reason) := by
  have hkey : ∀ a b, unlabelledItem a = unlabelledItem b → a.messageId = b.messageId := fun a b hab => by
    have hid := congrArg TriageItem.messageId hab
    exact hid
  exact ⟨h.registry, h.events, h.classified,
    fun hq => KeyedQueue.enqueue_congr unlabelledItem hkey (h.triage hq) rfl, h.clarifications⟩

theorem enqueueTask (h : SameMemory queues w₁ w₂) (x : MessageId) (subtype : Option NewDeliverableSubtype)
    (missing : List MissingField) (i₁ i₂ : PyStr) :
    SameMemory queues { w₁ with clarifications := (w₁.clarifications.enqueue ⟨i₁, x, subtype, missing⟩).2 }
      { w₂ with clarifications := (w₂.clarifications.enqueue ⟨i₂, x, subtype, missing⟩).2 } := by
  have hkey : ∀ a b, unlabelledTask a = unlabelledTask b → a.messageId = b.messageId := fun a b hab => by
    have hid := congrArg ClarificationTask.messageId hab
    exact hid
  exact ⟨h.registry, h.events, h.classified, h.triage,
    fun hq => KeyedQueue.enqueue_congr unlabelledTask hkey (h.clarifications hq) rfl⟩

/-- **Lookups find like events**, or nothing on either side. -/
theorem eventFor (h : SameMemory queues w₁ w₂) (x : MessageId) (a : AuditAction) :
    (w₁.eventFor x a = none ∧ w₂.eventFor x a = none)
      ∨ ∃ e₁ e₂, w₁.eventFor x a = some e₁ ∧ w₂.eventFor x a = some e₂
        ∧ uncorrelated e₁.toAuditDraft = uncorrelated e₂.toAuditDraft := by
  have hlookup : ∀ w : World, (w.eventFor x a).map unidentified
      = latest (fun e => e.toAuditDraft.isFor x a) (w.audit.map unidentified) := by
    intro w
    rw [latest_map]
    rfl
  have heq : (w₁.eventFor x a).map unidentified = (w₂.eventFor x a).map unidentified := by
    rw [hlookup, hlookup, h.events]
  cases h₁ : w₁.eventFor x a <;> cases h₂ : w₂.eventFor x a <;> rw [h₁, h₂] at heq
  case none.none => exact Or.inl ⟨rfl, rfl⟩
  case none.some => cases heq
  case some.none => cases heq
  case some.some e₁ e₂ =>
    exact Or.inr ⟨e₁, e₂, rfl, rfl, congrArg AuditEvent.toAuditDraft (Option.some.inj heq)⟩

end SameMemory

/-! ## One step -/

theorem sameMemory_unwinding (queues : Prop) (env : Env) (m : IntakeMessage) :
    Unwinding View.unlabelled env env m (fun w₁ w₂ => SameMemory queues w₁ w₂ ∧ w₁.clock = w₂.clock) := by
  have hnewId : ∀ {w₁ w₂ : World}, SameMemory queues w₁ w₂ ∧ w₁.clock = w₂.clock →
      View.unlabelled.id w₁.newId.1 = View.unlabelled.id w₂.newId.1
        ∧ SameMemory queues w₁.newId.2 w₂.newId.2 ∧ w₁.newId.2.clock = w₂.newId.2.clock :=
    fun h => ⟨rfl, h.1.congr _ _ _ _, h.2⟩
  have happend : ∀ {w₁ w₂ : World}, SameMemory queues w₁ w₂ ∧ w₁.clock = w₂.clock →
      ∀ {d₁ d₂}, View.unlabelled.draft d₁ = View.unlabelled.draft d₂ →
        SameMemory queues (w₁.append d₁) (w₂.append d₂) ∧ (w₁.append d₁).clock = (w₂.append d₂).clock :=
    fun h _ _ hd => ⟨h.1.append h.2 hd, congrArg Stream'.tail h.2⟩
  have hread : ∀ {e₁ e₂ : AuditEvent},
      View.unlabelled.draft e₁.toAuditDraft = View.unlabelled.draft e₂.toAuditDraft →
        e₁.classification = e₂.classification
          ∧ View.unlabelled.id e₁.correlationId = View.unlabelled.id e₂.correlationId :=
    fun hd => ⟨by obtain ⟨c, hc⟩ := eq_of_uncorrelated hd; rw [hc], rfl⟩
  exact
    { gate := fun h c t => by rw [h.1.registry]
      newId := hnewId
      now := fun h => ⟨congrArg Stream'.head h.2, h.1.congr _ _ _ _, congrArg Stream'.tail h.2⟩
      append := happend
      enqueueTriage := fun h reason => ⟨h.1.enqueueTriage m reason, h.2⟩
      enqueueTask := fun h subtype missing i₁ i₂ _ => ⟨h.1.enqueueTask m.messageId subtype missing i₁ i₂, h.2⟩
      classify := fun h shown => by
        unfold ClassificationService.classify
        rw [h.1.classified]
        exact ⟨rfl, ⟨h.1.registry, h.1.events, rfl, h.1.triage, h.1.clarifications⟩, h.2⟩
      eventFor := fun h a _ => h.1.eventFor m.messageId a
      openConfirmation := fun h d =>
        openConfirmation_unwinds hnewId happend hread (h.1.eventFor m.messageId _) h d }

theorem sameMemory_registry (queues : Prop) :
    RegistryUnwinding (fun w₁ w₂ => SameMemory queues w₁ w₂ ∧ w₁.clock = w₂.clock) :=
  { registry := fun h => h.1.registry
    mutate := fun h _ => ⟨⟨rfl, h.1.events, h.1.classified, h.1.triage, h.1.clarifications⟩, h.2⟩
    newId := fun h => ⟨h.1.congr _ _ _ _, h.2⟩
    record := fun {w₁ w₂} h c subjectDigest => by
      have hdrawn : SameMemory queues w₁.newId.2 w₂.newId.2 := h.1.congr _ _ _ _
      exact ⟨hdrawn.append h.2 rfl, congrArg Stream'.tail h.2⟩ }

/-- **A request is answered from memory**, and remembered alike. -/
theorem SameMemory.step {queues : Prop} {w₁ w₂ : World} (h : SameMemory queues w₁ w₂) (env : Env)
    (req : Request) :
    (system env w₁ req).1 = (system env w₂ req).1
      ∧ SameMemory queues (system env w₁ req).2 (system env w₂ req).2 := by
  obtain ⟨call, clock⟩ := req
  have hstart : SameMemory queues (w₁.during clock) (w₂.during clock) := h.congr _ _ _ _
  by_cases hmessage : ∃ m, call = .message m
  · obtain ⟨call, rfl⟩ := hmessage
    obtain ⟨hreply, hw⟩ := serve_unwinds (sameMemory_unwinding queues env call.message) ⟨hstart, rfl⟩
    rw [View.unlabelled_reply, View.unlabelled_reply] at hreply
    exact ⟨hreply, hw.1⟩
  · obtain ⟨hreply, hw⟩ := (sameMemory_registry queues).perform rfl ⟨hstart, rfl⟩ fun m hm => hmessage ⟨m, hm⟩
    exact ⟨hreply, hw.1⟩

/-- Runs over one memory answer one request after the other alike. -/
theorem SameMemory.run {queues : Prop} {w₁ w₂ : World} (h : SameMemory queues w₁ w₂) (env : Env)
    (reqs : List Request) :
    Machine.outputs (system env) w₁ reqs = Machine.outputs (system env) w₂ reqs
      ∧ SameMemory queues (Machine.run (system env) w₁ reqs) (Machine.run (system env) w₂ reqs) := by
  have hsame : List.Forall₂ Eq reqs reqs := by rw [List.forall₂_eq_eq_eq]
  obtain ⟨hreplies, hmemory⟩ := Machine.run_related (M := system env) (N := system env)
    (R := SameMemory queues) (I := Eq) (O := Eq)
    (fun _ _ req _ h hreq => by
      obtain rfl := hreq
      exact h.step env req) h hsame
  rw [List.forall₂_eq_eq_eq] at hreplies
  exact ⟨hreplies, hmemory⟩

/-! ## A restart -/

/-- The registry, the log and the classifier of a world, with empty queues and another id generator. -/
def restarted (w : World) (ids : Stream' PyStr) : World :=
  { World.init w.registry ids with audit := w.audit, classified := w.classified }

theorem restarted_memory (w : World) (ids : Stream' PyStr) : SameMemory False (restarted w ids) w :=
  ⟨rfl, rfl, rfl, False.elim, False.elim⟩

/-- The queues hold what the events since some point ask for, and nothing else. -/
structure FilledSince (base : List AuditDraft) (w : World) : Prop where
  triage : ∃ since, w.trail = base ++ since ∧ w.triage.Mirrors QueuedFor Triages since
  clarifications : ∃ since, w.trail = base ++ since ∧ w.clarifications.Mirrors TaskedFor Awaits since

theorem filledSince_step {env : Env} {base : List AuditDraft} (w : World) (req : Request)
    (h : FilledSince base w) : FilledSince base (system env w req).2 := by
  obtain ⟨f, hf⟩ := system_offers env w req
  refine ⟨?_, ?_⟩
  · obtain ⟨since, htrail, hmirrors⟩ := h.triage
    refine ⟨since ++ f.drafts, by rw [hf.trail, htrail, List.append_assoc], ?_⟩
    rw [hf.triage]
    exact hmirrors.append hf.triages
  · obtain ⟨since, htrail, hmirrors⟩ := h.clarifications
    refine ⟨since ++ f.drafts, by rw [hf.trail, htrail, List.append_assoc], ?_⟩
    rw [hf.clarifications]
    exact hmirrors.append hf.awaits

/--
**What a restart keeps and what it loses.**

Restart the services in any state, with the registry and the log they had, empty
queues and any id generator. From then on every request is answered as it would
have been without the restart, and the logs and registries stay the same, ids and
correlation ids apart. A message waits for triage, or for inputs, exactly if an
event since the restart says so: what waited before waits no more.
-/
theorem restart_unnoticed (env : Env) (w : World) (ids : Stream' PyStr) (reqs : List Request) :
    let w₁ := Machine.run (system env) (restarted w ids) reqs
    let w₂ := Machine.run (system env) w reqs
    Machine.outputs (system env) (restarted w ids) reqs = Machine.outputs (system env) w reqs
      ∧ w₁.registry = w₂.registry
      ∧ w₁.audit.map unidentified = w₂.audit.map unidentified
      ∧ w₁.classified = w₂.classified
      ∧ ∃ since, w₁.trail = w.trail ++ since
        ∧ (∀ x, w₁.triage.has x = true ↔ ∃ d ∈ since, Triages x d = true)
        ∧ ∀ x, w₁.clarifications.has x = true ↔ ∃ d ∈ since, Awaits x d = true := by
  intro w₁ w₂
  obtain ⟨hreplies, hmemory⟩ := (restarted_memory w ids).run env reqs
  have hfilled : FilledSince w.trail w₁ := by
    refine Machine.run_invariant filledSince_step ⟨⟨[], ?_, ?_⟩, ⟨[], ?_, ?_⟩⟩ reqs
    · rw [List.append_nil]
      rfl
    · exact KeyedQueue.mirrors_empty _ _
    · rw [List.append_nil]
      rfl
    · exact KeyedQueue.mirrors_empty _ _
  obtain ⟨since, htrail, htriage⟩ := hfilled.triage
  obtain ⟨since', htrail', hclarifications⟩ := hfilled.clarifications
  obtain rfl : since' = since := List.append_cancel_left (htrail'.symm.trans htrail)
  exact ⟨hreplies, hmemory.registry, hmemory.events, hmemory.classified, since', htrail, htriage.has_iff,
    hclarifications.has_iff⟩

end Intake.Proof
