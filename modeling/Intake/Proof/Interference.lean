import Intake.Proof.Queues
import Intake.Proof.Unwinding

/-!
# Messages do not interfere

Log, queues, clock and id source are shared by all messages. What is looked up is
looked up under a message id, and what is queued is queued under one, so a call
for one message neither reads nor writes what belongs to another.

The argument compares the run of all calls with the run of the calls for one
message. Generated ids and sequence numbers are left out of the comparison; the
id sources of the two runs may even be different ones. The classifier must answer
by the projection alone: one that remembers what it was shown connects the
messages itself.
-/

namespace Intake.Proof

open IntakeService ClassificationService EventLog

/-! ## What belongs to a message -/

/-- A draft without its correlation id. -/
def uncorrelated (d : AuditDraft) : AuditDraft := { d with correlationId := [] }

/-- An event without its generated values: event id, sequence number and correlation id. -/
def unlabelled (e : AuditEvent) : AuditEvent :=
  { e with toAuditDraft := uncorrelated e.toAuditDraft, eventId := [], sequence := 0 }

def unlabelledItem (item : TriageItem) : TriageItem := { item with triageItemId := [] }

def unlabelledTask (task : ClarificationTask) : ClarificationTask := { task with taskId := [] }

/-- The audit events of a message. -/
def eventsOf (x : MessageId) (w : World) : List AuditEvent :=
  (w.audit.filter fun e => e.messageId = some x).map unlabelled

/-- The triage entries of a message. -/
def itemsOf (x : MessageId) (w : World) : List TriageItem :=
  (w.triage.items.filter fun item => item.messageId = x).map unlabelledItem

/-- The clarification entries of a message. -/
def tasksOf (x : MessageId) (w : World) : List ClarificationTask :=
  (w.clarifications.items.filter fun task => task.messageId = x).map unlabelledTask

theorem itemsOf_eq (x : MessageId) (w : World) :
    itemsOf x w = ((w.triage.itemFor x).map unlabelledItem).toList := by
  rw [itemsOf, w.triage.filter_key x, Option.toList_map]

theorem tasksOf_eq (x : MessageId) (w : World) :
    tasksOf x w = ((w.clarifications.itemFor x).map unlabelledTask).toList := by
  rw [tasksOf, w.clarifications.filter_key x, Option.toList_map]

theorem eventsOf_append (x : MessageId) (w : World) (d : AuditDraft) :
    eventsOf x (w.append d) = eventsOf x w
      ++ if d.messageId = some x then [⟨uncorrelated d, [], 0, w.clock.head⟩] else [] := by
  have haudit : (w.append d).audit = w.audit ++ [⟨d, w.ids.head, w.audit.length + 1, w.clock.head⟩] := rfl
  rw [eventsOf, haudit, List.filter_append, List.map_append, ← eventsOf]
  by_cases h : d.messageId = some x
  · rw [if_pos h, List.filter_cons_of_pos (by simpa using h)]
    rfl
  · rw [if_neg h, List.filter_cons_of_neg (by simpa using h)]
    rfl

/-- Two worlds that are one to message `x`, over one registry. -/
structure OneFor (x : MessageId) (w₁ w₂ : World) : Prop where
  registry : w₁.registry = w₂.registry
  events : eventsOf x w₁ = eventsOf x w₂
  triage : (w₁.triage.itemFor x).map unlabelledItem = (w₂.triage.itemFor x).map unlabelledItem
  clarifications :
    (w₁.clarifications.itemFor x).map unlabelledTask = (w₂.clarifications.itemFor x).map unlabelledTask

namespace OneFor

variable {x : MessageId} {w₁ w₂ : World}

theorem append (h : OneFor x w₁ w₂) (hclock : w₁.clock = w₂.clock) {d₁ d₂ : AuditDraft}
    (hd : uncorrelated d₁ = uncorrelated d₂) : OneFor x (w₁.append d₁) (w₂.append d₂) where
  registry := h.registry
  events := by
    have hid := congrArg AuditDraft.messageId hd
    dsimp only [uncorrelated] at hid
    rw [eventsOf_append, eventsOf_append, h.events, hd, hid, hclock]
  triage := h.triage
  clarifications := h.clarifications

theorem enqueueTriage (h : OneFor x w₁ w₂) (m : IntakeMessage) (reason : ReasonCode) :
    OneFor x (w₁.enqueueTriage m reason) (w₂.enqueueTriage m reason) where
  registry := h.registry
  events := h.events
  triage := KeyedQueue.itemFor_enqueue_congr unlabelledItem h.triage rfl rfl
  clarifications := h.clarifications

/-- **A lookup under the message's id finds like events**, or nothing on either side. -/
theorem eventFor (h : OneFor x w₁ w₂) (a : AuditAction) :
    (w₁.eventFor x a = none ∧ w₂.eventFor x a = none)
      ∨ ∃ e₁ e₂, w₁.eventFor x a = some e₁ ∧ w₂.eventFor x a = some e₂ ∧ unlabelled e₁ = unlabelled e₂ := by
  have hlookup : ∀ w : World, (w.eventFor x a).map unlabelled
      = latest (fun e => e.toAuditDraft.isFor x a) (eventsOf x w) := by
    intro w
    rw [eventsOf, latest_map]
    refine congrArg (Option.map unlabelled) (latest_filter (fun e he => ?_) w.audit).symm
    exact decide_eq_true (AuditDraft.isFor_iff.mp he).2
  have heq : (w₁.eventFor x a).map unlabelled = (w₂.eventFor x a).map unlabelled := by
    rw [hlookup, hlookup, h.events]
  cases h₁ : w₁.eventFor x a <;> cases h₂ : w₂.eventFor x a <;> rw [h₁, h₂] at heq
  case none.none => exact Or.inl ⟨rfl, rfl⟩
  case none.some => cases heq
  case some.none => cases heq
  case some.some e₁ e₂ => exact Or.inr ⟨e₁, e₂, rfl, rfl, Option.some.inj heq⟩

end OneFor

/-! ## Calls for the message -/

/-- Drafts that compare equal are equal but for the correlation id, which nothing reads back. -/
theorem eq_of_uncorrelated {d₁ d₂ : AuditDraft} (h : uncorrelated d₁ = uncorrelated d₂) :
    ∃ c, d₁ = { d₂ with correlationId := c } := by
  obtain ⟨_, _, _, _, _, _, _, _, c, _, _⟩ := d₁
  obtain ⟨_, _, _, _, _, _, _, _, _, _, _⟩ := d₂
  cases h
  exact ⟨c, rfl⟩

/-- Generated ids are not compared. -/
def View.unlabelled : View where
  id _ := []
  decision d := d
  proposal p := (some p, p.triageReason)
  result r := r
  draft := uncorrelated
  decision_eq := View.exact.decision_eq
  proposal_eq := View.exact.proposal_eq
  intakeDecisionDraft_eq m _ _ _ _ hd _ := by rw [hd]; rfl
  authCheckDraft_eq m d _ _ _ _ ha _ := by rw [ha]; rfl
  reviewDraft_eq a out m d _ _ _ := rfl
  proposalDraft_eq m out reason p₁ p₂ _ _ hp _ := by
    rw [Option.map_injective shown_injective hp]
    rfl
  decisionFromEvent_eq h := by
    obtain ⟨c, hc⟩ := eq_of_uncorrelated h
    simp only [decisionFromEvent, hc]
  proposalFromEvent_eq h := by
    obtain ⟨c, hc⟩ := eq_of_uncorrelated h
    simp only [proposalFromEvent, hc]
  eventSignature_eq h _ := by
    obtain ⟨c, hc⟩ := eq_of_uncorrelated h
    simp only [eventSignature, hc]
  confirmFromEvent_eq h := by
    obtain ⟨c, hc⟩ := eq_of_uncorrelated h
    simp only [confirmFromEvent, hc]

theorem View.unlabelled_reply (r : Reply) : View.unlabelled.reply r = r := by
  cases r with
  | intake r => exact congrArg Reply.intake (by cases r <;> rfl)
  | proposal r => rfl
  | confirmation r => rfl
  | registry r => rfl

/-- A classifier that answers by the projection alone. -/
def statelessEnv (sha256 : ByteArray → String) (classify : MessageProjection → Option ClassificationProposal) :
    Env :=
  ⟨sha256, fun _ shown => classify shown⟩

variable {sha256 : ByteArray → String} {classify : MessageProjection → Option ClassificationProposal}

theorem oneFor_unwinding (m : IntakeMessage) :
    Unwinding View.unlabelled (statelessEnv sha256 classify) (statelessEnv sha256 classify) m
      (fun w₁ w₂ => OneFor m.messageId w₁ w₂ ∧ w₁.clock = w₂.clock) := by
  have hnewId : ∀ {w₁ w₂ : World}, OneFor m.messageId w₁ w₂ ∧ w₁.clock = w₂.clock →
      View.unlabelled.id w₁.newId.1 = View.unlabelled.id w₂.newId.1
        ∧ OneFor m.messageId w₁.newId.2 w₂.newId.2 ∧ w₁.newId.2.clock = w₂.newId.2.clock :=
    fun h => ⟨rfl, ⟨h.1.registry, h.1.events, h.1.triage, h.1.clarifications⟩, h.2⟩
  have happend : ∀ {w₁ w₂ : World}, OneFor m.messageId w₁ w₂ ∧ w₁.clock = w₂.clock →
      ∀ {d₁ d₂}, View.unlabelled.draft d₁ = View.unlabelled.draft d₂ →
        OneFor m.messageId (w₁.append d₁) (w₂.append d₂) ∧ (w₁.append d₁).clock = (w₂.append d₂).clock :=
    fun h _ _ hd => ⟨h.1.append h.2 hd, congrArg Stream'.tail h.2⟩
  have hfor : ∀ {w₁ w₂ : World}, OneFor m.messageId w₁ w₂ ∧ w₁.clock = w₂.clock → ∀ a,
      (w₁.eventFor m.messageId a = none ∧ w₂.eventFor m.messageId a = none)
        ∨ ∃ e₁ e₂, w₁.eventFor m.messageId a = some e₁ ∧ w₂.eventFor m.messageId a = some e₂
          ∧ View.unlabelled.draft e₁.toAuditDraft = View.unlabelled.draft e₂.toAuditDraft := by
    intro w₁ w₂ h a
    rcases h.1.eventFor a with hnone | ⟨e₁, e₂, h₁, h₂, he⟩
    · exact Or.inl hnone
    · exact Or.inr ⟨e₁, e₂, h₁, h₂, congrArg AuditEvent.toAuditDraft he⟩
  have hread : ∀ {e₁ e₂ : AuditEvent},
      View.unlabelled.draft e₁.toAuditDraft = View.unlabelled.draft e₂.toAuditDraft →
        e₁.classification = e₂.classification
          ∧ View.unlabelled.id e₁.correlationId = View.unlabelled.id e₂.correlationId :=
    fun hd => ⟨by obtain ⟨c, hc⟩ := eq_of_uncorrelated hd; rw [hc], rfl⟩
  exact
    { gate := fun h c t => by rw [h.1.registry]
      newId := hnewId
      now := fun h => ⟨congrArg Stream'.head h.2,
        ⟨h.1.registry, h.1.events, h.1.triage, h.1.clarifications⟩, congrArg Stream'.tail h.2⟩
      append := happend
      enqueueTriage := fun h reason => ⟨h.1.enqueueTriage m reason, h.2⟩
      enqueueTask := fun h subtype missing _ _ _ =>
        ⟨⟨h.1.registry, h.1.events, h.1.triage,
          KeyedQueue.itemFor_enqueue_congr unlabelledTask h.1.clarifications rfl rfl⟩, h.2⟩
      classify := fun h shown => ⟨rfl, ⟨h.1.registry, h.1.events, h.1.triage, h.1.clarifications⟩, h.2⟩
      eventFor := fun h a _ => hfor h a
      openConfirmation := fun h d => openConfirmation_unwinds hnewId happend hread (hfor h _) h d }

/-! ## Everything else -/

/-- **A call for another message** leaves the message's events and entries as they are. -/
theorem OneFor.foreign {x : MessageId} {w₁ w₂ : World} (h : OneFor x w₁ w₂) (env : Env) {call : MessageCall}
    (hx : call.message.messageId ≠ x) : OneFor x (serve env w₁ call).2 w₂ := by
  obtain ⟨f, hs, happ⟩ := serve_served env w₁ call
  have hother : ∀ d ∈ f.drafts, d.messageId ≠ some x := by
    intro d hd hid
    rw [(hs.wrote d hd).messageId] at hid
    exact hx (Option.some.inj hid)
  refine ⟨happ.registry.trans h.registry, ?_, ?_, ?_⟩
  · obtain ⟨es, hes, hmap⟩ := happ.appended
    have hnone : (es.filter fun e => e.messageId = some x) = [] := by
      rw [List.filter_eq_nil_iff]
      intro e he
      simpa using hother e.toAuditDraft (hmap ▸ List.mem_map_of_mem he)
    rw [← h.events, eventsOf, hes, List.filter_append, hnone, List.append_nil, eventsOf]
  · -- nothing in the batch triages `x`, so nothing is offered under `x`
    have htriages := hs.triages x
    rw [List.find?_eq_none.mpr fun d hd ht => hother d hd (messageId_of_triages ht)] at htriages
    rw [happ.triage, KeyedQueue.itemFor_offerAll, ← h.triage]
    cases hq : f.queued.find? fun item => Decidable.decide (item.messageId = x) with
    | none => rw [Option.or_none]
    | some item => rw [hq] at htriages; cases htriages
  · have hawaits := hs.awaits x
    rw [List.find?_eq_none.mpr fun d hd ha => hother d hd (messageId_of_awaits ha)] at hawaits
    rw [happ.clarifications, KeyedQueue.itemFor_offerAll, ← h.clarifications]
    cases hq : f.tasked.find? fun task => Decidable.decide (task.messageId = x) with
    | none => rw [Option.or_none]
    | some task => rw [hq] at hawaits; cases hawaits

theorem oneFor_registry (x : MessageId) :
    RegistryUnwinding (fun w₁ w₂ => OneFor x w₁ w₂ ∧ w₁.clock = w₂.clock) :=
  { registry := fun h => h.1.registry
    mutate := fun h _ => ⟨⟨rfl, h.1.events, h.1.triage, h.1.clarifications⟩, h.2⟩
    newId := fun h => ⟨⟨h.1.registry, h.1.events, h.1.triage, h.1.clarifications⟩, h.2⟩
    record := fun {w₁ w₂} h c subjectDigest => by
      have hdrawn : OneFor x w₁.newId.2 w₂.newId.2 := ⟨h.1.registry, h.1.events, h.1.triage, h.1.clarifications⟩
      exact ⟨hdrawn.append h.2 rfl, congrArg Stream'.tail h.2⟩ }

/-- The calls for a message, and those for no message. -/
def Concerns (x : MessageId) (req : Request) : Bool :=
  match req.call with
  | .message call => call.message.messageId = x
  | .registerCase _ _ => true
  | .registry _ => true

/-- **A step that concerns the message.** -/
theorem OneFor.step {x : MessageId} {w₁ w₂ : World} (h : OneFor x w₁ w₂) {req : Request}
    (hreq : Concerns x req = true) :
    (system (statelessEnv sha256 classify) w₁ req).1 = (system (statelessEnv sha256 classify) w₂ req).1
      ∧ OneFor x (system (statelessEnv sha256 classify) w₁ req).2
          (system (statelessEnv sha256 classify) w₂ req).2 := by
  obtain ⟨call, clock⟩ := req
  have hstart : OneFor x (w₁.during clock) (w₂.during clock) :=
    ⟨h.registry, h.events, h.triage, h.clarifications⟩
  by_cases hmessage : ∃ m, call = .message m
  · obtain ⟨call, rfl⟩ := hmessage
    obtain rfl : call.message.messageId = x := of_decide_eq_true hreq
    obtain ⟨hreply, hw⟩ := serve_unwinds (oneFor_unwinding call.message) ⟨hstart, rfl⟩
    rw [View.unlabelled_reply, View.unlabelled_reply] at hreply
    exact ⟨hreply, hw.1⟩
  · obtain ⟨hreply, hw⟩ := (oneFor_registry x).perform rfl ⟨hstart, rfl⟩ fun m hm => hmessage ⟨m, hm⟩
    exact ⟨hreply, hw.1⟩

/-! ## Runs -/

/-- Two runs of the system are one to message `x`: its calls are answered alike, and leave the same behind. -/
structure SameRunsFor (env : Env) (x : MessageId) (w₁ w₂ : World) (reqs₁ reqs₂ : List Request) : Prop where
  replies : Machine.outputsOf (system env) (Concerns x) w₁ reqs₁
    = Machine.outputsOf (system env) (Concerns x) w₂ reqs₂
  registry : (Machine.run (system env) w₁ reqs₁).registry = (Machine.run (system env) w₂ reqs₂).registry
  events : eventsOf x (Machine.run (system env) w₁ reqs₁) = eventsOf x (Machine.run (system env) w₂ reqs₂)
  triage : itemsOf x (Machine.run (system env) w₁ reqs₁) = itemsOf x (Machine.run (system env) w₂ reqs₂)
  clarifications : tasksOf x (Machine.run (system env) w₁ reqs₁) = tasksOf x (Machine.run (system env) w₂ reqs₂)

theorem SameRunsFor.symm {env : Env} {x : MessageId} {w₁ w₂ : World} {reqs₁ reqs₂ : List Request}
    (h : SameRunsFor env x w₁ w₂ reqs₁ reqs₂) : SameRunsFor env x w₂ w₁ reqs₂ reqs₁ :=
  ⟨h.replies.symm, h.registry.symm, h.events.symm, h.triage.symm, h.clarifications.symm⟩

theorem SameRunsFor.trans {env : Env} {x : MessageId} {w₁ w₂ w₃ : World} {reqs₁ reqs₂ reqs₃ : List Request}
    (h : SameRunsFor env x w₁ w₂ reqs₁ reqs₂) (h' : SameRunsFor env x w₂ w₃ reqs₂ reqs₃) :
    SameRunsFor env x w₁ w₃ reqs₁ reqs₃ :=
  ⟨h.replies.trans h'.replies, h.registry.trans h'.registry, h.events.trans h'.events,
    h.triage.trans h'.triage, h.clarifications.trans h'.clarifications⟩

/-- **A run and its projection.** -/
theorem sameRunsFor_filter (registry : CaseRegistry) (ids₁ ids₂ : Stream' PyStr) (reqs : List Request)
    (x : MessageId) :
    SameRunsFor (statelessEnv sha256 classify) x (World.init registry ids₁) (World.init registry ids₂) reqs
      (reqs.filter (Concerns x)) := by
  have hinit : OneFor x (World.init registry ids₁) (World.init registry ids₂) := ⟨rfl, rfl, rfl, rfl⟩
  have hdropped : ∀ w₁ w₂ req, Concerns x req = false → OneFor x w₁ w₂ →
      OneFor x (system (statelessEnv sha256 classify) w₁ req).2 w₂ := by
    intro w₁ w₂ req hreq h
    obtain ⟨call, clock⟩ := req
    have hstart : OneFor x (w₁.during clock) w₂ := ⟨h.registry, h.events, h.triage, h.clarifications⟩
    cases call with
    | message call => exact hstart.foreign _ (of_decide_eq_false hreq)
    | registerCase => cases hreq
    | registry => cases hreq
  obtain ⟨hreplies, hw⟩ := Machine.run_projected (fun _ _ _ hreq h => OneFor.step h hreq) hdropped hinit reqs
  exact ⟨hreplies, hw.registry, hw.events, by rw [itemsOf_eq, itemsOf_eq, hw.triage],
    by rw [tasksOf_eq, tasksOf_eq, hw.clarifications]⟩

/-- Neighbouring calls for different messages can change places under every projection. -/
theorem filter_swap {a b : Request} {ca cb : MessageCall} (ha : a.call = .message ca) (hb : b.call = .message cb)
    (hab : ca.message.messageId ≠ cb.message.messageId) (pre post : List Request) (x : MessageId) :
    (pre ++ b :: a :: post).filter (Concerns x) = (pre ++ a :: b :: post).filter (Concerns x) := by
  have hca : Concerns x a = Decidable.decide (ca.message.messageId = x) := by rw [Concerns, ha]
  have hcb : Concerns x b = Decidable.decide (cb.message.messageId = x) := by rw [Concerns, hb]
  rw [List.filter_append, List.filter_append, List.filter_cons, List.filter_cons, List.filter_cons,
    List.filter_cons, hca, hcb]
  by_cases hxa : ca.message.messageId = x
  · have hxb : cb.message.messageId ≠ x := fun hxb => hab (hxa.trans hxb.symm)
    simp [hxa, hxb]
  · simp [hxa]

/--
**Messages do not interfere.**

Take any run over a classifier that answers by the projection alone. For every
message, the answers to its calls, its audit events and its entries in the queues
are, up to generated ids and sequence numbers, those of the run of its calls
alone; registry changes are part of both runs. Only the order of the calls for
one message matters, so calls for different messages commute.
-/
theorem messages_do_not_interfere (sha256 : ByteArray → String)
    (classify : MessageProjection → Option ClassificationProposal) (registry : CaseRegistry)
    (ids₁ ids₂ : Stream' PyStr) (reqs : List Request) :
    let env := statelessEnv sha256 classify
    let w₁ := World.init registry ids₁
    let w₂ := World.init registry ids₂
    (∀ x, SameRunsFor env x w₁ w₂ reqs (reqs.filter (Concerns x)))
      ∧ (∀ reqs', (∀ x, reqs'.filter (Concerns x) = reqs.filter (Concerns x)) →
        ∀ x, SameRunsFor env x w₁ w₂ reqs reqs')
      ∧ ∀ pre a b post ca cb, reqs = pre ++ a :: b :: post → a.call = .message ca → b.call = .message cb →
        ca.message.messageId ≠ cb.message.messageId →
        ∀ x, SameRunsFor env x w₁ w₂ reqs (pre ++ b :: a :: post) := by
  intro env w₁ w₂
  have hfilter : ∀ ids ids' reqs x,
      SameRunsFor env x (World.init registry ids) (World.init registry ids') reqs (reqs.filter (Concerns x)) :=
    sameRunsFor_filter registry
  have hshuffle : ∀ reqs', (∀ x, reqs'.filter (Concerns x) = reqs.filter (Concerns x)) →
      ∀ x, SameRunsFor env x w₁ w₂ reqs reqs' := by
    intro reqs' hsame x
    have halone := hfilter ids₂ ids₂ reqs' x
    rw [hsame x] at halone
    exact (hfilter ids₁ ids₂ reqs x).trans halone.symm
  refine ⟨hfilter ids₁ ids₂ reqs, hshuffle, ?_⟩
  intro pre a b post ca cb hreqs ha hb hab
  exact hshuffle _ fun x => hreqs ▸ filter_swap ha hb hab pre post x

end Intake.Proof
