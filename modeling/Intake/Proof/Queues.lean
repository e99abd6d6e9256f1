import Intake.Proof.WriteOnce

/-!
# The queues mirror the log

Five code paths write the log and the queues, some append first and some enqueue
first, and a queue silently ignores a second item. Seen from the log all of that
is one statement: under every message id each queue holds what the *earliest*
event asking for it asks for.

The statement is local to a call: what a call offers to a queue mirrors what it
appends to the log. `KeyedQueue.Mirrors.append` does the rest.

The last section uses the mirror to decide when `propose` may be believed. It
reports triage for any message with an intake decision, also for one that was
authorised and waits in no queue.
-/

namespace Intake.Proof

open IntakeService ClassificationService EventLog

/-! ## What asks for an item -/

/-- An event that sends message `x` to human triage. -/
def Triages (x : MessageId) (d : AuditDraft) : Bool :=
  (d.action = .intakeDecision || d.action = .classificationProposed
    || d.action = .classificationConfirmed) && d.outcome = .triage && d.messageId = some x

/-- An event that makes message `x` wait for inputs. -/
def Awaits (x : MessageId) (d : AuditDraft) : Bool :=
  d.action = .classificationConfirmed && d.outcome = .awaitingInputs && d.messageId = some x

/-- The item bears the event's reason. A confirmation carries none. -/
def QueuedFor (d : AuditDraft) (item : TriageItem) : Prop :=
  d.action ≠ .classificationConfirmed → d.reason = some item.reason

/-- The task asks for what the event says is missing. -/
def TaskedFor (d : AuditDraft) (task : ClarificationTask) : Prop :=
  ∃ payload, d.classification = some payload ∧ task.subtype = payload.subtype
    ∧ task.missingFields = payload.missingFields

/-- **Queues and log agree.** -/
structure Agree (w : World) : Prop where
  triage : w.triage.Mirrors QueuedFor Triages w.trail
  clarifications : w.clarifications.Mirrors TaskedFor Awaits w.trail

theorem agree_init (registry : CaseRegistry) (ids : Stream' PyStr) : Agree (World.init registry ids) :=
  ⟨KeyedQueue.mirrors_empty _ _, KeyedQueue.mirrors_empty _ _⟩

/-! ## One call -/

/-- Only self-guarding events ask for anything. -/
theorem once_of_triages {x : MessageId} {d : AuditDraft} (h : Triages x d = true) :
    OncePerMessage d.action := by
  simp only [Triages, Bool.and_eq_true, Bool.or_eq_true, decide_eq_true_eq] at h
  exact or_assoc.mp h.1.1

theorem once_of_awaits {x : MessageId} {d : AuditDraft} (h : Awaits x d = true) :
    OncePerMessage d.action := by
  simp only [Awaits, Bool.and_eq_true, decide_eq_true_eq] at h
  exact Or.inr (Or.inr h.1.1)

theorem messageId_of_triages {x : MessageId} {d : AuditDraft} (h : Triages x d = true) :
    d.messageId = some x := by
  simp only [Triages, Bool.and_eq_true, decide_eq_true_eq] at h
  exact h.2

theorem messageId_of_awaits {x : MessageId} {d : AuditDraft} (h : Awaits x d = true) :
    d.messageId = some x := by
  simp only [Awaits, Bool.and_eq_true, decide_eq_true_eq] at h
  exact h.2

/-- Searching the batch of a first confirmation is looking at its last draft. -/
theorem Routed.find?_confirmed {w : World} {r : CaseRegistry} {t : Instant} {m : IntakeMessage}
    {d : HumanDecision} {cid : PyStr} {o : ClassificationOutcome} {c : Option CaseId} {f : Effect}
    (h : Routed r t m d cid o c f) {p : AuditDraft → Bool}
    (hp : ∀ y, p y = true → OncePerMessage y.action) (last : AuditDraft) :
    (corrections w m d cid ++ f.drafts ++ [last]).find? p = [last].find? p := by
  rw [List.find?_append, List.find?_eq_none.mpr fun y hy hpy => h.not_once y hy (hp y hpy),
    Option.none_or]

/-- One draft and one item, for the same message. -/
theorem rel_single {α : Type} {key : α → MessageId} {R : AuditDraft → α → Prop} {p : AuditDraft → Bool}
    {d : AuditDraft} {a : α} {x : MessageId} (hp : p d = true ↔ key a = x) (hR : p d = true → R d a) :
    Option.Rel R ([d].find? p) ([a].find? fun a => Decidable.decide (key a = x)) := by
  rw [List.find?_singleton, List.find?_singleton, Bool.eq_iff_iff.mpr (hp.trans decide_eq_true_iff.symm)]
  split_ifs with h
  · exact Option.Rel.some (hR (hp.mpr (of_decide_eq_true h)))
  · exact Option.Rel.none

/-- A draft that asks for nothing, and nothing queued. -/
theorem rel_silent {α : Type} {R : AuditDraft → α → Prop} {p : AuditDraft → Bool} {q : α → Bool}
    {d : AuditDraft} (hp : p d = false) : Option.Rel R ([d].find? p) (([] : List α).find? q) := by
  rw [List.find?_singleton, hp]
  exact Option.Rel.none

/-- What a route queues is what the outcome it ends in asks for. -/
theorem Routed.triages {r : CaseRegistry} {t : Instant} {m : IntakeMessage} {d : HumanDecision}
    {cid : PyStr} {o : ClassificationOutcome} {c : Option CaseId} {f : Effect}
    (h : Routed r t m d cid o c f) (x : MessageId) :
    Option.Rel QueuedFor ([confirmationDraft m d o cid].find? (Triages x))
      (f.queued.find? fun item => Decidable.decide (item.messageId = x)) := by
  cases h with
  | flagged | noCase | denied =>
      exact rel_single (by simp [Triages, confirmationDraft, reviewDraft, triageItem])
        (fun _ hne => absurd rfl hne)
  | response | awaiting | ready | authorised =>
      exact rel_silent (by simp [Triages, confirmationDraft, reviewDraft, ClassificationOutcome.value])

theorem Routed.awaits {r : CaseRegistry} {t : Instant} {m : IntakeMessage} {d : HumanDecision}
    {cid : PyStr} {o : ClassificationOutcome} {c : Option CaseId} {f : Effect}
    (h : Routed r t m d cid o c f) (x : MessageId) :
    Option.Rel TaskedFor ([confirmationDraft m d o cid].find? (Awaits x))
      (f.tasked.find? fun task => Decidable.decide (task.messageId = x)) := by
  cases h with
  | awaiting =>
      exact rel_single (by simp [Awaits, confirmationDraft, reviewDraft, ClassificationOutcome.value])
        (fun _ => ⟨_, rfl, rfl, rfl⟩)
  | _ =>
      exact rel_silent (by simp [Awaits, confirmationDraft, reviewDraft, ClassificationOutcome.value])

/-- **A call queues for triage what it logs as triaged**, in whichever order it does the two. -/
theorem Served.triages {env : Env} {w : World} {call : MessageCall} {reply : Reply} {f : Effect}
    (h : Served env w call reply f) (x : MessageId) :
    Option.Rel QueuedFor (f.drafts.find? (Triages x))
      (f.queued.find? fun item => Decidable.decide (item.messageId = x)) := by
  cases h with
  | intakeReplayed | proposeReplayed | proposeAfterIntake | confirmReplayed | confirmConflict =>
      exact Option.Rel.none
  | intakeAuthorised =>
      exact rel_silent (by simp [Triages, intakeDecisionDraft, granted, DecisionKind.value])
  | intakeTriaged | proposeDenied =>
      exact rel_single (by simp [Triages, intakeDecisionDraft, triageItem, deny]) (fun _ _ => rfl)
  | proposeAsked _ _ _ ask =>
      cases ask with
      | failed | flagged =>
          exact rel_single (by simp [Triages, proposalDraft, triageItem]) (fun _ _ => rfl)
      | pending => exact rel_silent (by simp [Triages, proposalDraft])
  | confirmed _ _ hr =>
      rw [hr.find?_confirmed fun _ => once_of_triages]
      exact hr.triages x

/-- **A call asks for inputs when it logs that it awaits them.** -/
theorem Served.awaits {env : Env} {w : World} {call : MessageCall} {reply : Reply} {f : Effect}
    (h : Served env w call reply f) (x : MessageId) :
    Option.Rel TaskedFor (f.drafts.find? (Awaits x))
      (f.tasked.find? fun task => Decidable.decide (task.messageId = x)) := by
  cases h with
  | intakeReplayed | proposeReplayed | proposeAfterIntake | confirmReplayed | confirmConflict =>
      exact Option.Rel.none
  | intakeAuthorised | intakeTriaged | proposeDenied =>
      exact rel_silent (by simp [Awaits, intakeDecisionDraft])
  | proposeAsked _ _ _ ask =>
      cases ask with
      | _ => exact rel_silent (by simp [Awaits, proposalDraft])
  | confirmed _ _ hr =>
      rw [hr.find?_confirmed fun _ => once_of_awaits]
      exact hr.awaits x

/-! ## Every reachable state -/

/-- Registry calls ask for nothing. -/
theorem registered_find? {f : Effect}
    (h : ∀ d ∈ f.drafts, d.action = .caseRegistered ∧ d.messageId = none) {p : AuditDraft → Bool}
    (hp : ∀ y, p y = true → OncePerMessage y.action) : f.drafts.find? p = none := by
  rw [List.find?_eq_none]
  intro d hd hpd
  rcases hp d hpd with ha | ha | ha <;> exact absurd ((h d hd).1.symm.trans ha) (by simp)

/-- **`Agree` is preserved by every step.** -/
theorem agree_step {env : Env} (w : World) (req : Request) (h : Agree w) : Agree (system env w req).2 := by
  rcases system_step env w req with ⟨call, f, _, hs, happ⟩ | ⟨r, f, hreg, hqueued, htasked, _, happ⟩
  · -- a message call offers what its own batch asks for
    refine ⟨?_, ?_⟩
    · rw [happ.trail, happ.triage]
      exact h.triage.append hs.triages
    · rw [happ.trail, happ.clarifications]
      exact h.clarifications.append hs.awaits
  · refine ⟨?_, ?_⟩
    · rw [happ.trail, happ.triage, hqueued]
      refine h.triage.append fun x => ?_
      rw [registered_find? hreg fun _ => once_of_triages]
      exact Option.Rel.none
    · rw [happ.trail, happ.clarifications, htasked]
      refine h.clarifications.append fun x => ?_
      rw [registered_find? hreg fun _ => once_of_awaits]
      exact Option.Rel.none

theorem agree_reachable {env : Env} {w : World} (h : Reachable env w) : Agree w :=
  h.invariant agree_init agree_step

/-! ## What the queues hold -/

theorem find?_trail (w : World) (p : AuditDraft → Bool) :
    w.trail.find? p = (w.audit.find? fun e => p e.toAuditDraft).map AuditEvent.toAuditDraft :=
  List.find?_map

/--
**Queues and log always agree.**

A message waits for triage exactly if the log triaged it: once, for the reason of
the earliest event. It waits for inputs exactly if a confirmation says so: once,
for the inputs the confirmation names.
-/
theorem queues_agree {env : Env} {w : World} (h : Reachable env w) (x : MessageId) :
    ((∃ e ∈ w.audit, Triages x e.toAuditDraft) →
        ∃ item, w.triage.items.filter (fun item => item.messageId = x) = [item])
      ∧ ((¬ ∃ e ∈ w.audit, Triages x e.toAuditDraft) →
        w.triage.items.filter (fun item => item.messageId = x) = [])
      ∧ (∀ e, w.audit.find? (fun e => Triages x e.toAuditDraft) = some e →
        e.action = .intakeDecision ∨ e.action = .classificationProposed →
        ∃ item, w.triage.items.filter (fun item => item.messageId = x) = [item]
          ∧ e.reason = some item.reason)
      ∧ (∀ e ∈ w.audit, Awaits x e.toAuditDraft →
        ∃ task payload, w.clarifications.items.filter (fun task => task.messageId = x) = [task]
          ∧ e.classification = some payload ∧ task.subtype = payload.subtype
          ∧ task.missingFields = payload.missingFields)
      ∧ ((¬ ∃ e ∈ w.audit, Awaits x e.toAuditDraft) →
        w.clarifications.items.filter (fun task => task.messageId = x) = []) := by
  have hagree := agree_reachable h
  have hfirst : ∀ e, w.audit.find? (fun e => Triages x e.toAuditDraft) = some e →
      ∃ item, w.triage.items.filter (fun item => item.messageId = x) = [item]
        ∧ QueuedFor e.toAuditDraft item := fun e he =>
    hagree.triage.filter_eq_singleton (by rw [find?_trail, he]; rfl)
  refine ⟨?_, ?_, ?_, ?_, ?_⟩
  · intro hex
    obtain ⟨e, he⟩ := Option.isSome_iff_exists.mp (List.find?_isSome.mpr hex)
    obtain ⟨item, hitem, _⟩ := hfirst e he
    exact ⟨item, hitem⟩
  · intro hno
    refine hagree.triage.filter_eq_nil ?_
    rw [find?_trail, List.find?_eq_none.mpr fun e he ht => hno ⟨e, he, ht⟩, Option.map_none]
  · intro e he haction
    obtain ⟨item, hitem, hqueued⟩ := hfirst e he
    refine ⟨item, hitem, hqueued fun hc => ?_⟩
    rw [hc] at haction
    simp at haction
  · intro e he hawaits
    -- there is only one confirmation, so any that awaits inputs is the earliest
    have honce := writeOnce_reachable h x .classificationConfirmed (Or.inr (Or.inr rfl))
    have hfind : w.trail.find? (Awaits x) = some e.toAuditDraft := by
      refine honce.find?_eq (fun d hd => ?_) (List.mem_map_of_mem he) hawaits
      simp only [Awaits, Bool.and_eq_true, decide_eq_true_eq] at hd
      exact AuditDraft.isFor_iff.mpr ⟨hd.1.1, hd.2⟩
    obtain ⟨task, htask, payload, hp⟩ := hagree.clarifications.filter_eq_singleton hfind
    exact ⟨task, payload, htask, hp⟩
  · intro hno
    refine hagree.clarifications.filter_eq_nil ?_
    rw [find?_trail, List.find?_eq_none.mpr fun e he ht => hno ⟨e, he, ht⟩, Option.map_none]

/-- A message whose classification failed waits for triage, and for nothing else. -/
theorem queues_agree_failed :
    let w := Machine.run (system (Sample.env none)) Sample.world
      [Sample.request (.propose (Sample.message "P" []) "text")]
    (∃ item, w.triage.items.filter (fun item => item.messageId = ("M1" : PyStr)) = [item])
      ∧ w.clarifications.items.filter (fun task => task.messageId = ("M1" : PyStr)) = [] := by
  intro w
  have hagree := queues_agree (w := w) ⟨Sample.registry, Sample.ids, _, rfl⟩ "M1"
  refine ⟨hagree.1 ⟨_, List.mem_singleton_self _, rfl⟩, hagree.2.2.2.2 ?_⟩
  intro h
  obtain ⟨e, he, hawaits⟩ := h
  rw [List.mem_singleton.mp he] at hawaits
  exact absurd hawaits (by decide)

/-! ## When `propose` may be believed -/

/-- Every recorded proposal is either pending, with its payload, or a triage. -/
theorem proposed_reachable {env : Env} {w : World} (h : Reachable env w) :
    ∀ d ∈ w.trail, d.action = .classificationProposed →
      d.outcome = .triage ∨ (d.outcome = .pending ∧ d.classification.isSome) := by
  refine h.trail_forall (fun m d hd ha => ?_) (fun d hd _ ha => absurd (hd.symm.trans ha) (by simp))
  cases hd with
  | escalated => exact Or.inl rfl
  | pending => exact Or.inr ⟨rfl, rfl⟩
  | _ => cases ha

/-- Every intake decision authorises or triages. -/
theorem decided_reachable {env : Env} {w : World} (h : Reachable env w) :
    ∀ d ∈ w.trail, d.action = .intakeDecision → d.outcome = .authorised ∨ d.outcome = .triage := by
  refine h.trail_forall (fun m d hd ha => ?_) (fun d hd _ ha => absurd (hd.symm.trans ha) (by simp))
  cases hd with
  | granted => exact Or.inl rfl
  | refused => exact Or.inr rfl
  | _ => cases ha

/-- **What a reported triage rests on**: a triaging event, or an intake decision of whatever outcome. -/
theorem propose_triaged {env : Env} {w : World} (h : Reachable env w) {clock : Stream' Instant}
    {m : IntakeMessage} {text : PyStr} {r : ProposalResult} {f : Effect}
    (hs : Served env (w.during clock) (.propose m text) (.proposal r) f) (hr : r.triaged = true) :
    (∃ d ∈ w.trail ++ f.drafts, Triages m.messageId d = true)
      ∨ (w.eventFor m.messageId .classificationProposed = none ∧ f = {}
        ∧ ∃ e, w.decisionFor m.messageId = some e ∧ e.outcome = .authorised) := by
  cases hs with
  | @proposeReplayed _ _ proposed hp =>
      -- a replayed proposal reports triage only if it was one
      have hmem := mem_of_latest (World.latest_of_eventFor hp)
      obtain ⟨haction, hid⟩ := AuditDraft.isFor_iff.mp (prop_of_latest (World.latest_of_eventFor hp))
      refine Or.inl ⟨_, List.mem_append_left _ hmem, ?_⟩
      rcases proposed_reachable h _ hmem haction with ht | ⟨hpending, hpayload⟩
      · simp [Triages, haction, ht, hid]
      · obtain ⟨payload, hpayload⟩ := Option.isSome_iff_exists.mp hpayload
        rw [proposalFromEvent, hpending, hpayload] at hr
        exact absurd hr Bool.false_ne_true
  | @proposeAfterIntake _ _ prior hp hi =>
      have hmem := mem_of_latest (World.latest_of_eventFor hi)
      obtain ⟨haction, hid⟩ := AuditDraft.isFor_iff.mp (prop_of_latest (World.latest_of_eventFor hi))
      rcases decided_reachable h _ hmem haction with ha | ht
      · exact Or.inr ⟨hp, rfl, prior, hi, ha⟩
      · exact Or.inl ⟨_, List.mem_append_left _ hmem, by simp [Triages, haction, ht, hid]⟩
  | proposeDenied =>
      exact Or.inl ⟨_, List.mem_append_right _ (List.mem_singleton_self _),
        by simp [Triages, intakeDecisionDraft, deny]⟩
  | proposeAsked _ _ _ ask =>
      cases ask with
      | failed | flagged =>
          exact Or.inl ⟨_, List.mem_append_right _ (List.mem_singleton_self _),
            by simp [Triages, proposalDraft]⟩
      | pending => exact absurd hr Bool.false_ne_true

/--
The message was authorised at ingress, never proposed, and no confirmation sent
it to triage: no human is waiting for it.
-/
def AuthorisedUnattended (w : World) (x : MessageId) : Prop :=
  w.eventFor x .classificationProposed = none
    ∧ (∃ e, w.decisionFor x = some e ∧ e.outcome = .authorised)
    ∧ ¬ ∃ e, w.eventFor x .classificationConfirmed = some e ∧ e.outcome = .triage

/-- With its one intake decision authorised and no proposal, only a confirmation can triage a message. -/
theorem authorisedUnattended_iff {env : Env} {w : World} (h : Reachable env w) {x : MessageId}
    (hp : w.eventFor x .classificationProposed = none)
    (hi : ∃ e, w.decisionFor x = some e ∧ e.outcome = .authorised) :
    AuthorisedUnattended w x ↔ w.triage.has x = false := by
  rw [← Bool.not_eq_true, (agree_reachable h).triage.has_iff]
  refine ⟨?_, ?_⟩
  · -- a triaging event would be the intake decision, a proposal or the confirmation; it is none of them
    intro hunattended htriages
    obtain ⟨_, _, hc⟩ := hunattended
    obtain ⟨d, hd, ht⟩ := htriages
    simp only [Triages, Bool.and_eq_true, Bool.or_eq_true, decide_eq_true_eq] at ht
    obtain ⟨⟨(haction | haction) | haction, hout⟩, hid⟩ := ht
    · obtain ⟨e, he, hauth⟩ := hi
      have honce := writeOnce_reachable h x .intakeDecision (Or.inl rfl)
      have heq := honce.latest_eq hd (AuditDraft.isFor_iff.mpr ⟨haction, hid⟩)
      rw [World.latest_of_eventFor he, Option.some.injEq] at heq
      rw [heq, hout] at hauth
      exact absurd hauth (by simp)
    · rw [World.eventFor_eq_none, latest_eq_none] at hp
      exact absurd (AuditDraft.isFor_iff.mpr ⟨haction, hid⟩) (by simp [hp d hd])
    · have honce := writeOnce_reachable h x .classificationConfirmed (Or.inr (Or.inr rfl))
      have heq := honce.latest_eq hd (AuditDraft.isFor_iff.mpr ⟨haction, hid⟩)
      rw [← World.eventFor_trail, Option.map_eq_some_iff] at heq
      obtain ⟨e, he, rfl⟩ := heq
      exact hc ⟨e, he, hout⟩
  · intro hno
    refine ⟨hp, hi, ?_⟩
    intro hc
    obtain ⟨e, he, hout⟩ := hc
    have hlatest := World.latest_of_eventFor he
    obtain ⟨haction, hid⟩ := AuditDraft.isFor_iff.mp (prop_of_latest hlatest)
    exact hno ⟨_, mem_of_latest hlatest, by simp [Triages, haction, hout, hid]⟩

/--
**When a reported triage is a queued one.**

In every reachable state, for every message: a `propose` that reports triage
leaves an item in the triage queue, unless the message was authorised at ingress
and nothing else ever happened to it.
-/
theorem propose_triaged_iff {env : Env} {w : World} (h : Reachable env w) (m : IntakeMessage)
    (text : PyStr) (clock : Stream' Instant) :
    let call := system env w ⟨.message (.propose m text), clock⟩
    (∀ r, call.1 = .proposal r → r.triaged = true →
        ∃ item ∈ call.2.triage.items, item.messageId = m.messageId)
      ↔ ¬ AuthorisedUnattended w m.messageId := by
  intro call
  have hsame : ∀ e, w.eventFor m.messageId .classificationProposed = none →
      w.decisionFor m.messageId = some e → call = (.proposal ⟨none, true⟩, w.during clock) := by
    intro e hp hi
    show perform env (w.during clock) _ = _
    simp only [perform, serve, propose,
      show (w.during clock).eventFor m.messageId .classificationProposed = none from hp,
      show (w.during clock).eventFor m.messageId .intakeDecision = some e from hi]
  simp only [← KeyedQueue.has_iff_mem]
  refine ⟨?_, ?_⟩
  · intro hall hun
    obtain ⟨hp, ⟨e, hi, ha⟩, _⟩ := id hun
    have hhas := hall _ (by rw [hsame e hp hi]) rfl
    rw [hsame e hp hi] at hhas
    have hnot := (authorisedUnattended_iff h hp ⟨e, hi, ha⟩).mp hun
    exact absurd (hnot.symm.trans hhas) (by simp)
  · intro hun r hreply hr
    obtain ⟨f, hs, happ⟩ : ∃ f, Served env (w.during clock) (.propose m text) call.1 f
        ∧ Applied (w.during clock) f call.2 := system_served env w (.propose m text) clock
    have hagree : Agree call.2 := agree_reachable (h.step _)
    rw [hreply] at hs
    rcases propose_triaged h hs hr with htriages | ⟨hp, _, e, hi, ha⟩
    · rw [hagree.triage.has_iff, happ.trail]
      exact htriages
    · rw [hsame e hp hi]
      exact Bool.eq_true_of_not_eq_false fun hno =>
        hun ((authorisedUnattended_iff h hp ⟨e, hi, ha⟩).mpr hno)

/-- A failed classification is reported as a triage, and queued. -/
theorem propose_triaged_failed :
    let call := system (Sample.env none) Sample.world
      (Sample.request (.propose (Sample.message "P" []) "text"))
    ∀ r, call.1 = .proposal r → r.triaged = true →
      ∃ item ∈ call.2.triage.items, item.messageId = (Sample.message "P" []).messageId :=
  (propose_triaged_iff ⟨Sample.registry, Sample.ids, [], rfl⟩ (Sample.message "P" []) "text" _).mpr
    (by rintro ⟨_, ⟨e, he, _⟩, _⟩; cases he)

/-- An authorised message is reported as triaged by `propose`, and waits in no queue. -/
theorem propose_triaged_unqueued :
    let m := Sample.message "P" ["CASE-1"]
    let intake := system (Sample.env none) Sample.world (Sample.request (.handleIntake m))
    let call := system (Sample.env none) intake.2 (Sample.request (.propose m "text"))
    intake.1 = .intake (.ok (granted "CASE-1"))
      ∧ call.1 = .proposal ⟨none, true⟩ ∧ call.2.triage.items = [] :=
  ⟨rfl, rfl, rfl⟩

end Intake.Proof
