import Intake.Proof.Grammar

/-!
# After the confirmation

A confirmation closes its message: `confirm` looks for it first and from then on
only answers. `propose` does not look for it. It looks for a proposal and for an
intake decision, and where a message was confirmed without either, it starts over:
the classifier is asked, or the message triaged, after the final outcome.

So a confirmation is final exactly if one of those two events was there with it.
-/

namespace Intake.Proof

open IntakeService ClassificationService EventLog

/-! ## Calls that write nothing -/

/-- A `confirm` of a confirmed message has no effect. -/
theorem Served.confirm_silent {env : Env} {w : World} {m : IntakeMessage} {d : HumanDecision} {reply : Reply}
    {f : Effect} (h : Served env w (.confirm m d) reply f) {e : AuditEvent}
    (he : w.eventFor m.messageId .classificationConfirmed = some e) : f = {} := by
  cases h with
  | confirmReplayed => rfl
  | confirmConflict => rfl
  | confirmed hnone => exact absurd (hnone.symm.trans he) (by simp)

/-- The message was proposed, or decided at ingress: what keeps `propose` from starting. -/
def Entered (w : World) (x : MessageId) : Prop :=
  (∃ e, w.eventFor x .classificationProposed = some e) ∨ ∃ e, w.decisionFor x = some e

theorem not_entered {w : World} {x : MessageId} :
    ¬ Entered w x ↔ w.eventFor x .classificationProposed = none ∧ w.decisionFor x = none := by
  rw [Entered, not_or, ← Option.isSome_iff_exists, ← Option.isSome_iff_exists, Option.not_isSome_iff_eq_none,
    Option.not_isSome_iff_eq_none]

/-- A `propose` of an entered message has no effect. -/
theorem Served.propose_silent {env : Env} {w : World} {m : IntakeMessage} {text : PyStr} {reply : Reply}
    {f : Effect} (h : Served env w (.propose m text) reply f) (hentered : Entered w m.messageId) : f = {} := by
  cases h with
  | proposeReplayed => rfl
  | proposeAfterIntake => rfl
  | proposeDenied hp hi => exact absurd hentered (not_entered.mpr ⟨hp, hi⟩)
  | proposeAsked hp hi => exact absurd hentered (not_entered.mpr ⟨hp, hi⟩)

/-- Once entered, always entered. -/
theorem entered_run {env : Env} {w : World} {x : MessageId} (h : Entered w x) (reqs : List Request) :
    Entered (Machine.run (system env) w reqs) x := by
  rcases h with ⟨e, he⟩ | ⟨e, he⟩
  · exact Or.inl ⟨e, eventFor_run (Or.inr (Or.inl rfl)) he reqs⟩
  · exact Or.inr ⟨e, eventFor_run (Or.inl rfl) he reqs⟩

/-! ## Finality -/

/-- Nothing was logged or queued for message `x`, and the classifier was not shown it. -/
structure Untouched (x : MessageId) (w w' : World) : Prop where
  audit : (w'.audit.filter fun e => e.messageId = some x) = w.audit.filter fun e => e.messageId = some x
  triage : (w'.triage.items.filter fun item => item.messageId = x)
    = w.triage.items.filter fun item => item.messageId = x
  clarifications : (w'.clarifications.items.filter fun task => task.messageId = x)
    = w.clarifications.items.filter fun task => task.messageId = x
  classified : (w'.classified.filter fun shown => shown.messageId = x)
    = w.classified.filter fun shown => shown.messageId = x

theorem untouched_of_applied {w w' : World} (h : Applied w {} w') (x : MessageId) : Untouched x w w' := by
  obtain ⟨es, hes, hmap⟩ := h.appended
  rw [List.map_eq_nil_iff.mp hmap, List.append_nil] at hes
  refine ⟨?_, ?_, ?_, ?_⟩
  · rw [hes]
  · rw [h.triage]; rfl
  · rw [h.clarifications]; rfl
  · rw [h.classified, List.append_nil]

/-- A request that proposes or confirms a message with id `x`. -/
def Reviews (x : MessageId) (req : Request) : Prop :=
  ∃ m, m.messageId = x
    ∧ ((∃ text, req.call = .message (.propose m text)) ∨ ∃ d, req.call = .message (.confirm m d))

/-- A message that claims nothing is shown to the classifier, unless it was entered. -/
theorem propose_shown (env : Env) {w : World} {x : MessageId} (h : ¬ Entered w x) (text : PyStr)
    (clock : Stream' Instant) :
    ∃ shown, shown.messageId = x
      ∧ (system env w ⟨.message (.propose ⟨x, [], [], []⟩ text), clock⟩).2.classified = w.classified ++ [shown] := by
  obtain ⟨f, hs, happ⟩ := system_served env w (.propose ⟨x, [], [], []⟩ text) clock
  rw [happ.classified]
  generalize (system env w ⟨.message (.propose ⟨x, [], [], []⟩ text), clock⟩).1 = reply at hs
  cases hs with
  | proposeReplayed hp => exact absurd (Or.inl ⟨_, hp⟩) h
  | proposeAfterIntake _ hi => exact absurd (Or.inr ⟨_, hi⟩) h
  | proposeDenied _ _ hm => cases hm
  | proposeAsked _ _ _ ask =>
      rw [ask.shown]
      exact ⟨_, rfl, rfl⟩

/--
**When a confirmation is final.**

Take any state in which message `x` is confirmed. Whatever happens, no later call
of `propose` or `confirm` for `x` logs, queues or classifies anything for it,
exactly if `x` has a proposal or an intake decision besides.
-/
theorem confirmation_final_iff (env : Env) (w : World) (x : MessageId)
    (hconfirmed : ∃ e, w.eventFor x .classificationConfirmed = some e) :
    (∀ more req, Reviews x req →
        Untouched x (Machine.run (system env) w more)
          (system env (Machine.run (system env) w more) req).2)
      ↔ (∃ e, w.eventFor x .classificationProposed = some e)
        ∨ ∃ e, w.eventFor x .intakeDecision = some e := by
  refine ⟨?_, ?_⟩
  · intro hfinal
    by_contra hentered
    -- a proposal right now is one too many
    obtain ⟨shown, hid, hshown⟩ := propose_shown env hentered [] (Stream'.const 0)
    have huntouched := (hfinal [] ⟨.message (.propose ⟨x, [], [], []⟩ []), Stream'.const 0⟩
      ⟨_, rfl, Or.inl ⟨[], rfl⟩⟩).classified
    rw [Machine.run_nil, hshown, List.filter_append] at huntouched
    simp [hid] at huntouched
  · intro hentered more req hreq
    obtain ⟨e, he⟩ := hconfirmed
    have hlater : (Machine.run (system env) w more).eventFor x .classificationConfirmed = some e :=
      eventFor_run (Or.inr (Or.inr rfl)) he more
    have hentered' : Entered (Machine.run (system env) w more) x := entered_run hentered more
    obtain ⟨call, clock⟩ := req
    generalize Machine.run (system env) w more = w' at hlater hentered' ⊢
    obtain ⟨m, rfl, ⟨text, rfl⟩ | ⟨d, rfl⟩⟩ := hreq
    · obtain ⟨f, hs, happ⟩ := system_served env w' (.propose m text) clock
      rw [hs.propose_silent hentered'] at happ
      have huntouched := untouched_of_applied happ m.messageId
      exact ⟨huntouched.audit, huntouched.triage, huntouched.clarifications, huntouched.classified⟩
    · obtain ⟨f, hs, happ⟩ := system_served env w' (.confirm m d) clock
      rw [hs.confirm_silent hlater] at happ
      have huntouched := untouched_of_applied happ m.messageId
      exact ⟨huntouched.audit, huntouched.triage, huntouched.clarifications, huntouched.classified⟩

/-- A message proposed, confirmed and proposed again is left alone. -/
theorem confirmation_final_proposed :
    let m := Sample.message "P" []
    let w := Machine.run (system (Sample.env none)) Sample.world
      [Sample.request (.propose m "text"),
        Sample.request (.confirm m { reviewerId := "R1", confirmedClass := some .response })]
    ∀ more req, Reviews "M1" req →
      Untouched "M1" (Machine.run (system (Sample.env none)) w more)
        (system (Sample.env none) (Machine.run (system (Sample.env none)) w more) req).2 :=
  (confirmation_final_iff (Sample.env none) _ "M1" ⟨_, rfl⟩).mpr (Or.inl ⟨_, rfl⟩)

/-- A message confirmed without a proposal is classified afterwards, and queued for triage. -/
theorem confirmation_not_final :
    let m := Sample.message "P" []
    let confirmed := system (Sample.env none) Sample.world
      (Sample.request (.confirm m { reviewerId := "R1", confirmedClass := some .response }))
    let proposed := system (Sample.env none) confirmed.2 (Sample.request (.propose m "text"))
    confirmed.1 = .confirmation (.ok ⟨.responseReady, none⟩)
      ∧ (∃ e, confirmed.2.eventFor "M1" .classificationConfirmed = some e)
      ∧ confirmed.2.classified = [] ∧ proposed.2.classified.length = 1
      ∧ confirmed.2.triage.items = [] ∧ proposed.2.triage.items.length = 1
      ∧ confirmed.2.audit.length = 1 ∧ proposed.2.audit.length = 2 :=
  ⟨rfl, ⟨_, rfl⟩, rfl, rfl, rfl, rfl, rfl, rfl⟩

end Intake.Proof
