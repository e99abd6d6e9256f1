import Intake.Proof.WriteOnce

/-!
# Confirming a second time

The first decision of a reviewer is not stored. A second `confirm` compares the
signature of the decision it is given with the signature of the *event* the first
one left, and the two signatures agree on every field but one: the triage flag of
the event is read off the routed outcome, not off the decision.

`eventSignature_of_confirmation` says exactly what is recovered, and both results
of this module fall out of it: an identical decision is replayed, and a different
one rejected, unless the route turned the first decision into a triage the
reviewer did not ask for.
-/

namespace Intake.Proof

open IntakeService ClassificationService EventLog

/-! ## What a confirmation event remembers -/

theorem decisionSignature_inj {d d' : HumanDecision} :
    decisionSignature d = decisionSignature d' ↔ d = d' := by
  refine ⟨?_, ?_⟩
  · intro h
    obtain ⟨h1, h2, h3, h4, h5, h6⟩ := Signature.mk.inj h
    cases d; cases d'
    simp_all
  · rintro rfl; rfl

/-- **The event remembers the decision, with the outcome in place of the triage flag.** -/
theorem eventSignature_of_confirmation {m : IntakeMessage} {d : HumanDecision}
    {o : ClassificationOutcome} {cid : PyStr} {e : AuditEvent}
    (h : e.toAuditDraft = confirmationDraft m d o cid) :
    eventSignature e = decisionSignature { d with triage := decide (o = .triage) } := by
  simp [eventSignature, decisionSignature, h, confirmationDraft, reviewDraft, decisionPayload]

/--
The decision can be routed as the reviewer asked: it names a class, and a
follow-up selects a case the gate lets its sender attach to.
-/
def Routable (r : CaseRegistry) (t : Instant) (m : IntakeMessage) (d : HumanDecision) : Prop :=
  match d.confirmedClass with
  | none => False
  | some .existingFollowup =>
      ∃ c, d.selectedCaseId = some c ∧ (authorise r m.principalId c t).kind = .authorised
  | some _ => True

/-- A decision ends in triage when it asks for it, or when it cannot be routed. -/
theorem Routed.triage_iff {r : CaseRegistry} {t : Instant} {m : IntakeMessage} {d : HumanDecision}
    {cid : PyStr} {o : ClassificationOutcome} {c : Option CaseId} {f : Effect}
    (h : Routed r t m d cid o c f) : o = .triage ↔ d.triage = true ∨ ¬ Routable r t m d := by
  cases h with
  | flagged h =>
      refine iff_of_true rfl (h.imp id fun hc => ?_)
      simp [Routable, hc]
  | response ht hc => simp [Routable, ht, hc]
  | awaiting ht hc _ => simp [Routable, ht, hc]
  | ready ht hc _ => simp [Routable, ht, hc]
  | noCase ht hc hs => simp [Routable, hc, hs]
  | authorised ht hc hs hg => simp [Routable, ht, hc, hs, hg]
  | denied ht hc hs hg => simp [Routable, hc, hs, hg, deny]

/-- The flag the event remembers is the reviewer's, unless the route made a triage of its own. -/
theorem Routed.flag_eq_iff {r : CaseRegistry} {t : Instant} {m : IntakeMessage} {d : HumanDecision}
    {cid : PyStr} {o : ClassificationOutcome} {c : Option CaseId} {f : Effect}
    (h : Routed r t m d cid o c f) :
    Decidable.decide (o = .triage) = d.triage ↔ d.triage = true ∨ Routable r t m d := by
  have htriage := h.triage_iff
  cases hd : d.triage with
  | true => simp [htriage.mpr (Or.inl hd)]
  | false =>
      rw [hd] at htriage
      simp [htriage]

/-- The case id of a result is the selected case, for an authorised follow-up only. -/
theorem Routed.caseId_eq {r : CaseRegistry} {t : Instant} {m : IntakeMessage} {d : HumanDecision}
    {cid : PyStr} {o : ClassificationOutcome} {c : Option CaseId} {f : Effect}
    (h : Routed r t m d cid o c f) : c = if o = .followupAuthorised then d.selectedCaseId else none := by
  cases h with
  | authorised _ _ hs _ => rw [if_pos rfl, hs]
  | _ => rfl

/-- What a replay reads back is what the first call returned. -/
theorem confirmFromEvent_of_confirmation {r : CaseRegistry} {t : Instant} {m : IntakeMessage}
    {d : HumanDecision} {cid : PyStr} {o : ClassificationOutcome} {c : Option CaseId} {f : Effect}
    (h : Routed r t m d cid o c f) {e : AuditEvent} (he : e.toAuditDraft = confirmationDraft m d o cid) :
    confirmFromEvent e = .ok ⟨o, c⟩ := by
  have hout : e.outcome = o.value := by rw [he]; rfl
  have hcase : e.caseId = d.selectedCaseId := by rw [he]; rfl
  rw [confirmFromEvent, hout, ClassificationOutcome.ofValue_value, hcase, h.caseId_eq]

/-! ## The first confirmation and the second -/

/-- Appending a draft last makes it what its lookup returns. -/
theorem eventFor_of_last {w w' : World} {f : Effect} (h : Applied w f w') {l : List AuditDraft}
    {d : AuditDraft} (hf : f.drafts = l ++ [d]) {x : MessageId} {a : AuditAction}
    (hd : d.isFor x a = true) : ∃ e, w'.eventFor x a = some e ∧ e.toAuditDraft = d := by
  have hlatest : latest (AuditDraft.isFor x a) w'.trail = some d := by
    rw [h.trail, hf, ← List.append_assoc, latest_append, latest_singleton, if_pos hd]
    rfl
  rw [← World.eventFor_trail] at hlatest
  exact Option.map_eq_some_iff.mp hlatest

/-- **The first confirmation**: how it was routed, what it returned and what it left in the log. -/
theorem confirm_first (env : Env) {w : World} {m : IntakeMessage} (d : HumanDecision)
    (h : w.eventFor m.messageId .classificationConfirmed = none) :
    ∃ o c cid f e, Routed w.registry (gateInstant w m d) m d cid o c f
      ∧ (serve env w (.confirm m d)).1 = .confirmation (.ok ⟨o, c⟩)
      ∧ (serve env w (.confirm m d)).2.eventFor m.messageId .classificationConfirmed = some e
      ∧ e.toAuditDraft = confirmationDraft m d o cid := by
  obtain ⟨f, hs, happ⟩ := serve_served env w (.confirm m d)
  generalize (serve env w (.confirm m d)).1 = reply at hs ⊢
  cases hs with
  | confirmReplayed h' => exact absurd (h.symm.trans h') (by simp)
  | confirmConflict h' => exact absurd (h.symm.trans h') (by simp)
  | @confirmed _ _ cid o c g _ _ hr =>
      obtain ⟨e, he, hdraft⟩ := eventFor_of_last happ rfl
        (show (confirmationDraft m d o cid).isFor m.messageId .classificationConfirmed = true by
          simp [AuditDraft.isFor, confirmationDraft, reviewDraft])
      exact ⟨o, c, cid, g, e, hr, rfl, he, hdraft⟩

/--
**Every later confirmation** answers from the recorded event and changes nothing:
it accepts exactly the recorded decision, with the recorded outcome as its flag.
-/
theorem confirm_again (env : Env) {w : World} {r : CaseRegistry} {t : Instant} {m₁ m : IntakeMessage}
    {d : HumanDecision} {o : ClassificationOutcome} {c : Option CaseId} {cid : PyStr} {f : Effect}
    (hr : Routed r t m₁ d cid o c f) {e : AuditEvent}
    (he : w.eventFor m.messageId .classificationConfirmed = some e)
    (hdraft : e.toAuditDraft = confirmationDraft m₁ d o cid) (d₂ : HumanDecision) :
    serve env w (.confirm m d₂) =
      (.confirmation (if { d with triage := Decidable.decide (o = .triage) } = d₂ then .ok ⟨o, c⟩
        else .error (.conflictingDecision m.messageId)), w) := by
  simp only [serve, confirm, he, eventSignature_of_confirmation hdraft, decisionSignature_inj,
    confirmFromEvent_of_confirmation hr hdraft]
  split_ifs <;> rfl

/-! ## Idempotence -/

theorem withTriage_eq_self {d : HumanDecision} {b : Bool} : { d with triage := b } = d ↔ b = d.triage := by
  cases d
  simp

/--
**When confirming is idempotent.**

Confirm a message for the first time, let anything happen, confirm it again with
the same decision. The second call returns what the first returned and writes
nothing, exactly when the decision asked for triage or could be routed. A decision
that was merely turned into a triage is rejected as conflicting with itself.
-/
theorem confirm_idempotent_iff (env : Env) (w : World) (m : IntakeMessage) (d : HumanDecision)
    (clock clock' : Stream' Instant) (more : List Request)
    (hfirst : w.eventFor m.messageId .classificationConfirmed = none) :
    let first := system env w ⟨.message (.confirm m d), clock⟩
    let later := Machine.run (system env) first.2 more
    let again := system env later ⟨.message (.confirm m d), clock'⟩
    (∃ r, first.1 = .confirmation (.ok r) ∧ again.1 = .confirmation (.ok r)
        ∧ again.2.audit = later.audit ∧ again.2.triage = later.triage
        ∧ again.2.clarifications = later.clarifications)
      ↔ d.triage = true
        ∨ Routable w.registry (gateInstant (w.during clock) m d) m d := by
  intro first later again
  obtain ⟨o, c, cid, f, e, hr, hreply, he, hdraft⟩ := confirm_first env (w := w.during clock) d hfirst
  have hlater : later.eventFor m.messageId .classificationConfirmed = some e :=
    eventFor_run (Or.inr (Or.inr rfl)) he more
  have hagain : again = _ := confirm_again env (w := later.during clock') hr hlater hdraft d
  have hflag : { d with triage := Decidable.decide (o = .triage) } = d
      ↔ (d.triage = true ∨ Routable w.registry (gateInstant (w.during clock) m d) m d) := by
    rw [withTriage_eq_self]
    exact hr.flag_eq_iff
  rw [hagain, ← hflag]
  refine ⟨?_, ?_⟩
  · intro hidempotent
    obtain ⟨r, hr₁, hr₂, _⟩ := hidempotent
    by_contra hne
    rw [if_neg hne] at hr₂
    exact absurd hr₂ (by simp)
  · intro heq
    exact ⟨⟨o, c⟩, hreply, by rw [if_pos heq], rfl, rfl, rfl⟩

/-- A plain response is confirmed twice with one answer. -/
theorem confirm_idempotent_response :
    let confirmation : Request := Sample.request
      (.confirm (Sample.message "P" []) { reviewerId := "R1", confirmedClass := some .response })
    let first := system (Sample.env none) Sample.world confirmation
    let again := system (Sample.env none) first.2 confirmation
    ∃ r, first.1 = .confirmation (.ok r) ∧ again.1 = .confirmation (.ok r)
      ∧ again.2.audit = first.2.audit ∧ again.2.triage = first.2.triage
      ∧ again.2.clarifications = first.2.clarifications :=
  (confirm_idempotent_iff (Sample.env none) Sample.world (Sample.message "P" [])
    { reviewerId := "R1", confirmedClass := some .response } _ _ [] rfl).mpr (Or.inr trivial)

/-- A decision that names no class is turned into a triage, and then conflicts with itself. -/
theorem confirm_not_idempotent :
    let confirmation : Request := Sample.request (.confirm (Sample.message "P" []) { reviewerId := "R1" })
    let first := system (Sample.env none) Sample.world confirmation
    let again := system (Sample.env none) first.2 confirmation
    Sample.world.eventFor "M1" .classificationConfirmed = none
      ∧ first.1 = .confirmation (.ok ⟨.triage, none⟩)
      ∧ again.1 = .confirmation (.error (.conflictingDecision "M1")) :=
  ⟨rfl, rfl, rfl⟩

/-! ## Conflicts -/

/--
**When a different decision is rejected.**

Always, except for one: a first decision that did not ask for triage and could
not be routed is confused with the decision that differs from it in asking.
-/
theorem confirm_conflict_iff (env : Env) (w : World) (m : IntakeMessage) (d₁ d₂ : HumanDecision)
    (clock clock' : Stream' Instant) (more : List Request)
    (hfirst : w.eventFor m.messageId .classificationConfirmed = none) (hne : d₂ ≠ d₁) :
    let first := system env w ⟨.message (.confirm m d₁), clock⟩
    let later := Machine.run (system env) first.2 more
    let second := system env later ⟨.message (.confirm m d₂), clock'⟩
    (second.1 = .confirmation (.error (.conflictingDecision m.messageId))
        ∧ second.2.audit = later.audit ∧ second.2.triage = later.triage
        ∧ second.2.clarifications = later.clarifications)
      ↔ ¬ (d₁.triage = false ∧ ¬ Routable w.registry (gateInstant (w.during clock) m d₁) m d₁
        ∧ d₂ = { d₁ with triage := true }) := by
  intro first later second
  obtain ⟨o, c, cid, f, e, hr, _, he, hdraft⟩ := confirm_first env (w := w.during clock) d₁ hfirst
  have hlater : later.eventFor m.messageId .classificationConfirmed = some e :=
    eventFor_run (Or.inr (Or.inr rfl)) he more
  have hsecond : second = _ := confirm_again env (w := later.during clock') hr hlater hdraft d₂
  -- the recorded decision is `d₂` only if they differ in the flag, and the flag was not the reviewer's
  have hmatch : { d₁ with triage := Decidable.decide (o = .triage) } = d₂
      ↔ d₁.triage = false ∧ ¬ Routable w.registry (gateInstant (w.during clock) m d₁) m d₁
        ∧ d₂ = { d₁ with triage := true } := by
    refine ⟨?_, ?_⟩
    · intro heq
      have hflag : Decidable.decide (o = .triage) ≠ d₁.triage := fun h =>
        hne (heq.symm.trans (withTriage_eq_self.mpr h))
      rw [Ne, hr.flag_eq_iff, not_or, Bool.not_eq_true] at hflag
      refine ⟨hflag.1, hflag.2, ?_⟩
      rw [← heq, decide_eq_true (hr.triage_iff.mpr (Or.inr hflag.2))]
    · intro hother
      obtain ⟨_, hroute, rfl⟩ := hother
      rw [decide_eq_true (hr.triage_iff.mpr (Or.inr hroute))]
  rw [hsecond, ← hmatch]
  refine ⟨?_, ?_⟩
  · intro hconflict heq
    obtain ⟨hreply, _⟩ := hconflict
    rw [if_pos heq] at hreply
    exact absurd hreply (by simp)
  · intro heq
    exact ⟨by rw [if_neg heq], rfl, rfl, rfl⟩

/-- A second class for a confirmed response is rejected. -/
theorem confirm_conflict_response :
    let m := Sample.message "P" []
    let first := system (Sample.env none) Sample.world
      (Sample.request (.confirm m { reviewerId := "R1", confirmedClass := some .response }))
    let second := system (Sample.env none) first.2
      (Sample.request (.confirm m { reviewerId := "R1", confirmedClass := some .newDeliverable }))
    second.1 = .confirmation (.error (.conflictingDecision "M1"))
      ∧ second.2.audit = first.2.audit ∧ second.2.triage = first.2.triage
      ∧ second.2.clarifications = first.2.clarifications :=
  (confirm_conflict_iff (Sample.env none) Sample.world (Sample.message "P" [])
    { reviewerId := "R1", confirmedClass := some .response }
    { reviewerId := "R1", confirmedClass := some .newDeliverable } _ _ [] rfl (by simp)).mpr
    (fun h => h.2.1 trivial)

/-- Asking for triage after a decision that named no class is answered as if it had been the first. -/
theorem confirm_conflict_accepted :
    let m := Sample.message "P" []
    let first := system (Sample.env none) Sample.world (Sample.request (.confirm m { reviewerId := "R1" }))
    let second := system (Sample.env none) first.2
      (Sample.request (.confirm m { reviewerId := "R1", triage := true }))
    Sample.world.eventFor "M1" .classificationConfirmed = none
      ∧ ({ reviewerId := "R1", triage := true } : HumanDecision) ≠ { reviewerId := "R1" }
      ∧ first.1 = .confirmation (.ok ⟨.triage, none⟩)
      ∧ second.1 = .confirmation (.ok ⟨.triage, none⟩) :=
  ⟨rfl, by simp, rfl, rfl⟩

end Intake.Proof
