import Intake.Proof.Grammar

/-!
# What counts as a correction

The reviewer's decision is compared with what the log kept of the proposal, and of
that only the class and the subtype are looked at. A decision that agrees on both
and still overrides the model, by asking for triage or by changing what is
missing, is routed as the reviewer says and leaves no correction.
-/

namespace Intake.Sample

/-- A due-diligence proposal with nothing missing. -/
def dueDiligence : ClassificationProposal :=
  { routeClass := .newDeliverable, subtype := some .dueDiligence, confidence := ⟨0⟩, evidenceSpans := []
    candidateCaseIds := [], missingFields := [] }

end Intake.Sample

namespace Intake.Proof

open IntakeService ClassificationService EventLog

/-- The decision takes the proposal as it is; the order of the missing fields does not matter. -/
structure PlainAcceptance (p : ClassificationProposal) (d : HumanDecision) : Prop where
  triage : d.triage = false
  confirmedClass : d.confirmedClass = some p.routeClass
  confirmedSubtype : d.confirmedSubtype = p.subtype
  confirmedMissingFields : ∀ field, field ∈ d.confirmedMissingFields ↔ field ∈ p.missingFields

/-- The decision says what the proposal says about class and subtype. -/
def SameRoute (p : ClassificationProposal) (d : HumanDecision) : Prop :=
  d.confirmedClass = some p.routeClass ∧ d.confirmedSubtype = p.subtype

instance (p : ClassificationProposal) (d : HumanDecision) : Decidable (SameRoute p d) :=
  inferInstanceAs (Decidable (_ ∧ _))

theorem plainAcceptance_iff {p : ClassificationProposal} {d : HumanDecision} :
    PlainAcceptance p d ↔ SameRoute p d
      ∧ (d.triage = false ∧ ∀ field, field ∈ d.confirmedMissingFields ↔ field ∈ p.missingFields) := by
  refine ⟨?_, ?_⟩
  · intro h
    exact ⟨⟨h.confirmedClass, h.confirmedSubtype⟩, h.triage, h.confirmedMissingFields⟩
  · intro h
    exact ⟨h.2.1, h.1.1, h.1.2, h.2.2⟩

/-- The message waits for a reviewer: its proposal is pending and recorded as `p`. -/
structure Pending (w : World) (x : MessageId) (p : ClassificationProposal) : Prop where
  proposed : ∃ e, w.eventFor x .classificationProposed = some e ∧ e.outcome = .pending
    ∧ e.classification = some (payloadOf (some p))
  unconfirmed : w.eventFor x .classificationConfirmed = none

/-- The request logs a correction, before the confirmation it ends with. -/
def LogsCorrection (env : Env) (w : World) (req : Request) : Prop :=
  ∃ c between k, newEvents env w req = c :: between ++ [k] ∧ c.action = .classificationCorrected
    ∧ k.action = .classificationConfirmed ∧ c.messageId = k.messageId

/-- **The comparison the code makes.** -/
theorem isCorrection_iff {e : AuditEvent} {p : ClassificationProposal} {d : HumanDecision}
    (h : e.classification = some (payloadOf (some p))) : isCorrection e d = true ↔ ¬ SameRoute p d := by
  rw [isCorrection, h]
  show (decide (some p.routeClass ≠ d.confirmedClass) || decide (p.subtype ≠ d.confirmedSubtype)) = true ↔ _
  rw [Bool.or_eq_true, decide_eq_true_iff, decide_eq_true_iff, SameRoute, not_and_or]
  exact or_congr ne_comm ne_comm

/-- The batch of a first confirmation, and whether it starts with a correction. -/
theorem confirm_batch (env : Env) {w : World} {m : IntakeMessage} (d : HumanDecision) (clock : Stream' Instant)
    {p : ClassificationProposal} (hpending : Pending w m.messageId p) :
    ∃ o c cid f, Routed w.registry (gateInstant (w.during clock) m d) m d cid o c f
      ∧ (system env w ⟨.message (.confirm m d), clock⟩).1 = .confirmation (.ok ⟨o, c⟩)
      ∧ (newEvents env w ⟨.message (.confirm m d), clock⟩).map AuditEvent.toAuditDraft
        = (if SameRoute p d then [] else [correctionDraft m d cid]) ++ f.drafts
          ++ [confirmationDraft m d o cid] := by
  obtain ⟨e, he, _, hpayload⟩ := hpending.proposed
  obtain ⟨f, hs, happ⟩ := system_served env w (.confirm m d) clock
  have hdrafts : (newEvents env w ⟨.message (.confirm m d), clock⟩).map AuditEvent.toAuditDraft = f.drafts :=
    newEvents_drafts happ rfl
  rw [hdrafts]
  generalize (system env w ⟨.message (.confirm m d), clock⟩).1 = reply at hs ⊢
  cases hs with
  | confirmReplayed h => exact absurd (hpending.unconfirmed.symm.trans h) (by simp)
  | confirmConflict h => exact absurd (hpending.unconfirmed.symm.trans h) (by simp)
  | @confirmed _ _ cid o c g _ _ hr =>
      refine ⟨o, c, cid, g, hr, rfl, ?_⟩
      have he' : (w.during clock).eventFor m.messageId .classificationProposed = some e := he
      have hcorrections : corrections (w.during clock) m d cid
          = (if SameRoute p d then [] else [correctionDraft m d cid]) := by
        rw [corrections, he']
        dsimp only
        by_cases hroute : SameRoute p d
        · rw [if_pos hroute, if_neg (by rw [isCorrection_iff hpayload]; exact not_not.mpr hroute)]
        · rw [if_neg hroute, if_pos ((isCorrection_iff hpayload).mpr hroute)]
      rw [hcorrections]

/-- **A correction is logged exactly for a different class or subtype.** -/
theorem logsCorrection_iff (env : Env) {w : World} {m : IntakeMessage} (d : HumanDecision)
    (clock : Stream' Instant) {p : ClassificationProposal} (hpending : Pending w m.messageId p) :
    LogsCorrection env w ⟨.message (.confirm m d), clock⟩ ↔ ¬ SameRoute p d := by
  obtain ⟨o, c, cid, f, hr, _, hbatch⟩ := confirm_batch env d clock hpending
  refine ⟨?_, ?_⟩
  · intro hlogs hroute
    obtain ⟨first, between, k, hevents, hfirst, _⟩ := hlogs
    rw [if_pos hroute, List.nil_append, hevents] at hbatch
    have hmem : first.toAuditDraft ∈ f.drafts ++ [confirmationDraft m d o cid] :=
      hbatch ▸ List.mem_map_of_mem (by simp)
    rcases List.mem_append.mp hmem with hx | hx
    · obtain ⟨auth, hauth⟩ := hr.drafts_eq _ hx
      rw [hauth] at hfirst
      cases hfirst
    · rw [List.mem_singleton.mp hx] at hfirst
      cases hfirst
  · intro hroute
    rw [if_neg hroute] at hbatch
    obtain ⟨front, back, hevents, hfront, hback⟩ := List.map_eq_append_iff.mp hbatch
    obtain ⟨k, rfl, hk⟩ := List.map_eq_singleton_iff.mp hback
    obtain ⟨first, between, rfl, hfirst, _⟩ := List.map_eq_cons_iff.mp hfront
    exact ⟨first, between, k, hevents, by rw [hfirst]; rfl, by rw [hk]; rfl, by rw [hfirst, hk]; rfl⟩

/-- The outcome of accepting a proposal that is not a follow-up. -/
def acceptedOutcome (p : ClassificationProposal) : ClassificationOutcome :=
  if p.routeClass = .newDeliverable then
    if p.missingFields = [] then .newDeliverableReady else .awaitingInputs
  else
    .responseReady

/-- Accepting a proposal that is not a follow-up has one outcome. -/
theorem Routed.accepted {r : CaseRegistry} {t : Instant} {m : IntakeMessage} {d : HumanDecision}
    {cid : PyStr} {o : ClassificationOutcome} {c : Option CaseId} {f : Effect}
    (h : Routed r t m d cid o c f) {p : ClassificationProposal} (hp : PlainAcceptance p d)
    (hclass : p.routeClass ≠ .existingFollowup) : o = acceptedOutcome p := by
  have hmissing : d.confirmedMissingFields = [] ↔ p.missingFields = [] := by
    simp only [List.eq_nil_iff_forall_not_mem, hp.confirmedMissingFields]
  have hd := hp.confirmedClass
  cases h with
  | flagged hflag =>
      rcases hflag with ht | hc
      · exact absurd (hp.triage.symm.trans ht) (by simp)
      · exact absurd (hc.symm.trans hd) (by simp)
  | response _ hc =>
      rw [hc] at hd
      rw [acceptedOutcome, ← Option.some.inj hd, if_neg (by simp)]
  | awaiting _ hc hm =>
      rw [hc] at hd
      rw [acceptedOutcome, ← Option.some.inj hd, if_pos rfl, if_neg (fun hnil => hm (hmissing.mpr hnil))]
  | ready _ hc hm =>
      rw [hc] at hd
      rw [acceptedOutcome, ← Option.some.inj hd, if_pos rfl, if_pos (hmissing.mp hm)]
  | noCase _ hc | authorised _ hc | denied _ hc =>
      rw [hc] at hd
      exact absurd (Option.some.inj hd).symm hclass

/--
**When corrections are complete.**

Let the proposal `p` of a message be pending and unconfirmed. A confirmation logs a
correction exactly if it is not a plain acceptance of `p`, and in particular
whenever it ends otherwise than a plain acceptance of a `p` that is no follow-up,
unless the decision names the class and subtype of `p` and overrides it all the
same: by asking for triage, or by a different set of missing fields.
-/
theorem correction_logged_iff (env : Env) (w : World) (m : IntakeMessage) (d : HumanDecision)
    (clock : Stream' Instant) (p : ClassificationProposal) (hpending : Pending w m.messageId p) :
    ((LogsCorrection env w ⟨.message (.confirm m d), clock⟩ ↔ ¬ PlainAcceptance p d)
        ∧ (p.routeClass ≠ .existingFollowup → ∀ d' o c o' c', PlainAcceptance p d' →
          (system env w ⟨.message (.confirm m d), clock⟩).1 = .confirmation (.ok ⟨o, c⟩) →
          (system env w ⟨.message (.confirm m d'), clock⟩).1 = .confirmation (.ok ⟨o', c'⟩) → o ≠ o' →
          LogsCorrection env w ⟨.message (.confirm m d), clock⟩))
      ↔ ¬ (SameRoute p d ∧ (d.triage = true
        ∨ ¬ ∀ field, field ∈ d.confirmedMissingFields ↔ field ∈ p.missingFields)) := by
  rw [logsCorrection_iff env d clock hpending, plainAcceptance_iff]
  refine ⟨?_, ?_⟩
  · intro hcomplete hnot
    obtain ⟨hexact, _⟩ := hcomplete
    obtain ⟨hroute, hoverride⟩ := hnot
    -- the override is not plain, and is not logged
    refine hexact.mpr (fun hplain => ?_) hroute
    rcases hoverride with ht | hm
    · exact absurd (hplain.2.1.symm.trans ht) (by simp)
    · exact hm hplain.2.2
  · intro hnot
    have hplain : SameRoute p d → d.triage = false
        ∧ ∀ field, field ∈ d.confirmedMissingFields ↔ field ∈ p.missingFields := by
      intro hroute
      rw [not_and, not_or, not_not, Bool.not_eq_true] at hnot
      exact hnot hroute
    refine ⟨⟨fun h h' => h h'.1, fun h h' => h ⟨h', hplain h'⟩⟩, ?_⟩
    intro hclass d' o c o' c' hd' ho ho' hne hroute
    -- two plain acceptances end alike
    obtain ⟨o₁, c₁, _, _, hr₁, hreply₁, _⟩ := confirm_batch env d clock hpending
    obtain ⟨o₂, c₂, _, _, hr₂, hreply₂, _⟩ := confirm_batch env d' clock hpending
    rw [hreply₁] at ho
    rw [hreply₂] at ho'
    cases ho
    cases ho'
    exact hne ((hr₁.accepted (plainAcceptance_iff.mpr ⟨hroute, hplain hroute⟩) hclass).trans
      (hr₂.accepted hd' hclass).symm)

/-- A due-diligence proposal confirmed as a response leaves a correction. -/
theorem correction_logged_response :
    let m := Sample.message "P" []
    let env := Sample.env (some Sample.dueDiligence)
    let w := (system env Sample.world (Sample.request (.propose m "text"))).2
    let d : HumanDecision := { reviewerId := "R1", confirmedClass := some .response }
    LogsCorrection env w (Sample.request (.confirm m d)) ↔ ¬ PlainAcceptance Sample.dueDiligence d :=
  ((correction_logged_iff (Sample.env (some Sample.dueDiligence)) _ (Sample.message "P" [])
    { reviewerId := "R1", confirmedClass := some .response } (Stream'.const 0) Sample.dueDiligence
    ⟨⟨_, rfl, rfl, rfl⟩, rfl⟩).mpr (fun h => absurd h.1 (by decide))).1

/-- The same proposal sent to triage, with its class and subtype, leaves none. -/
theorem correction_not_logged :
    let m := Sample.message "P" []
    let env := Sample.env (some Sample.dueDiligence)
    let w := (system env Sample.world (Sample.request (.propose m "text"))).2
    let accepted : HumanDecision :=
      { reviewerId := "R1", confirmedClass := some .newDeliverable, confirmedSubtype := some .dueDiligence }
    let overridden : HumanDecision := { accepted with triage := true }
    Pending w "M1" Sample.dueDiligence ∧ PlainAcceptance Sample.dueDiligence accepted
      ∧ ¬ PlainAcceptance Sample.dueDiligence overridden
      ∧ (system env w (Sample.request (.confirm m accepted))).1 = .confirmation (.ok ⟨.newDeliverableReady, none⟩)
      ∧ (system env w (Sample.request (.confirm m overridden))).1 = .confirmation (.ok ⟨.triage, none⟩)
      ∧ (newEvents env w (Sample.request (.confirm m overridden))).map (fun e => e.action)
        = [.classificationConfirmed] :=
  ⟨⟨⟨_, rfl, rfl, rfl⟩, rfl⟩, ⟨rfl, rfl, rfl, fun _ => Iff.rfl⟩, fun h => absurd h.triage (by decide), rfl, rfl,
    rfl⟩

end Intake.Proof
