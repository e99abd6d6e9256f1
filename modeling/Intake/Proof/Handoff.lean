import Intake.Proof.Confirmation
import Intake.Proof.Queues
import Intake.Proof.Vetting

/-!
# From a confirmed message to a screen

Nothing is handed over between the services. Whoever calls `confirm` takes the
outcome it returns and asks for a manifest. The outcome may be a replay, read back
from the log, for a decision that is not the one that was routed.

The gap closes because every confirmed event of the log is the draft of a routed
decision, and a replay is answered for what that event says only. So the decision
alone decides whether there is a manifest, and a message has at most one decision
that gets one.
-/

namespace Intake.Proof

open IntakeService ClassificationService EvidenceService EventLog

/-! ## Decisions that can be handed off -/

/-- A new due-diligence deliverable with nothing missing. -/
structure Deliverable (d : HumanDecision) : Prop where
  kept : d.triage = false
  newDeliverable : d.confirmedClass = some .newDeliverable
  complete : d.confirmedMissingFields = []
  dueDiligence : d.confirmedSubtype = some .dueDiligence

theorem Routed.ready_iff {r : CaseRegistry} {t : Instant} {m : IntakeMessage} {d : HumanDecision}
    {cid : PyStr} {o : ClassificationOutcome} {c : Option CaseId} {f : Effect}
    (h : Routed r t m d cid o c f) :
    o = .newDeliverableReady
      ↔ d.triage = false ∧ d.confirmedClass = some .newDeliverable ∧ d.confirmedMissingFields = [] := by
  cases h with
  | flagged h => rcases h with ht | hc <;> simp [*]
  | response ht hc => simp [hc]
  | awaiting ht hc hm => simp [hm]
  | ready ht hc hm => simp [ht, hc, hm]
  | noCase ht hc hs => simp [hc]
  | authorised ht hc hs hg => simp [hc]
  | denied ht hc hs hg => simp [hc]

/-- There is a manifest for a ready outcome and due diligence, and it is as asked for. -/
theorem createDueDiligenceManifest_ok_iff {o : ClassificationOutcome} {subtype : Option NewDeliverableSubtype}
    {c : CaseId} {e : EngagementId} {jurisdiction : PyStr} {geometry : SiteGeometry} {version : PyStr}
    {manifest : CaseManifest} :
    createDueDiligenceManifest o subtype c e jurisdiction geometry version = .ok manifest
      ↔ o = .newDeliverableReady ∧ subtype = some .dueDiligence
        ∧ manifest = ⟨c, e, jurisdiction, geometry, version, 1⟩ := by
  unfold createDueDiligenceManifest
  split_ifs with ho hs
  · simp [ho]
  · simp [hs]
  · rw [not_not] at ho hs
    simp [ho, hs, eq_comm]

/-! ## What the log confirms was routed -/

/-- Every confirmed event is the draft of a routed decision. -/
def RoutedConfirmations (w : World) : Prop :=
  ∀ draft ∈ w.trail, draft.action = .classificationConfirmed →
    ∃ r t m d cid o c f, Routed r t m d cid o c f ∧ draft = confirmationDraft m d o cid

/-- The one confirmed event a call may write is that of the decision it routes. -/
theorem Served.routed {env : Env} {w : World} {call : MessageCall} {reply : Reply} {f : Effect}
    (h : Served env w call reply f) {draft : AuditDraft} (hd : draft ∈ f.drafts)
    (ha : draft.action = .classificationConfirmed) :
    ∃ r t m d cid o c g, Routed r t m d cid o c g ∧ draft = confirmationDraft m d o cid := by
  cases h with
  | intakeReplayed | proposeReplayed | proposeAfterIntake | confirmReplayed | confirmConflict =>
      exact absurd hd List.not_mem_nil
  | intakeAuthorised | intakeTriaged | proposeDenied =>
      rw [List.mem_singleton.mp hd] at ha
      cases ha
  | proposeAsked _ _ _ ask =>
      cases ask with
      | _ =>
          rw [List.mem_singleton.mp hd] at ha
          cases ha
  | @confirmed m d cid o c g _ _ hr =>
      rcases List.mem_append.mp hd with hd | hd
      · exact absurd (Or.inr (Or.inr ha)) (hr.not_once draft hd)
      · exact ⟨_, _, m, d, cid, o, c, g, hr, List.mem_singleton.mp hd⟩

theorem routedConfirmations_step {env : Env} (w : World) (req : Request) (h : RoutedConfirmations w) :
    RoutedConfirmations (system env w req).2 := by
  intro draft hdraft haction
  rcases system_step env w req with ⟨call, f, _, hs, happ⟩ | ⟨r, f, hreg, _, _, _, happ⟩
  · rw [happ.trail] at hdraft
    rcases List.mem_append.mp hdraft with hold | hnew
    · exact h draft hold haction
    · exact hs.routed hnew haction
  · rw [happ.trail] at hdraft
    rcases List.mem_append.mp hdraft with hold | hnew
    · exact h draft hold haction
    · rw [(hreg draft hnew).1] at haction
      cases haction

/--
**What an accepted confirmation leaves in the log.** The event of a routed decision:
this one, or the one it replays.
-/
theorem confirm_accepted (env : Env) {w : World} (hw : RoutedConfirmations w) {m : IntakeMessage}
    {d : HumanDecision} {r : ConfirmResult} (h : (serve env w (.confirm m d)).1 = .confirmation (.ok r)) :
    ∃ g t m₁ d₁ cid f e, Routed g t m₁ d₁ cid r.outcome r.caseId f
      ∧ (serve env w (.confirm m d)).2.eventFor m.messageId .classificationConfirmed = some e
      ∧ e.toAuditDraft = confirmationDraft m₁ d₁ r.outcome cid
      ∧ (d = d₁ ∨ d = { d₁ with triage := Decidable.decide (r.outcome = .triage) }) := by
  cases hfirst : w.eventFor m.messageId .classificationConfirmed with
  | none =>
      obtain ⟨o, c, cid, f, e, hr, hreply, he, hdraft⟩ := confirm_first env d hfirst
      rw [hreply] at h
      obtain rfl : r = ⟨o, c⟩ := by injection h with h; injection h with h; exact h.symm
      exact ⟨_, _, m, d, cid, f, e, hr, he, hdraft, Or.inl rfl⟩
  | some e =>
      have hlast := World.latest_of_eventFor hfirst
      obtain ⟨g, t, m₁, d₁, cid, o, c, f, hr, hdraft⟩ :=
        hw _ (mem_of_latest hlast) (AuditDraft.isFor_iff.mp (prop_of_latest hlast)).1
      rw [confirm_again env hr hfirst hdraft d] at h ⊢
      split_ifs at h with hd
      · obtain rfl : r = ⟨o, c⟩ := by injection h with h; injection h with h; exact h.symm
        exact ⟨g, t, m₁, d₁, cid, f, e, hr, hfirst, hdraft, Or.inr hd.symm⟩
      · injection h with h
        cases h

/-- Whether an accepted confirmation is ready can be read off the decision. -/
theorem ready_of_accepted {g : CaseRegistry} {t : Instant} {m : IntakeMessage} {d d₁ : HumanDecision}
    {cid : PyStr} {o : ClassificationOutcome} {c : Option CaseId} {f : Effect} (h : Routed g t m d₁ cid o c f)
    (hd : d = d₁ ∨ d = { d₁ with triage := Decidable.decide (o = .triage) }) :
    o = .newDeliverableReady
      ↔ d.triage = false ∧ d.confirmedClass = some .newDeliverable ∧ d.confirmedMissingFields = [] := by
  rcases hd with rfl | rfl
  · exact h.ready_iff
  · refine ⟨?_, ?_⟩
    · intro ho
      obtain ⟨_, hclass, hmissing⟩ := h.ready_iff.mp ho
      exact ⟨by rw [ho]; rfl, hclass, hmissing⟩
    · intro hdecision
      obtain ⟨hflag, hclass, hmissing⟩ := hdecision
      -- the route made no triage of it, so the reviewer did not ask for one
      have hkept : d₁.triage = false :=
        Bool.not_eq_true _ ▸ fun ht => of_decide_eq_false hflag (h.triage_iff.mpr (Or.inl ht))
      exact h.ready_iff.mpr ⟨hkept, hclass, hmissing⟩

/-- A message whose confirmation asks for nothing waits for nothing. -/
theorem not_waiting {w : World} (hagree : Agree w) (honce : WriteOnce w) {x : MessageId} {e : AuditEvent}
    (he : w.eventFor x .classificationConfirmed = some e) (ho : e.outcome ≠ .awaitingInputs) :
    w.clarifications.has x = false := by
  rw [Bool.eq_false_iff]
  intro hwaits
  obtain ⟨draft, hmem, hawaits⟩ := (hagree.clarifications.has_iff x).mp hwaits
  simp only [Awaits, Bool.and_eq_true, decide_eq_true_eq] at hawaits
  -- there is only one confirmation, so it is the one that awaits inputs
  have honly := (honce x .classificationConfirmed (Or.inr (Or.inr rfl))).latest_eq hmem
    (AuditDraft.isFor_iff.mpr ⟨hawaits.1.1, hawaits.2⟩)
  rw [World.latest_of_eventFor he] at honly
  exact ho (by rw [Option.some.inj honly]; exact hawaits.1.2)

/--
**Who gets a manifest.**

In any run of all three services, an accepted confirmation, routed now or replayed,
yields a manifest exactly for a new due-diligence deliverable with nothing missing.
From then on the message never waits for inputs, and that decision is the only one
ever accepted for it, with the same result.
-/
theorem handoff_iff (env : OfficeEnv) (registry : CaseRegistry) (ids : Stream' PyStr) (pre post : List Assignment)
    (m : IntakeMessage) (d : HumanDecision) (clock : Stream' Instant) (r : ConfirmResult)
    (c : CaseId) (e : EngagementId) (jurisdiction : PyStr) (geometry : SiteGeometry) (version : PyStr) :
    let confirmed := office env (Machine.run (office env) (Office.init registry ids) pre)
      ⟨.desk (.message (.confirm m d)), clock⟩
    let later := Machine.run (office env) confirmed.2 post
    confirmed.1 = .desk (.confirmation (.ok r)) →
    ((∃ manifest, createDueDiligenceManifest r.outcome d.confirmedSubtype c e jurisdiction geometry version
        = .ok manifest) ↔ Deliverable d)
      ∧ (Deliverable d → later.world.clarifications.has m.messageId = false
        ∧ ∀ m' d' clock', m'.messageId = m.messageId →
          (office env later ⟨.desk (.message (.confirm m' d')), clock'⟩).1
            = .desk (.confirmation (if d' = d then .ok r else .error (.conflictingDecision m.messageId)))) := by
  intro confirmed later hreply
  have hrouted : RoutedConfirmations (Machine.run (office env) (Office.init registry ids) pre).world :=
    office_invariant env routedConfirmations_step (fun _ _ _ h => h)
      (fun draft hdraft => absurd hdraft List.not_mem_nil) pre
  obtain ⟨g, t, m₁, d₁, cid, f, event, hr, hevent, hdraft, hd⟩ :=
    confirm_accepted env.desk (w := World.during _ clock) hrouted (Answer.desk.inj hreply)
  have hready := ready_of_accepted hr hd
  refine ⟨?_, ?_⟩
  · refine ⟨?_, ?_⟩
    · intro hmanifest
      obtain ⟨manifest, hmanifest⟩ := hmanifest
      obtain ⟨ho, hsubtype, _⟩ := createDueDiligenceManifest_ok_iff.mp hmanifest
      obtain ⟨hkept, hclass, hmissing⟩ := hready.mp ho
      exact ⟨hkept, hclass, hmissing, hsubtype⟩
    · intro hdeliverable
      exact ⟨_, createDueDiligenceManifest_ok_iff.mpr ⟨hready.mpr
        ⟨hdeliverable.kept, hdeliverable.newDeliverable, hdeliverable.complete⟩, hdeliverable.dueDiligence, rfl⟩⟩
  · intro hdeliverable
    have ho : r.outcome = .newDeliverableReady :=
      hready.mpr ⟨hdeliverable.kept, hdeliverable.newDeliverable, hdeliverable.complete⟩
    -- the event is found for ever, and it is the only confirmed event of the message
    have hlater : later.world.eventFor m.messageId .classificationConfirmed = some event :=
      office_invariant env (P := fun w => w.eventFor m.messageId .classificationConfirmed = some event)
        (fun _ req h => eventFor_step (Or.inr (Or.inr rfl)) h req) (fun _ _ _ h => h) hevent post
    refine ⟨?_, ?_⟩
    · have hkept : Agree later.world ∧ WriteOnce later.world := by
        have hrun := office_invariant env (P := fun w => Agree w ∧ WriteOnce w)
          (fun w req h => ⟨agree_step w req h.1, writeOnce_step w req h.2⟩) (fun _ _ _ h => ⟨⟨h.1.1, h.1.2⟩, h.2⟩)
          (o := Office.init registry ids) ⟨agree_init _ _, writeOnce_init _ _⟩
          (pre ++ ⟨.desk (.message (.confirm m d)), clock⟩ :: post)
        rw [Machine.run_append] at hrun
        exact hrun
      refine not_waiting hkept.1 hkept.2 hlater ?_
      rw [hdraft, ho]
      nofun
    · intro m' d' clock' hm'
      have hagain := confirm_again env.desk (w := later.world.during clock') (m := m') hr (hm' ▸ hlater) hdraft d'
      have hsame : { d₁ with triage := Decidable.decide (r.outcome = .triage) } = d := by
        rcases hd with rfl | rfl
        · rw [withTriage_eq_self, ho, hdeliverable.kept]
          rfl
        · rfl
      have hanswer : (office env later ⟨.desk (.message (.confirm m' d')), clock'⟩).1
          = .desk (serve env.desk (later.world.during clock') (.confirm m' d')).1 := rfl
      rw [hanswer, hagain, hsame, hm']
      simp only [eq_comm]

/-- A reviewer's decision for the message of the sample, with everything a screen needs. -/
def sampleDecision : HumanDecision :=
  { reviewerId := "R1", confirmedClass := some .newDeliverable, confirmedSubtype := some .dueDiligence }

/-- Confirmed in an empty log, that decision has a manifest. -/
theorem handoff_iff_sample :
    Deliverable sampleDecision ∧ ∃ manifest, createDueDiligenceManifest .newDeliverableReady
      sampleDecision.confirmedSubtype "CASE-1" "E1" "US-CA" Sample.geometry "1" = .ok manifest := by
  have hdeliverable : Deliverable sampleDecision := ⟨rfl, rfl, rfl, rfl⟩
  have hboth := handoff_iff Sample.officeEnv Sample.registry Sample.ids [] [] (Sample.message "P" []) sampleDecision
    (Stream'.const 0) ⟨.newDeliverableReady, none⟩ "CASE-1" "E1" "US-CA" Sample.geometry "1" rfl
  exact ⟨hdeliverable, hboth.1.mpr hdeliverable⟩

/-! ## From the decision to the ledger -/

/-- A manifest that may be screened may be screened at any later time. -/
theorem ValidManifest.later {env : OfficeEnv} {o : Office} {manifest : CaseManifest}
    (h : ValidManifest env.sha256 manifest o.world.registry) (as : List Assignment) :
    ValidManifest env.sha256 manifest (Machine.run (office env) o as).world.registry :=
  ⟨h.crs, h.nonempty, h.rings, h.hash, h.jurisdiction, engagementForCase_office h.owner as⟩

/-- The screen of a valid manifest, unless a payload cannot be encoded. -/
theorem office_screens {env : OfficeEnv} {o : Office} {manifest : CaseManifest} {table : AdapterTable}
    (hvalid : ValidManifest env.sha256 manifest o.world.registry)
    (hpayload : ∀ src query result, table.fetch src query = .returned result → PyStr.Encodable result.raw)
    (clock : Stream' Instant) :
    ∃ ledger, (office env o ⟨.screen manifest table.adapters, clock⟩).1 = .screen (.ok ledger)
      ∧ FailClosed env.evidence manifest table.fetch ledger
      ∧ (office env o ⟨.screen manifest table.adapters, clock⟩).2.evidence.ledgerFor manifest.caseId manifest.revision
        = some ledger := by
  rw [office_screen]
  let w := ({ o with world := o.world.during clock } : Office).evidence
  obtain ⟨query, _, hcompletes⟩ := screened_iff env.evidence o.world.registry table.fetch w manifest
    (validateManifest_eq_none.mpr hvalid)
  obtain ⟨ledger, w', hscreened⟩ := hcompletes.mpr fun src result h => hpayload src _ result h
  have hreturned : (run env.evidence o.world.registry table.fetch w manifest).1 = .ok ledger :=
    congrArg Prod.fst hscreened.returned
  obtain ⟨hsaved, hfiled⟩ := screens_step env.evidence w ⟨manifest, o.world.registry, table.fetch⟩
  refine ⟨ledger, congrArg Answer.screen hreturned, failClosed_of_returned hreturned, ?_⟩
  show latest (IsFor manifest.caseId manifest.revision)
    (screens env.evidence w ⟨manifest, o.world.registry, table.fetch⟩).2.ledgers = some ledger
  have hanswer : (screens env.evidence w ⟨manifest, o.world.registry, table.fetch⟩).1 = .ok ledger := hreturned
  rw [hsaved, hanswer, returned, latest_append, latest_singleton, if_pos (hfiled ledger hanswer)]
  rfl

/-- A ledger that is stored is never without one to be found for its pair. -/
theorem ledgerFor_office {env : OfficeEnv} {o : Office} {c : CaseId} {revision : Int} {ledger : FindingsLedger}
    (h : o.evidence.ledgerFor c revision = some ledger) (as : List Assignment) :
    ∃ ledger', (Machine.run (office env) o as).evidence.ledgerFor c revision = some ledger' := by
  refine Machine.run_invariant (P := fun o : Office => ∃ l, o.evidence.ledgerFor c revision = some l)
    (fun o a ho => ?_) ⟨ledger, h⟩ as
  obtain ⟨l, hl⟩ := ho
  have hledgers := (office_ledgers env o a).1
  rw [EvidenceWorld.ledgerFor] at hl ⊢
  show ∃ l, latest _ (office env o a).2.ledgers = some l
  rw [hledgers, latest_append]
  cases hnew : latest (fun l : FindingsLedger => l.caseId = c && l.manifestRevision = revision)
      (storedBy env o a) with
  | some l' => exact ⟨l', rfl⟩
  | none => exact ⟨l, hl⟩

/--
**From the decision to the ledger.**

Confirm a new due-diligence deliverable with nothing missing, for a case whose
geometry and owner pass the gate. Whatever happens in between, and whatever the
adapters do short of payloads that cannot be encoded, its first manifest can still
be screened. The screen returns a fail-closed ledger, which is then the ledger of
the first revision, and the case is never again without one.
-/
theorem handoff_screened (env : OfficeEnv) (registry : CaseRegistry) (ids : Stream' PyStr)
    (pre post more : List Assignment) (m : IntakeMessage) (d : HumanDecision) (clock clock' : Stream' Instant)
    (r : ConfirmResult) (c : CaseId) (e : EngagementId) (jurisdiction : PyStr) (geometry : SiteGeometry)
    (version : PyStr) (table : AdapterTable) :
    let o := Machine.run (office env) (Office.init registry ids) pre
    let confirmed := office env o ⟨.desk (.message (.confirm m d)), clock⟩
    let manifest : CaseManifest := ⟨c, e, jurisdiction, geometry, version, 1⟩
    let screened := office env (Machine.run (office env) confirmed.2 post) ⟨.screen manifest table.adapters, clock'⟩
    confirmed.1 = .desk (.confirmation (.ok r)) → Deliverable d →
    ValidManifest env.sha256 manifest o.world.registry →
    (∀ src query result, table.fetch src query = .returned result → PyStr.Encodable result.raw) →
    createDueDiligenceManifest r.outcome d.confirmedSubtype c e jurisdiction geometry version = .ok manifest
      ∧ ∃ ledger, screened.1 = .screen (.ok ledger) ∧ FailClosed env.evidence manifest table.fetch ledger
        ∧ screened.2.evidence.ledgerFor c 1 = some ledger
        ∧ ∃ ledger', (Machine.run (office env) screened.2 more).evidence.ledgerFor c 1 = some ledger' := by
  intro o confirmed manifest screened hreply hdeliverable hvalid hpayload
  have hrouted : RoutedConfirmations o.world :=
    office_invariant env routedConfirmations_step (fun _ _ _ h => h)
      (fun draft hdraft => absurd hdraft List.not_mem_nil) pre
  obtain ⟨g, t, m₁, d₁, cid, f, event, hr, _, _, hd⟩ :=
    confirm_accepted env.desk (w := World.during _ clock) hrouted (Answer.desk.inj hreply)
  have ho : r.outcome = .newDeliverableReady := (ready_of_accepted hr hd).mpr
    ⟨hdeliverable.kept, hdeliverable.newDeliverable, hdeliverable.complete⟩
  refine ⟨createDueDiligenceManifest_ok_iff.mpr ⟨ho, hdeliverable.dueDiligence, rfl⟩, ?_⟩
  have hlater := hvalid.later (⟨.desk (.message (.confirm m d)), clock⟩ :: post)
  obtain ⟨ledger, hreturned, hclosed, hfound⟩ := office_screens hlater hpayload clock'
  exact ⟨ledger, hreturned, hclosed, hfound, ledgerFor_office hfound more⟩

/-- The sample site, confirmed, registered again in vain, and screened. -/
theorem handoff_screened_sample :
    let confirmed := office Sample.officeEnv (Office.init Sample.registry Sample.ids)
      ⟨.desk (.message (.confirm (Sample.message "P" []) sampleDecision)), Stream'.const 0⟩
    let later := Machine.run (office Sample.officeEnv) confirmed.2
      [⟨.desk (.registerCase "E1" "CASE-1"), Stream'.const 0⟩]
    ∃ ledger, (office Sample.officeEnv later
      ⟨.screen Sample.manifest Sample.table.adapters, Stream'.const 0⟩).1 = .screen (.ok ledger) := by
  intro confirmed later
  obtain ⟨_, ledger, hreturned, _⟩ := handoff_screened Sample.officeEnv Sample.registry Sample.ids []
    [⟨.desk (.registerCase "E1" "CASE-1"), Stream'.const 0⟩] [] (Sample.message "P" []) sampleDecision
    (Stream'.const 0) (Stream'.const 0) ⟨.newDeliverableReady, none⟩ Sample.manifest.caseId
    Sample.manifest.engagementId Sample.manifest.jurisdiction Sample.manifest.geometry
    Sample.manifest.analysisVersion Sample.table rfl ⟨rfl, rfl, rfl, rfl⟩
    (validateManifest_eq_none.mp Sample.manifest_valid)
    (fun src query result h => by
      rw [Sample.table, AdapterTable.fetch_ofFetch] at h
      rw [← Fetched.returned.inj h]
      exact PyStr.encodable_ofString _)
  exact ⟨ledger, hreturned⟩

end Intake.Proof
