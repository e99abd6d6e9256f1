import Intake.Proof.WriteOnce

/-!
# What reaches the classifier

`propose` treats the case ids a message claims in two ways. A single id goes
through the gate, and a denial keeps the message from the classifier. Several ids
go through the gate one by one, as a filter: those denied are left out of the
projection, and the message is put to the classifier with the others.
-/

namespace Intake.Proof

open IntakeService ClassificationService EventLog

/-- A `propose` of the message puts a projection to the classifier. -/
def AsksClassifier (w : World) (m : IntakeMessage) : Prop :=
  w.eventFor m.messageId .classificationProposed = none ∧ w.eventFor m.messageId .intakeDecision = none
    ∧ ∀ c, m.claimedCaseIds = [c] → (authorise w.registry m.principalId c w.clock.head).kind = .authorised

/-- When the candidates are evaluated: the gate on a single claimed case has read the clock before. -/
def candidateInstant (w : World) (m : IntakeMessage) : Instant :=
  if m.claimedCaseIds.length = 1 then w.clock.tail.head else w.clock.head

/-- **What the classifier is shown.** -/
theorem propose_asked (env : Env) {w : World} {m : IntakeMessage} (h : AsksClassifier w m) (text : PyStr) :
    ∃ cid f, Asked env w.classified m (projectionAt w.registry (candidateInstant w m) m text) cid
        (propose env w m text).1 f
      ∧ Applied w f (propose env w m text).2 := by
  obtain ⟨hp, hi, hg⟩ := h
  unfold propose
  rw [hp]
  dsimp only
  rw [hi]
  dsimp only
  split
  · rename_i c hm
    have hgate : (authorise w.newId.2.now.2.registry m.principalId c w.newId.2.now.1).kind = .authorised := hg c hm
    rw [if_neg (by rw [hgate]; simp)]
    have hinstant : candidateInstant w m = w.newId.2.now.2.clock.head := if_pos (by rw [hm]; rfl)
    rw [hinstant]
    obtain ⟨f, ha, happ⟩ := askClassifier_asked env w.newId.2.now.2 m text w.newId.1
    exact ⟨_, f, ha, ((applied_newId w).trans (applied_now _)).trans happ⟩
  · rename_i hm
    have hinstant : candidateInstant w m = w.newId.2.clock.head := by
      refine if_neg fun hlength => ?_
      obtain ⟨c, hc⟩ := List.length_eq_one_iff.mp hlength
      exact hm c hc
    rw [hinstant]
    obtain ⟨f, ha, happ⟩ := askClassifier_asked env w.newId.2 m text w.newId.1
    exact ⟨_, f, ha, (applied_newId w).trans happ⟩

/-- **A single claimed case that is denied** ends the message in triage, and the classifier is not asked. -/
theorem propose_denied (env : Env) {w : World} {m : IntakeMessage} (text : PyStr) (clock : Stream' Instant)
    {c : CaseId} (hp : w.eventFor m.messageId .classificationProposed = none)
    (hi : w.eventFor m.messageId .intakeDecision = none) (hm : m.claimedCaseIds = [c])
    (hg : (authorise w.registry m.principalId c clock.head).kind = .triage) :
    (system env w ⟨.message (.propose m text), clock⟩).1 = .proposal ⟨none, true⟩
      ∧ ∃ cid iid, Applied (w.during clock)
        { drafts := [intakeDecisionDraft m (authorise w.registry m.principalId c clock.head) cid]
          queued := [triageItem m .notAuthorised iid] }
        (system env w ⟨.message (.propose m text), clock⟩).2 := by
  obtain ⟨f, hs, happ⟩ := system_served env w (.propose m text) clock
  generalize (system env w ⟨.message (.propose m text), clock⟩).1 = reply at hs ⊢
  cases hs with
  | proposeReplayed h => exact absurd (hp.symm.trans h) (by simp)
  | proposeAfterIntake _ h => exact absurd (hi.symm.trans h) (by simp)
  | @proposeDenied _ _ c' _ cid iid _ _ hm' hdeny =>
      obtain rfl : c' = c := by simpa using hm'.symm.trans hm
      have hsame : authorise w.registry m.principalId c' clock.head = deny _ := hdeny
      rw [hsame]
      exact ⟨rfl, cid, iid, happ⟩
  | proposeAsked _ _ hgate => exact absurd ((hgate c hm).symm.trans hg) (by simp)

/--
**What becomes of a message that claims a case its sender may not attach to.**

In any state in which the message was neither proposed nor decided at ingress,
and at least one of the ids it claims is denied: a single id keeps it from the
classifier, and it is triaged. Several ids do not. The classifier is asked once,
and shown as candidates exactly the claimed ids that are authorised, in order.
-/
theorem denied_claims (env : Env) {w : World} {m : IntakeMessage} (text : PyStr) (clock : Stream' Instant)
    (hp : w.eventFor m.messageId .classificationProposed = none)
    (hi : w.eventFor m.messageId .intakeDecision = none)
    (hdenied : ∃ c ∈ m.claimedCaseIds, (authorise w.registry m.principalId c clock.head).kind = .triage) :
    let call := system env w ⟨.message (.propose m text), clock⟩
    (m.claimedCaseIds.length = 1 →
        call.1 = .proposal ⟨none, true⟩ ∧ call.2.classified = w.classified
          ∧ ∃ item ∈ call.2.triage.items, item.messageId = m.messageId)
      ∧ (m.claimedCaseIds.length ≠ 1 →
        ∃ shown, call.2.classified = w.classified ++ [shown] ∧ shown.messageId = m.messageId
          ∧ shown.candidateCaseIds = m.claimedCaseIds.filter fun c =>
              (authorise w.registry m.principalId c clock.head).kind = .authorised) := by
  intro call
  refine ⟨?_, ?_⟩
  · intro hlength
    obtain ⟨c, hm⟩ := List.length_eq_one_iff.mp hlength
    obtain ⟨c', hc', hg⟩ := hdenied
    rw [hm, List.mem_singleton] at hc'
    subst hc'
    obtain ⟨hreply, _, _, happ⟩ := propose_denied env text clock hp hi hm hg
    refine ⟨hreply, happ.classified.trans (List.append_nil _), ?_⟩
    have hhas : call.2.triage.has m.messageId = true := by
      rw [happ.triage, KeyedQueue.has_iff_itemFor, KeyedQueue.itemFor_offerAll, Option.isSome_or]
      simp [triageItem]
    exact KeyedQueue.has_iff_mem.mp hhas
  · intro hlength
    have hasks : AsksClassifier (w.during clock) m := by
      refine ⟨hp, hi, fun c hc => ?_⟩
      rw [hc] at hlength
      exact absurd rfl hlength
    obtain ⟨cid, f, ha, happ⟩ := propose_asked env hasks text
    refine ⟨_, happ.classified.trans (congrArg (w.classified ++ ·) ha.shown), rfl, ?_⟩
    rw [projectionAt, candidateInstant, if_neg hlength]
    rfl

/-- A message that claims another client's case, and nothing else, is triaged unclassified. -/
theorem denied_claims_foreign :
    let m := Sample.message "P" ["CASE-2"]
    let call := system (Sample.env none) Sample.world (Sample.request (.propose m "text"))
    call.1 = .proposal ⟨none, true⟩ ∧ call.2.classified = []
      ∧ ∃ item ∈ call.2.triage.items, item.messageId = m.messageId :=
  (denied_claims (Sample.env none) (w := Sample.world) (m := Sample.message "P" ["CASE-2"]) "text"
    (Stream'.const 0) rfl rfl ⟨_, List.mem_singleton_self _, rfl⟩).1 rfl

/-- A message that claims another client's case beside its own is classified, and left pending. -/
theorem denied_claim_classified :
    let p : ClassificationProposal :=
      { routeClass := .response, subtype := none, confidence := ⟨1⟩, evidenceSpans := []
        candidateCaseIds := [], missingFields := [] }
    let m := Sample.message "P" ["CASE-1", "CASE-2"]
    let call := system (Sample.env (some p)) Sample.world (Sample.request (.propose m "text"))
    Sample.world.audit = []
      ∧ (authorise Sample.world.registry "P" "CASE-2" 0).kind = .triage
      ∧ call.1 = .proposal ⟨some p, false⟩
      ∧ call.2.classified = [⟨"M1", "P", "text", ["CASE-1"]⟩]
      ∧ call.2.triage.items = [] :=
  ⟨rfl, rfl, rfl, rfl, rfl⟩

end Intake.Proof
