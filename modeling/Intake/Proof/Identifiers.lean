import Intake.Lib.Supply
import Intake.Proof.Composition
import Intake.Proof.FailClosed
import Mathlib.Data.Finset.Lattice.Lemmas

/-!
# Where ids come from

Every id in the system is drawn from one generator: of events, triage items, tasks,
records, findings and ledgers, and the correlation ids that tie the events of one
piece of work together. Most are drawn where they are used. A correlation id is
drawn once and used for up to three events, and a confirmation takes over the one
of the proposal it answers; some ids are drawn and never used.

If the generator never repeats itself, no two things share an id, and a correlation
id is never shared by two messages. The account is kept per call: `Threaded` walks
through the operations with the correlation id in hand.
-/

namespace Intake.Proof

open IntakeService ClassificationService EventLog Supply

/-! ## Calls with a correlation id in hand -/

/--
What a call keeps, `P` between pieces of work and `Q c` during one with correlation
id `c`. A piece of work opens with a fresh id, or resumes with the id of a proposal.
-/
structure Threaded (env : Env) (m : IntakeMessage) (P : World → Prop) (Q : PyStr → World → Prop) : Prop where
  idle : ∀ {w}, P w → P w.now.2
  opened : ∀ {w}, P w → Q w.newId.1 w.newId.2
  resumed : ∀ {w e}, P w → w.eventFor m.messageId .classificationProposed = some e → Q e.correlationId w
  closed : ∀ {c w}, Q c w → P w
  now : ∀ {c w}, Q c w → Q c w.now.2
  append : ∀ {c w d}, Q c w → d.correlationId = c → d.messageId = some m.messageId → Q c (w.append d)
  enqueueTriage : ∀ {c w} reason, Q c w → Q c (w.enqueueTriage m reason)
  enqueueTask : ∀ {c w} subtype missing, Q c w →
    Q c { w.newId.2 with
      clarifications := (w.newId.2.clarifications.enqueue ⟨w.newId.1, m.messageId, subtype, missing⟩).2 }
  classify : ∀ {c w} shown, Q c w → Q c (ClassificationService.classify env w shown).2

namespace Threaded

variable {env : Env} {m : IntakeMessage} {P : World → Prop} {Q : PyStr → World → Prop} {w : World} {c : PyStr}

theorem handleIntake (T : Threaded env m P Q) (h : P w) : P (handleIntake w m).2 := by
  unfold IntakeService.handleIntake
  cases w.decisionFor m.messageId with
  | some prior => exact h
  | none =>
      have hdecided : P (IntakeService.decide w m).2 := by
        unfold IntakeService.decide
        split
        · exact h
        · exact T.idle h
        · exact h
      have hwritten := T.append (T.opened hdecided)
        (d := intakeDecisionDraft m (IntakeService.decide w m).1 (IntakeService.decide w m).2.newId.1) rfl rfl
      dsimp only
      split
      · exact T.closed (T.enqueueTriage _ hwritten)
      · exact T.closed hwritten

theorem triageProposal (T : Threaded env m P Q) (h : Q c w) (p : Option ClassificationProposal)
    (reason : ReasonCode) : P (triageProposal w m p reason c).2 :=
  T.closed (T.enqueueTriage reason (T.append h (d := proposalDraft m p .triage (some reason) c) rfl rfl))

theorem askClassifier (T : Threaded env m P Q) (h : Q c w) (text : PyStr) : P (askClassifier env w m text c).2 := by
  unfold ClassificationService.askClassifier
  dsimp only
  have hasked := T.classify ⟨m.messageId, m.principalId, text, (authorisedCandidates w m).1⟩ (T.now h)
  have hcandidates : (authorisedCandidates w m).2 = w.now.2 := rfl
  rw [hcandidates]
  generalize ClassificationService.classify env w.now.2 _ = x at hasked ⊢
  obtain ⟨answer, w₁⟩ := x
  cases answer with
  | none => exact T.triageProposal hasked none .classifierError
  | some p =>
      dsimp only
      cases p.triageReason with
      | some reason => exact T.triageProposal hasked (some p) reason
      | none => exact T.closed (T.append hasked rfl rfl)

theorem propose (T : Threaded env m P Q) (h : P w) (text : PyStr) : P (propose env w m text).2 := by
  unfold ClassificationService.propose
  cases w.eventFor m.messageId .classificationProposed with
  | some proposed => exact h
  | none =>
      dsimp only
      cases w.eventFor m.messageId .intakeDecision with
      | some prior => exact h
      | none =>
          dsimp only
          split
          · split_ifs
            · exact T.closed (T.enqueueTriage _ (T.append (T.now (T.opened h)) rfl rfl))
            · exact T.askClassifier (T.now (T.opened h)) text
          · exact T.askClassifier (T.opened h) text

theorem route (T : Threaded env m P Q) (h : Q c w) (d : HumanDecision) : Q c (route w m d c).2 := by
  unfold ClassificationService.route
  split_ifs
  · exact T.enqueueTriage _ h
  cases d.confirmedClass with
  | none => exact T.enqueueTriage _ h
  | some cls =>
      cases cls with
      | response => exact h
      | newDeliverable =>
          dsimp only
          unfold routeNewDeliverable
          split_ifs
          · exact T.enqueueTask _ _ h
          · exact h
      | existingFollowup =>
          dsimp only
          unfold routeFollowup
          cases d.selectedCaseId with
          | none => exact T.enqueueTriage _ h
          | some case =>
              have hchecked := T.append (T.now h)
                (d := authCheckDraft m d (authorise w.now.2.registry m.principalId case w.now.1) c) rfl rfl
              dsimp only
              split_ifs
              · exact hchecked
              · exact T.enqueueTriage _ hchecked

theorem confirm (T : Threaded env m P Q) (h : P w) (d : HumanDecision) : P (confirm w m d).2 := by
  unfold ClassificationService.confirm
  cases w.eventFor m.messageId .classificationConfirmed with
  | some confirmed =>
      dsimp only
      split_ifs
      · exact h
      · exact h
  | none =>
      have hopen : Q (openConfirmation w m d).1 (openConfirmation w m d).2 := by
        unfold openConfirmation
        cases hp : w.eventFor m.messageId .classificationProposed with
        | none => exact T.opened h
        | some proposed =>
            dsimp only
            split_ifs
            · exact T.append (T.resumed h hp) rfl rfl
            · exact T.resumed h hp
      exact T.closed (T.append (T.route hopen d) rfl rfl)

/-- **The walk through a call.** -/
theorem serve {call : MessageCall} (T : Threaded env call.message P Q) (h : P w) : P (serve env w call).2 := by
  cases call with
  | handleIntake m => exact T.handleIntake h
  | propose m text => exact T.propose h text
  | confirm m d => exact T.confirm h d

end Threaded

/-! ## The account -/

/-- The generated ids of events, items and tasks. -/
def issued (w : World) : Multiset PyStr :=
  w.audit.map AuditEvent.eventId + w.triage.items.map TriageItem.triageItemId
    + w.clarifications.items.map ClarificationTask.taskId

/-- The correlation ids in the log, each once. -/
def correlationIds (w : World) : Finset PyStr := (w.audit.map fun e => e.correlationId).toFinset

/-- **One correlation id, one message**; an event of no message shares its id with no other event. -/
def Separate (w : World) : Prop :=
  ∀ e ∈ w.audit, ∀ e' ∈ w.audit, e.correlationId = e'.correlationId →
    e.messageId = e'.messageId ∧ (e.messageId = none → e = e')

/-- The ids of a world and some others, between pieces of work. -/
structure Accounted (s : Stream' PyStr) (others : Multiset PyStr) (w : World) : Prop where
  spent : Spent s w.ids (issued w + (correlationIds w).val + others)
  separate : Separate w

/-- The same with a correlation id in hand, which is the owner's and has been drawn. -/
structure Charged (s : Stream' PyStr) (others : Multiset PyStr) (owner : Option MessageId) (c : PyStr) (w : World) :
    Prop where
  spent : Spent s w.ids (issued w + (insert c (correlationIds w)).val + others)
  separate : Separate w
  owned : ∀ e ∈ w.audit, e.correlationId = c → e.messageId = owner

section Account

variable {s : Stream' PyStr} {others : Multiset PyStr} {owner : Option MessageId} {c : PyStr} {w : World}

/-- One more id among those of events, items and tasks. -/
theorem spent_cons {a b : Multiset PyStr} {rest : Stream' PyStr} (h : Spent s rest (a + b + others))
    {a' : Multiset PyStr} (ha : a' ≤ rest.head ::ₘ a) : Spent s rest.tail (a' + b + others) := by
  refine h.draw_one.mono ?_
  rw [← Multiset.cons_add, ← Multiset.cons_add]
  exact Multiset.add_le_add_right (Multiset.add_le_add_right ha)

theorem mem_correlationIds {e : AuditEvent} (h : e ∈ w.audit) : e.correlationId ∈ correlationIds w :=
  List.mem_toFinset.mpr (List.mem_map_of_mem h)

/-- **A fresh correlation id** is nobody's yet. -/
theorem Accounted.opened (hs : Function.Injective s.get) (h : Accounted s others w) (owner : Option MessageId) :
    Charged s others owner w.newId.1 w.newId.2 := by
  have hfresh : w.ids.head ∉ correlationIds w := by
    intro hmem
    refine h.spent.fresh hs (Multiset.mem_add.mpr (Or.inl (Multiset.mem_add.mpr (Or.inr ?_))))
    exact hmem
  refine ⟨?_, h.separate, ?_⟩
  · have hspent := h.spent.draw_one
    rw [← Multiset.cons_add, ← Multiset.add_cons, ← Finset.insert_val_of_notMem hfresh] at hspent
    exact hspent
  · intro e he hc
    have hmem := mem_correlationIds he
    rw [hc] at hmem
    exact absurd hmem hfresh

/-- **The correlation id of an event** is its message's. -/
theorem Accounted.resumed (h : Accounted s others w) {x : MessageId} {a : AuditAction} {e : AuditEvent}
    (he : w.eventFor x a = some e) : Charged s others (some x) e.correlationId w := by
  obtain ⟨hmem, _, hid⟩ := World.eventFor_spec he
  refine ⟨?_, h.separate, ?_⟩
  · rw [Finset.insert_eq_of_mem (mem_correlationIds hmem)]
    exact h.spent
  · intro e' he' hc
    exact (h.separate e' he' e hmem hc).1.trans hid

theorem Charged.closed (h : Charged s others owner c w) : Accounted s others w := by
  refine ⟨h.spent.mono ?_, h.separate⟩
  refine Multiset.add_le_add_right (Multiset.add_le_add_left ?_)
  exact Finset.val_le_iff.mpr (Finset.subset_insert c _)

theorem coe_concat (l : List PyStr) (a : PyStr) : ((l ++ [a] : List PyStr) : Multiset PyStr) = a ::ₘ l := by
  rw [Multiset.cons_coe, Multiset.coe_eq_coe]
  exact List.perm_append_singleton a l

/-- A queue takes an item's id in, or leaves it out. -/
theorem map_enqueue_le {α : Type} {key : α → MessageId} (q : KeyedQueue α key) (a : α) (f : α → PyStr) :
    ((q.enqueue a).2.items.map f : Multiset PyStr) ≤ f a ::ₘ (q.items.map f : Multiset PyStr) := by
  cases h : q.has (key a) with
  | true =>
      rw [KeyedQueue.enqueue_of_has h]
      exact Multiset.le_cons_self _ _
  | false =>
      rw [KeyedQueue.enqueue_items_of_not_has h, List.map_append, List.map_singleton, coe_concat]

theorem issued_append (w : World) (d : AuditDraft) : issued (w.append d) = w.ids.head ::ₘ issued w := by
  have haudit : (w.append d).audit.map AuditEvent.eventId = w.audit.map AuditEvent.eventId ++ [w.ids.head] := by
    show (w.audit ++ [_]).map AuditEvent.eventId = _
    rw [List.map_append]
    rfl
  rw [issued, haudit, coe_concat, Multiset.cons_add, Multiset.cons_add]
  rfl

theorem issued_enqueueTriage (w : World) (m : IntakeMessage) (reason : ReasonCode) :
    issued (w.enqueueTriage m reason) ≤ w.ids.head ::ₘ issued w := by
  have hitem := map_enqueue_le w.triage (triageItem m reason w.ids.head) TriageItem.triageItemId
  rw [issued, issued, ← Multiset.cons_add, ← Multiset.add_cons]
  exact Multiset.add_le_add_right (Multiset.add_le_add_left hitem)

theorem issued_enqueueTask (w : World) (x : MessageId) (subtype : Option NewDeliverableSubtype)
    (missing : List MissingField) :
    issued { w.newId.2 with
        clarifications := (w.newId.2.clarifications.enqueue ⟨w.newId.1, x, subtype, missing⟩).2 }
      ≤ w.ids.head ::ₘ issued w := by
  have htask := map_enqueue_le w.clarifications ⟨w.newId.1, x, subtype, missing⟩ ClarificationTask.taskId
  rw [issued, issued, ← Multiset.add_cons]
  exact Multiset.add_le_add_left htask

theorem correlationIds_append (w : World) (d : AuditDraft) :
    correlationIds (w.append d) = insert d.correlationId (correlationIds w) := by
  have haudit : (w.append d).audit.map (fun e => e.correlationId)
      = w.audit.map (fun e => e.correlationId) ++ [d.correlationId] := by
    show (w.audit ++ [_]).map (fun e : AuditEvent => e.correlationId) = _
    rw [List.map_append]
    rfl
  rw [correlationIds, haudit, List.toFinset_append, Finset.union_comm]
  rfl

/-- An event with the correlation id in hand, which no other event has if it is about no message. -/
theorem Charged.append (h : Charged s others owner c w) {d : AuditDraft} (hc : d.correlationId = c)
    (hid : d.messageId = owner) (hnone : owner = none → c ∉ correlationIds w) :
    Charged s others owner c (w.append d) := by
  have haudit : (w.append d).audit = w.audit ++ [⟨d, w.ids.head, w.audit.length + 1, w.clock.head⟩] := rfl
  refine ⟨?_, ?_, ?_⟩
  · rw [correlationIds_append, hc, Finset.insert_idem]
    exact spent_cons h.spent (issued_append w d).le
  · intro e he e' he' hee
    rw [haudit] at he he'
    -- two old events, an old one and the new one, or the new one twice
    rcases List.mem_append.mp he with hold | hnew <;> rcases List.mem_append.mp he' with hold' | hnew'
    · exact h.separate e hold e' hold' hee
    · rw [List.mem_singleton] at hnew'
      subst hnew'
      have hmessage := (h.owned e hold (hee.trans hc)).trans hid.symm
      refine ⟨hmessage, fun hno => ?_⟩
      have hmem := mem_correlationIds hold
      rw [hee.trans hc] at hmem
      exact absurd hmem (hnone (hid.symm.trans (hmessage.symm.trans hno)))
    · rw [List.mem_singleton] at hnew
      subst hnew
      have hmessage := (h.owned e' hold' (hee.symm.trans hc)).trans hid.symm
      refine ⟨hmessage.symm, fun hno => ?_⟩
      have hmem := mem_correlationIds hold'
      rw [hee.symm.trans hc] at hmem
      exact absurd hmem (hnone (hid.symm.trans hno))
    · rw [List.mem_singleton.mp hnew, List.mem_singleton.mp hnew']
      exact ⟨rfl, fun _ => rfl⟩
  · intro e he hec
    rw [haudit] at he
    rcases List.mem_append.mp he with hold | hnew
    · exact h.owned e hold hec
    · rw [List.mem_singleton.mp hnew]
      exact hid

/-! ## Calls and requests -/

theorem accounted_threaded (hs : Function.Injective s.get) (env : Env) (m : IntakeMessage) :
    Threaded env m (Accounted s others) (Charged s others (some m.messageId)) where
  idle h := ⟨h.spent, h.separate⟩
  opened h := h.opened hs _
  resumed h he := h.resumed he
  closed h := h.closed
  now h := ⟨h.spent, h.separate, h.owned⟩
  append h hc hid := h.append hc hid nofun
  enqueueTriage reason h := ⟨spent_cons h.spent (issued_enqueueTriage _ m reason), h.separate, h.owned⟩
  enqueueTask subtype missing h :=
    ⟨spent_cons h.spent (issued_enqueueTask _ m.messageId subtype missing), h.separate, h.owned⟩
  classify _ h := ⟨h.spent, h.separate, h.owned⟩

theorem Accounted.registerCase (hs : Function.Injective s.get) (h : Accounted s others w) (env : Env)
    (e : EngagementId) (case : CaseId) : Accounted s others (registerCase env w e case).2 := by
  have hspec := registerCase_spec env w e case
  have hfresh : w.ids.head ∉ correlationIds w := by
    intro hmem
    refine h.spent.fresh hs (Multiset.mem_add.mpr (Or.inl (Multiset.mem_add.mpr (Or.inr ?_))))
    exact hmem
  have hopen : ∀ r, Charged s others none w.ids.head ({ w with registry := r } : World).newId.2 := fun r =>
    Accounted.opened hs (w := { w with registry := r }) ⟨h.spent, h.separate⟩ none
  generalize IntakeService.registerCase env w e case = x at hspec ⊢
  cases hspec with
  | refused => exact h
  | lost => exact (hopen _).closed
  | recorded => exact ((hopen _).append rfl rfl fun _ => hfresh).closed

/-- **A request keeps the account.** -/
theorem Accounted.step (hs : Function.Injective s.get) (h : Accounted s others w) (env : Env) (req : Request) :
    Accounted s others (system env w req).2 := by
  obtain ⟨call, clock⟩ := req
  have hstart : Accounted s others (w.during clock) := ⟨h.spent, h.separate⟩
  unfold system perform
  cases call with
  | message call => exact (accounted_threaded hs env call.message).serve hstart
  | registerCase e case => exact hstart.registerCase hs env e case
  | registry op =>
      dsimp only
      cases (w.during clock).registry.apply op with
      | error err => exact hstart
      | ok r => exact ⟨h.spent, h.separate⟩

end Account

/-! ## Screens -/

/-- The generated ids of a ledger. -/
def ledgerIds (ledger : FindingsLedger) : List PyStr :=
  ledger.records.map EvidenceRecord.recordId ++ ledger.findings.map Finding.findingId ++ [ledger.ledgerId]

theorem deriveFindings_taken (e : EvidenceWorld) (records : List EvidenceRecord) :
    (EvidenceService.deriveFindings e records).2.ids = e.ids.drop records.length
      ∧ (EvidenceService.deriveFindings e records).1.map Finding.findingId = e.ids.take records.length := by
  induction records generalizing e with
  | nil => exact ⟨rfl, rfl⟩
  | cons record rest ih =>
      obtain ⟨hids, htaken⟩ := ih (EvidenceService.deriveFinding e record).2
      refine ⟨hids.trans rfl, ?_⟩
      exact List.cons_eq_cons.mpr ⟨rfl, htaken⟩

/-- **A run draws ids, and stores a ledger made of some of them** or none. -/
theorem run_taken (env : EvidenceEnv) (registry : CaseRegistry) (fetch : Adapters) (e : EvidenceWorld)
    (manifest : CaseManifest) :
    ∃ n, (EvidenceService.run env registry fetch e manifest).2.ids = e.ids.drop n
      ∧ ((returned (EvidenceService.run env registry fetch e manifest).1).flatMap ledgerIds : Multiset PyStr)
        ≤ (e.ids.take n : Multiset PyStr) := by
  have hnone : ∃ n, e.ids = e.ids.drop n ∧ (([] : List PyStr) : Multiset PyStr) ≤ (e.ids.take n : Multiset PyStr) :=
    ⟨0, rfl, Multiset.zero_le _⟩
  cases hvalid : validateManifest env.sha256 manifest registry with
  | error err => rw [EvidenceService.run, hvalid]; exact hnone
  | ok reason =>
      cases reason with
      | some reason => rw [EvidenceService.run, hvalid]; exact hnone
      | none =>
          obtain ⟨n, hids, hrecords⟩ := attemptAll_ids env fetch manifest SourceId.all e
          rw [run_of_valid hvalid]
          generalize EvidenceService.attemptAll env fetch manifest e SourceId.all = x at hids hrecords ⊢
          obtain ⟨result, e₁⟩ := x
          cases result with
          | error err => exact ⟨n, hids, Multiset.zero_le _⟩
          | ok records =>
              obtain ⟨hids', hfindings⟩ := deriveFindings_taken e₁ records
              dsimp only at hids hrecords
              have hleft : (ledgerFrom manifest e₁ records).ledgerId = (e₁.ids.drop records.length).head := by
                rw [← hids']
                rfl
              -- records first, then findings, then the ledger
              have htaken : ledgerIds (ledgerFrom manifest e₁ records) = e.ids.take (n + (records.length + 1)) := by
                rw [ledgerIds, hleft, take_add, ← hids, take_add]
                have hr : (ledgerFrom manifest e₁ records).records.map EvidenceRecord.recordId = e.ids.take n :=
                  hrecords records rfl
                have hf : (ledgerFrom manifest e₁ records).findings.map Finding.findingId
                    = e₁.ids.take records.length := hfindings
                rw [hr, hf, List.append_assoc]
                rfl
              refine ⟨n + (records.length + 1), ?_, ?_⟩
              · show (EvidenceService.deriveFindings e₁ records).2.ids.tail = _
                rw [hids', hids, Stream'.drop_drop, Stream'.tail_drop']
                rfl
              · rw [← htaken]
                exact (congrArg _ (List.append_nil _)).le

/-! ## The whole system -/

/-- The generated ids of the evidence store. -/
def storeIds (o : Office) : Multiset PyStr := o.ledgers.flatMap ledgerIds

theorem accounted_office {s : Stream' PyStr} (hs : Function.Injective s.get) (env : OfficeEnv) (o : Office)
    (a : Assignment) (h : Accounted s (storeIds o) o.world) :
    Accounted s (storeIds (office env o a).2) (office env o a).2.world := by
  obtain ⟨job, clock⟩ := a
  cases job with
  | desk call => exact h.step hs env.desk ⟨call, clock⟩
  | screen manifest adapters =>
      rcases AdapterTable.ofMapping_cases adapters with ⟨text, htext⟩ | ⟨table, rfl⟩
      · rw [office_notConstructed env o manifest htext]
        exact ⟨h.spent, h.separate⟩
      let start : Office := { o with world := o.world.during clock }
      let ran := EvidenceService.run env.evidence o.world.registry table.fetch start.evidence manifest
      obtain ⟨n, hids, htaken⟩ := run_taken env.evidence o.world.registry table.fetch start.evidence manifest
      have hsaved := (screens_step env.evidence start.evidence ⟨manifest, o.world.registry, table.fetch⟩).1
      have hleft : (start.withEvidence ran.2).world.ids = o.world.ids.drop n := hids
      have hstored : storeIds (start.withEvidence ran.2) ≤ storeIds o + (o.world.ids.take n : Multiset PyStr) := by
        have hgrown : (start.withEvidence ran.2).ledgers = o.ledgers ++ returned ran.1 := hsaved
        rw [storeIds, hgrown, List.flatMap_append, ← Multiset.coe_add]
        exact Multiset.add_le_add_left htaken
      rw [office_screen]
      show Accounted s (storeIds (start.withEvidence ran.2)) (start.withEvidence ran.2).world
      refine ⟨?_, h.separate⟩
      rw [hleft]
      exact (h.spent.draw n).mono ((Multiset.add_le_add_left hstored).trans (Multiset.add_assoc ..).ge)

/--
**No id is used twice.**

Take any run of all three services, and a generator that never repeats itself. The
ids of all events, triage items, tasks, records, findings and ledgers, and the
correlation ids of the log, are all different. Events with one correlation id are
events of one message, and the event of a case registration has a correlation id
of its own.
-/
theorem ids_never_reused (env : OfficeEnv) (registry : CaseRegistry) (ids : Stream' PyStr)
    (hids : Function.Injective ids.get) (as : List Assignment) :
    let o := Machine.run (office env) (Office.init registry ids) as
    (issued o.world + (correlationIds o.world).val + storeIds o).Nodup ∧ Separate o.world := by
  intro o
  have hinit : Accounted ids (storeIds (Office.init registry ids)) (Office.init registry ids).world :=
    ⟨spent_nothing ids, fun e he => absurd he List.not_mem_nil⟩
  have hall : Accounted ids (storeIds o) o.world :=
    Machine.run_invariant (P := fun o => Accounted ids (storeIds o) o.world)
      (fun o a h => accounted_office hids env o a h) hinit as
  exact ⟨hall.spent.nodup hids, hall.separate⟩

/-- The generator of the sample draws longer and longer ids. -/
theorem sample_ids_injective : Function.Injective Sample.ids.get := by
  intro n m h
  have hlength := congrArg List.length h
  simpa [Sample.ids, Stream'.get] using hlength

/-- A proposal and its confirmation, with a screen in between. -/
theorem ids_never_reused_sample :
    let o := Machine.run (office Sample.officeEnv) (Office.init Sample.registry Sample.ids)
      [⟨.desk (.message (.propose (Sample.message "P" []) "text")), Stream'.const 0⟩,
        ⟨.screen Sample.manifest Sample.table.adapters, Stream'.const 0⟩,
        ⟨.desk (.message (.confirm (Sample.message "P" []) { reviewerId := "R" })), Stream'.const 0⟩]
    (issued o.world + (correlationIds o.world).val + storeIds o).Nodup ∧ Separate o.world :=
  ids_never_reused Sample.officeEnv Sample.registry Sample.ids sample_ids_injective _

end Intake.Proof
