import Intake.Lib.Supply
import Intake.Proof.Snapshot

/-!
# Stored evidence is fail-closed

A source can raise, answer for another source, cover only part of the area, or
report any status it likes. Whatever it does, the record says `UNKNOWN` unless the
source's own answer was complete and said otherwise, and the finding says what the
record says.

Findings cite records by generated ids, so a citation is only as good as the id
source. The ids of all stored records are a sublist of what was drawn from it.
-/

namespace Intake.Proof

open EvidenceService EventLog Supply

/-! ## One record, one finding -/

/-- A status other than `UNKNOWN` survives only from a complete answer of the right source. -/
theorem normalise_status {query : EvidenceQuery} {result : AdapterResult} {s : EvidenceStatus}
    (hs : s ≠ .unknown) :
    (normalise query result).1 = s
      ↔ result.sourceId = query.sourceId ∧ result.coverage = .complete ∧ result.status = s := by
  unfold normalise
  split_ifs with hsource hcoverage
  · exact ⟨fun h => absurd h.symm hs, fun h => absurd h.1 hsource⟩
  · exact ⟨fun h => absurd h.symm hs, fun h => absurd h.2.1 hcoverage⟩
  · exact ⟨fun h => ⟨not_not.mp hsource, not_not.mp hcoverage, h⟩, fun h => h.2.2⟩

/-- A failure code comes with `UNKNOWN`. -/
theorem normalise_failed {query : EvidenceQuery} {result : AdapterResult} {code : PyStr}
    (h : (normalise query result).2 = some code) : (normalise query result).1 = .unknown := by
  unfold normalise at h ⊢
  split_ifs at h ⊢
  · rfl
  · rfl

/-- What a record says about the answer it was made from. -/
structure RecordOf (manifest : CaseManifest) (query : EvidenceQuery) (answer : Fetched)
    (r : EvidenceRecord) : Prop where
  filed : r.caseId = manifest.caseId ∧ r.manifestRevision = manifest.revision
    ∧ r.analysisVersion = manifest.analysisVersion
  status : ∀ s, s ≠ .unknown → (r.status = s ↔ ∃ result, answer = .returned result
    ∧ result.sourceId = query.sourceId ∧ result.coverage = .complete ∧ result.status = s)
  failed : ∀ code, r.failureCode = some code → r.status = .unknown

theorem recordOf_of_solo {env : EvidenceEnv} {manifest : CaseManifest} {query : EvidenceQuery}
    {answer : Fetched} {r : EvidenceRecord} (h : soloRecord env manifest query answer = .ok r) :
    RecordOf manifest query answer r := by
  unfold soloRecord attempt at h
  cases answer with
  | raised typeName =>
      dsimp only [failureRecord] at h
      cases hhash : sha env (failureEnvelope query.sourceId typeName) <;> rw [hhash] at h <;> cases h
      refine ⟨⟨rfl, rfl, rfl⟩, fun s hs => ⟨fun hstatus => absurd hstatus.symm hs, ?_⟩, fun _ _ => rfl⟩
      intro h
      obtain ⟨result, hresult, _⟩ := h
      cases hresult
  | returned result =>
      dsimp only at h
      cases hhash : sha env result.raw <;> rw [hhash] at h <;> cases h
      refine ⟨⟨rfl, rfl, rfl⟩, fun s hs => (normalise_status hs).trans ?_, fun _ hcode => normalise_failed hcode⟩
      refine ⟨?_, ?_⟩
      · intro hresult
        exact ⟨result, rfl, hresult⟩
      · intro h
        obtain ⟨_, hreturned, hresult⟩ := h
        rw [Fetched.returned.inj hreturned]
        exact hresult

/-- The finding of a record. -/
structure Cites (r : EvidenceRecord) (f : Finding) : Prop where
  cited : f.evidenceRecordIds = [r.recordId]
  sourceId : f.sourceId = r.sourceId
  status : f.status = r.status
  exclusion : f.isExclusion = true ↔ r.status = .unknown

theorem deriveFindings_cites (w : EvidenceWorld) (records : List EvidenceRecord) :
    List.Forall₂ Cites records (deriveFindings w records).1 := by
  induction records generalizing w with
  | nil => exact List.Forall₂.nil
  | cons record rest ih =>
      have hcites : Cites record (deriveFinding w record).1 := ⟨rfl, rfl, rfl, decide_eq_true_iff⟩
      exact List.Forall₂.cons hcites (ih (deriveFinding w record).2)

/-! ## One ledger -/

/-- **A fail-closed ledger** for a manifest and the adapters it was screened with. -/
structure FailClosed (env : EvidenceEnv) (manifest : CaseManifest) (fetch : Adapters)
    (ledger : FindingsLedger) : Prop where
  /-- One record for each source, in order. -/
  sources : ledger.records.map EvidenceRecord.sourceId = SourceId.all
  filed : ∀ r ∈ ledger.records, r.caseId = manifest.caseId ∧ r.manifestRevision = manifest.revision
    ∧ r.analysisVersion = manifest.analysisVersion
  /-- `FOUND` and `NOT_FOUND` are what the source itself said of the whole area; all else is `UNKNOWN`. -/
  status : ∀ r ∈ ledger.records, ∃ query, buildQuery env manifest r.sourceId = .ok query
    ∧ ∀ s, s ≠ .unknown → (r.status = s ↔ ∃ result, fetch r.sourceId query = .returned result
      ∧ result.sourceId = r.sourceId ∧ result.coverage = .complete ∧ result.status = s)
  failed : ∀ r ∈ ledger.records, ∀ code, r.failureCode = some code → r.status = .unknown
  /-- One finding for each record, in order. -/
  findings : List.Forall₂ Cites ledger.records ledger.findings

/-- What a run that returned did. -/
theorem run_ok {env : EvidenceEnv} {registry : CaseRegistry} {fetch : Adapters} {w : EvidenceWorld}
    {manifest : CaseManifest} {ledger : FindingsLedger}
    (h : (run env registry fetch w manifest).1 = .ok ledger) :
    validateManifest env.sha256 manifest registry = .ok none
      ∧ ∃ records w₁, attemptAll env fetch manifest w SourceId.all = (.ok records, w₁)
        ∧ ledger = ledgerFrom manifest w₁ records := by
  cases hvalid : validateManifest env.sha256 manifest registry with
  | error err => rw [run, hvalid] at h; cases h
  | ok reason =>
      cases reason with
      | some reason => rw [run, hvalid] at h; cases h
      | none =>
          rw [run_of_valid hvalid] at h
          cases hall : attemptAll env fetch manifest w SourceId.all with
          | mk result w₁ =>
              rw [hall] at h
              cases result with
              | error err => cases h
              | ok records => exact ⟨rfl, records, w₁, rfl, (Except.ok.inj h).symm⟩

/-- **Whatever the adapters do, a returned ledger is fail-closed.** -/
theorem failClosed_of_returned {env : EvidenceEnv} {registry : CaseRegistry} {fetch : Adapters}
    {w : EvidenceWorld} {manifest : CaseManifest} {ledger : FindingsLedger}
    (h : (run env registry fetch w manifest).1 = .ok ledger) : FailClosed env manifest fetch ledger := by
  obtain ⟨hvalid, records, w₁, hall, rfl⟩ := run_ok h
  obtain ⟨query, hquery⟩ := buildQuery_of_valid hvalid
  have hrecords := (attemptAll_ok hquery hall).1
  have hsource : List.Forall₂ (fun src (r : EvidenceRecord) => src = r.sourceId) SourceId.all records :=
    hrecords.imp fun src r hsolo => ((soloRecord_sourceId hsolo).trans (hquery src).2).symm
  -- the record of a source was made from that source's answer to its own query
  have hanswer : ∀ r ∈ records, RecordOf manifest (query r.sourceId)
      (fetch r.sourceId (query r.sourceId)) (recordCore r) := by
    intro r hr
    obtain ⟨n, hn, rfl⟩ := List.mem_iff_getElem.mp hr
    have hn' : n < SourceId.all.length := hrecords.length_eq ▸ hn
    have hsolo := hrecords.get hn' hn
    have hsrc := hsource.get hn' hn
    rw [List.get_eq_getElem, List.get_eq_getElem] at hsolo hsrc
    rw [← hsrc]
    exact recordOf_of_solo hsolo
  refine ⟨?_, fun r hr => (hanswer r hr).filed, fun r hr => ?_, fun r hr => (hanswer r hr).failed,
    deriveFindings_cites w₁ records⟩
  · show records.map EvidenceRecord.sourceId = SourceId.all
    have hmap : List.Forall₂ (· = ·) SourceId.all (records.map EvidenceRecord.sourceId) :=
      List.forall₂_map_right_iff.mpr hsource
    exact (List.forall₂_eq_eq_eq ▸ hmap).symm
  · refine ⟨query r.sourceId, (hquery r.sourceId).1, fun s hs => ?_⟩
    have hstatus := (hanswer r hr).status s hs
    rw [(hquery r.sourceId).2] at hstatus
    exact hstatus

/-! ## The ids of the store -/

/-- An attempt draws one id, whether it is recorded or not. -/
theorem attempt_ids (env : EvidenceEnv) (fetch : Adapters) (w : EvidenceWorld) (manifest : CaseManifest)
    (query : EvidenceQuery) :
    (attempt env fetch w manifest query).2.ids = w.ids.drop 1
      ∧ ∀ r, (attempt env fetch w manifest query).1 = .ok r → r.recordId = w.ids.head := by
  unfold attempt
  cases fetch query.sourceId query with
  | raised typeName =>
      dsimp only
      unfold failureRecord
      cases sha env (failureEnvelope query.sourceId typeName) with
      | none => exact ⟨rfl, fun r hr => by cases hr⟩
      | some rawHash => exact ⟨rfl, fun r hr => by rw [← Except.ok.inj hr]; rfl⟩
  | returned result =>
      dsimp only
      cases sha env result.raw with
      | none => exact ⟨rfl, fun r hr => by cases hr⟩
      | some rawHash => exact ⟨rfl, fun r hr => by rw [← Except.ok.inj hr]; rfl⟩

/-- **The records of an iteration carry the ids it drew**, in order. -/
theorem attemptAll_ids (env : EvidenceEnv) (fetch : Adapters) (manifest : CaseManifest)
    (srcs : List SourceId) (w : EvidenceWorld) :
    ∃ n, (attemptAll env fetch manifest w srcs).2.ids = w.ids.drop n
      ∧ ∀ records, (attemptAll env fetch manifest w srcs).1 = .ok records →
        records.map EvidenceRecord.recordId = w.ids.take n := by
  induction srcs generalizing w with
  | nil => exact ⟨0, rfl, fun records h => by rw [← Except.ok.inj h]; rfl⟩
  | cons src rest ih =>
      unfold attemptAll
      cases buildQuery env manifest src with
      | error err => exact ⟨0, rfl, fun records h => by cases h⟩
      | ok query =>
          obtain ⟨hids, hrecord⟩ := attempt_ids env fetch w manifest query
          dsimp only
          generalize attempt env fetch w manifest query = x at hids hrecord ⊢
          obtain ⟨result, w₁⟩ := x
          cases result with
          | error err => exact ⟨1, hids, fun records h => by cases h⟩
          | ok record =>
              obtain ⟨n, hids', hrecords⟩ := ih w₁
              have hdrawn : w₁.ids.drop n = w.ids.drop (1 + n) := by rw [hids, Stream'.drop_drop]
              dsimp only at hids hrecord ⊢
              generalize attemptAll env fetch manifest w₁ rest = y at hids' hrecords ⊢
              obtain ⟨restResult, w₂⟩ := y
              cases restResult with
              | error err => exact ⟨1 + n, hids'.trans hdrawn, fun records h => by cases h⟩
              | ok restRecords =>
                  refine ⟨1 + n, hids'.trans hdrawn, fun records h => ?_⟩
                  rw [← Except.ok.inj h, List.map_cons, hrecord record rfl, hrecords restRecords rfl, hids,
                    take_add]
                  rfl

theorem deriveFindings_ids (w : EvidenceWorld) (records : List EvidenceRecord) :
    ∃ n, (deriveFindings w records).2.ids = w.ids.drop n := by
  induction records generalizing w with
  | nil => exact ⟨0, rfl⟩
  | cons record rest ih =>
      obtain ⟨n, hids⟩ := ih (deriveFinding w record).2
      exact ⟨1 + n, hids.trans (Stream'.drop_drop ..)⟩

/-- The ids of all records of some ledgers. -/
def recordIds (ledgers : List FindingsLedger) : List PyStr :=
  ledgers.flatMap fun ledger => ledger.records.map EvidenceRecord.recordId

/-- **A run draws ids, and stores records under some of them.** -/
theorem screens_ids (env : EvidenceEnv) (w : EvidenceWorld) (req : ScreenRequest) :
    ∃ n, (screens env w req).2.ids = w.ids.drop n
      ∧ List.Sublist (recordIds (returned (screens env w req).1)) (w.ids.take n) := by
  obtain ⟨manifest, registry, fetch⟩ := req
  unfold screens
  dsimp only
  cases hvalid : validateManifest env.sha256 manifest registry with
  | error err => rw [run, hvalid]; exact ⟨0, rfl, List.nil_sublist _⟩
  | ok reason =>
      cases reason with
      | some reason => rw [run, hvalid]; exact ⟨0, rfl, List.nil_sublist _⟩
      | none =>
          obtain ⟨n, hids, hrecords⟩ := attemptAll_ids env fetch manifest SourceId.all w
          rw [run_of_valid hvalid]
          generalize attemptAll env fetch manifest w SourceId.all = x at hids hrecords ⊢
          obtain ⟨result, w₁⟩ := x
          cases result with
          | error err => exact ⟨n, hids, List.nil_sublist _⟩
          | ok records =>
              obtain ⟨m, hids'⟩ := deriveFindings_ids w₁ records
              dsimp only at hids hids'
              refine ⟨n + (m + 1), ?_, ?_⟩
              · show (deriveFindings w₁ records).2.ids.tail = _
                rw [hids', hids, Stream'.drop_drop, Stream'.tail_drop']
                rfl
              · have hsaved : recordIds [ledgerFrom manifest w₁ records] = w.ids.take n := by
                  rw [← hrecords records rfl]
                  exact List.append_nil _
                show List.Sublist (recordIds [ledgerFrom manifest w₁ records]) _
                rw [hsaved, take_add]
                exact List.sublist_append_left _ _

/-- The stored record ids, among those drawn from a source so far. -/
def Drawn (ids : Stream' PyStr) (w : EvidenceWorld) : Prop :=
  ∃ n, w.ids = ids.drop n ∧ List.Sublist (recordIds w.ledgers) (ids.take n)

theorem drawn_step {env : EvidenceEnv} {ids : Stream' PyStr} {w : EvidenceWorld} (h : Drawn ids w)
    (req : ScreenRequest) : Drawn ids (screens env w req).2 := by
  obtain ⟨n, hids, hsub⟩ := h
  obtain ⟨m, hids', hsub'⟩ := screens_ids env w req
  refine ⟨n + m, by rw [hids', hids, Stream'.drop_drop], ?_⟩
  rw [(screens_step env w req).1, recordIds, List.flatMap_append, take_add, ← hids]
  exact hsub.append hsub'

/-! ## The store -/

/--
**Every stored ledger is fail-closed.**

Take any sequence of runs, with any manifests and any adapters. Every ledger in
the store was returned by one of the runs, and is fail-closed for the manifest and
the adapters of that run. If ids are never repeated, no two records of the store
share one, and a finding cites the record it stands beside and no other.
-/
theorem ledgers_fail_closed (env : EvidenceEnv) (clock : Stream' Instant) (ids : Stream' PyStr)
    (reqs : List ScreenRequest) :
    let w := Machine.run (screens env) (EvidenceWorld.init clock ids) reqs
    (∀ ledger ∈ w.ledgers, ∃ pre req post, reqs = pre ++ req :: post
        ∧ (screens env (Machine.run (screens env) (EvidenceWorld.init clock ids) pre) req).1 = .ok ledger
        ∧ FailClosed env req.manifest req.fetch ledger)
      ∧ (Function.Injective ids.get →
        (recordIds w.ledgers).Nodup
          ∧ ∀ ledger ∈ w.ledgers, ∀ (i j : Nat) (r : EvidenceRecord) (f : Finding),
            ledger.records[i]? = some r → ledger.findings[j]? = some f →
            (r.recordId ∈ f.evidenceRecordIds ↔ i = j)) := by
  intro w
  have horigin : ∀ ledger ∈ w.ledgers, ∃ pre req post, reqs = pre ++ req :: post
      ∧ (screens env (Machine.run (screens env) (EvidenceWorld.init clock ids) pre) req).1 = .ok ledger
      ∧ FailClosed env req.manifest req.fetch ledger := by
    intro ledger hledger
    rcases Machine.run_origin (fun w req => (screens_step env w req).1) hledger with h | ⟨pre, req, post, hcut, h⟩
    · exact absurd h List.not_mem_nil
    have hreturned : (screens env (Machine.run (screens env) (EvidenceWorld.init clock ids) pre) req).1
        = .ok ledger := by
      generalize (screens env (Machine.run (screens env) (EvidenceWorld.init clock ids) pre) req).1 = reply at h ⊢
      cases reply with
      | error err => exact absurd h List.not_mem_nil
      | ok saved => rw [List.mem_singleton.mp h]
    exact ⟨pre, req, post, hcut, hreturned, failClosed_of_returned hreturned⟩
  refine ⟨horigin, fun hfresh => ?_⟩
  have hinit : Drawn ids (EvidenceWorld.init clock ids) := ⟨0, rfl, List.nil_sublist _⟩
  obtain ⟨n, _, hsub⟩ : Drawn ids w :=
    Machine.run_invariant (P := Drawn ids) (fun _ req h => drawn_step h req) hinit reqs
  have hnodup : (recordIds w.ledgers).Nodup := (nodup_take hfresh n).sublist hsub
  refine ⟨hnodup, ?_⟩
  intro ledger hledger i j r f hr hf
  obtain ⟨_, _, _, _, _, hclosed⟩ := horigin ledger hledger
  have hnodup' : (ledger.records.map EvidenceRecord.recordId).Nodup :=
    (List.nodup_flatMap.mp hnodup).1 ledger hledger
  -- the finding at `j` cites the record at `j`, whose id no other record has
  obtain ⟨hj, rfl⟩ := List.getElem?_eq_some_iff.mp hf
  have hj' : j < ledger.records.length := hclosed.findings.length_eq ▸ hj
  have hcites := (hclosed.findings.get hj' hj).cited
  rw [List.get_eq_getElem, List.get_eq_getElem] at hcites
  obtain ⟨hi, rfl⟩ := List.getElem?_eq_some_iff.mp hr
  rw [hcites, List.mem_singleton]
  refine ⟨?_, ?_⟩
  · intro hid
    have hrecord := List.inj_on_of_nodup_map hnodup' (List.getElem_mem hi) (List.getElem_mem hj') hid
    exact (List.Nodup.of_map _ hnodup').getElem_inj_iff.mp hrecord
  · intro hij
    subst hij
    rfl

end Intake.Proof
