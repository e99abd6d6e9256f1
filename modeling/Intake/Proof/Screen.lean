import Intake.Evidence
import Intake.System
import Mathlib.Data.List.Forall2

/-!
# When a screen completes

A run of a valid manifest asks the three sources one after the other, and what it
records of a source is a function of that source's own answer. `soloRecord` is
that function: an attempt made in an otherwise empty world.

One thing can stop the run. The raw payload of an answer is hashed after the
`try` that was meant to turn every failure of a source into `UNKNOWN`, and a
payload with a lone surrogate cannot be encoded. `screened_iff` says that nothing
else can: the run completes exactly when every payload it is handed can be hashed.
-/

namespace Intake.Sample

/-! ## The manifest of the test suite -/

/-- The unit square. -/
def square : Ring := [(0, 0), (0, 1), (1, 1), (1, 0), (0, 0)]

def geometry : SiteGeometry :=
  { crs := "EPSG:4326", rings := [square], accuracy := "indicative", declaredHash := "sha256:" }

def manifest : CaseManifest :=
  { caseId := "CASE-1", engagementId := "E", jurisdiction := "US-CA", geometry, analysisVersion := "v1"
    revision := 1 }

def evidenceEnv : EvidenceEnv := { sha256 := fun _ => "", floatStr := fun _ => "100.0", bufferM := ⟨0⟩ }

def evidenceWorld : EvidenceWorld := EvidenceWorld.init (Stream'.const 0) ids

/-- Every source answers for itself, with one status and one payload. -/
def adapters (status : EvidenceStatus) (raw : PyStr) : Adapters := fun src query =>
  .returned
    { sourceId := src, status, coverage := .complete, request := "GET", raw
      parserVersion := "1", crs := query.crs }

theorem manifest_valid : validateManifest (fun _ => "") manifest registry = .ok none := by
  decide +kernel

end Intake.Sample

namespace Intake.Proof

open EvidenceService

/-! ## One source -/

/-- An answer the service can record: the raw payload of a result has to be encodable. -/
def Recordable : Fetched → Prop
  | .raised _ => True
  | .returned result => PyStr.Encodable result.raw

/-- A record without generated id and retrieval time. -/
def recordCore (r : EvidenceRecord) : EvidenceRecord := { r with recordId := [], retrievedAt := 0 }

/-- A finding without generated ids. -/
def findingCore (f : Finding) : Finding :=
  { f with findingId := [], evidenceRecordIds := f.evidenceRecordIds.map fun _ => [] }

/-- A world with nothing in it, whose generated values are blank. -/
def blankWorld : EvidenceWorld := EvidenceWorld.init (Stream'.const 0) (Stream'.const [])

/-- The record of a source, from its own answer alone. -/
def soloRecord (env : EvidenceEnv) (manifest : CaseManifest) (query : EvidenceQuery) (answer : Fetched) :
    Except ScreenError EvidenceRecord :=
  (attempt env (fun _ _ => answer) blankWorld manifest query).1

/-- The finding derived from a record. -/
def soloFinding (record : EvidenceRecord) : Finding := (deriveFinding blankWorld record).1

theorem failureEnvelope_encodable (src : SourceId) (typeName : String) :
    PyStr.Encodable (failureEnvelope src typeName) := by
  have hvalue : PyStr.Encodable src.value := by cases src <;> exact PyStr.encodable_ofString _
  simp only [failureEnvelope, PyStr.encodable_append]
  exact ⟨⟨⟨PyStr.encodable_ofString _, hvalue⟩, PyStr.encodable_ofString _⟩, PyStr.encodable_ofString _⟩

/-- **An attempt depends on the answer of its own source**, generated values apart. -/
theorem attempt_solo (env : EvidenceEnv) (fetch : Adapters) (w : EvidenceWorld) (manifest : CaseManifest)
    (query : EvidenceQuery) :
    (attempt env fetch w manifest query).1.map recordCore
        = soloRecord env manifest query (fetch query.sourceId query)
      ∧ (attempt env fetch w manifest query).2.ledgers = w.ledgers
      ∧ (attempt env fetch w manifest query).2.calls = w.calls ++ [query] := by
  unfold soloRecord attempt
  cases fetch query.sourceId query with
  | raised typeName =>
      dsimp only
      unfold failureRecord
      cases sha env (failureEnvelope query.sourceId typeName) with
      | none => exact ⟨rfl, rfl, rfl⟩
      | some rawHash => exact ⟨rfl, rfl, rfl⟩
  | returned result =>
      dsimp only
      cases sha env result.raw with
      | none => exact ⟨rfl, rfl, rfl⟩
      | some rawHash => exact ⟨rfl, rfl, rfl⟩

/-- An answer is recorded exactly if it can be. -/
theorem soloRecord_ok_iff {env : EvidenceEnv} {manifest : CaseManifest} {query : EvidenceQuery}
    {answer : Fetched} : (∃ r, soloRecord env manifest query answer = .ok r) ↔ Recordable answer := by
  unfold soloRecord attempt
  cases answer with
  | raised typeName =>
      obtain ⟨rawHash, hhash⟩ : ∃ h, sha env (failureEnvelope query.sourceId typeName) = some h :=
        Option.isSome_iff_exists.mp
          (PyStr.sha256Text_isSome.mpr (failureEnvelope_encodable query.sourceId typeName))
      dsimp only [failureRecord]
      rw [hhash]
      exact ⟨fun _ => trivial, fun _ => ⟨_, rfl⟩⟩
  | returned result =>
      have hiff : (sha env result.raw).isSome ↔ PyStr.Encodable result.raw := PyStr.sha256Text_isSome
      dsimp only
      cases hhash : sha env result.raw with
      | none =>
          rw [hhash] at hiff
          -- the record could not be built, and the payload could not be encoded
          refine ⟨?_, fun h => absurd (hiff.mpr h) (by simp)⟩
          intro h
          obtain ⟨r, hr⟩ := h
          cases hr
      | some rawHash =>
          rw [hhash] at hiff
          exact ⟨fun _ => hiff.mp rfl, fun _ => ⟨_, rfl⟩⟩

/-- A record is filed under the source that was asked, whatever the answer says. -/
theorem soloRecord_sourceId {env : EvidenceEnv} {manifest : CaseManifest} {query : EvidenceQuery}
    {answer : Fetched} {r : EvidenceRecord} (h : soloRecord env manifest query answer = .ok r) :
    r.sourceId = query.sourceId := by
  unfold soloRecord attempt at h
  cases answer with
  | raised typeName =>
      dsimp only [failureRecord] at h
      cases hhash : sha env (failureEnvelope query.sourceId typeName) <;> rw [hhash] at h <;> cases h
      rfl
  | returned result =>
      dsimp only at h
      cases hhash : sha env result.raw <;> rw [hhash] at h <;> cases h
      rfl

/-! ## The queries of a valid manifest -/

/-- **A valid manifest has a query for every source.** -/
theorem buildQuery_of_valid {env : EvidenceEnv} {manifest : CaseManifest} {registry : CaseRegistry}
    (h : validateManifest env.sha256 manifest registry = .ok none) :
    ∃ query : SourceId → EvidenceQuery,
      ∀ src, buildQuery env manifest src = .ok (query src) ∧ (query src).sourceId = src := by
  obtain ⟨hash, hhash⟩ := geometryHash_of_valid h
  have hencodable : PyStr.Encodable
      (hash ++ PyStr.ofString "|buffer=" ++ PyStr.ofString (env.floatStr env.bufferM)) := by
    simp only [PyStr.encodable_append]
    exact ⟨⟨PyStr.encodable_of_sha256Text hhash, PyStr.encodable_ofString _⟩, PyStr.encodable_ofString _⟩
  have hsome : (sha env (hash ++ PyStr.ofString "|buffer="
      ++ PyStr.ofString (env.floatStr env.bufferM))).isSome := PyStr.sha256Text_isSome.mpr hencodable
  obtain ⟨queryHash, hquery⟩ := Option.isSome_iff_exists.mp hsome
  refine ⟨fun src => ⟨src, manifest.caseId, manifest.jurisdiction, manifest.geometry, env.bufferM,
    queryHash, manifest.geometry.crs⟩, fun src => ⟨?_, rfl⟩⟩
  simp only [buildQuery, hhash, hquery]

/-! ## All sources -/

/-- The sources are asked before anything is stored, also when the iteration ends early. -/
theorem attemptAll_ledgers (env : EvidenceEnv) (fetch : Adapters) (manifest : CaseManifest)
    (srcs : List SourceId) (w : EvidenceWorld) :
    (attemptAll env fetch manifest w srcs).2.ledgers = w.ledgers := by
  induction srcs generalizing w with
  | nil => rfl
  | cons src rest ih =>
      unfold attemptAll
      cases buildQuery env manifest src with
      | error err => rfl
      | ok query =>
          have hledgers := (attempt_solo env fetch w manifest query).2.1
          dsimp only
          generalize attempt env fetch w manifest query = x at hledgers ⊢
          obtain ⟨result, w₁⟩ := x
          cases result with
          | error err => exact hledgers
          | ok record =>
              have hrest := (ih w₁).trans hledgers
              dsimp only
              generalize attemptAll env fetch manifest w₁ rest = y at hrest ⊢
              obtain ⟨restResult, w₂⟩ := y
              cases restResult <;> exact hrest

section AllSources

variable {env : EvidenceEnv} {manifest : CaseManifest} {query : SourceId → EvidenceQuery}
  (hquery : ∀ src, buildQuery env manifest src = .ok (query src) ∧ (query src).sourceId = src)

include hquery

/-- **What an iteration that ends leaves**: a record for every source, in order. -/
theorem attemptAll_ok {fetch : Adapters} {srcs : List SourceId} {w w' : EvidenceWorld}
    {records : List EvidenceRecord} (h : attemptAll env fetch manifest w srcs = (.ok records, w')) :
    List.Forall₂ (fun src r => soloRecord env manifest (query src) (fetch src (query src)) = .ok (recordCore r))
        srcs records
      ∧ w'.calls = w.calls ++ srcs.map query := by
  induction srcs generalizing w w' records with
  | nil =>
      obtain ⟨hrecords, rfl⟩ := Prod.mk.inj h
      rw [← Except.ok.inj hrecords]
      exact ⟨List.Forall₂.nil, (List.append_nil _).symm⟩
  | cons src rest ih =>
      simp only [attemptAll, (hquery src).1] at h
      obtain ⟨hsolo, _, hcalls⟩ := attempt_solo env fetch w manifest (query src)
      rw [(hquery src).2] at hsolo
      generalize attempt env fetch w manifest (query src) = x at h hsolo hcalls
      obtain ⟨result, w₁⟩ := x
      cases result with
      -- an attempt that raised would have ended the iteration
      | error err => cases (Prod.mk.inj h).1
      | ok record =>
          dsimp only at h hsolo hcalls
          cases hrest : attemptAll env fetch manifest w₁ rest with
          | mk restResult w₂ =>
              rw [hrest] at h
              cases restResult with
              | error err => cases (Prod.mk.inj h).1
              | ok restRecords =>
                  obtain ⟨hall, hcalls'⟩ := ih hrest
                  obtain ⟨hrecords, rfl⟩ := Prod.mk.inj h
                  rw [← Except.ok.inj hrecords]
                  refine ⟨List.Forall₂.cons hsolo.symm hall, ?_⟩
                  rw [hcalls', hcalls, List.map_cons, List.append_assoc, List.singleton_append]

/-- **The iteration ends exactly if every answer can be recorded.** -/
theorem attemptAll_ok_iff (fetch : Adapters) (srcs : List SourceId) (w : EvidenceWorld) :
    (∃ records w', attemptAll env fetch manifest w srcs = (.ok records, w'))
      ↔ ∀ src ∈ srcs, Recordable (fetch src (query src)) := by
  induction srcs generalizing w with
  | nil => exact ⟨fun _ src hsrc => absurd hsrc List.not_mem_nil, fun _ => ⟨[], w, rfl⟩⟩
  | cons src rest ih =>
      have hstep : (∃ record, (attempt env fetch w manifest (query src)).1 = .ok record)
          ↔ Recordable (fetch src (query src)) := by
        rw [← @soloRecord_ok_iff env manifest (query src)]
        have hsolo := (attempt_solo env fetch w manifest (query src)).1
        rw [(hquery src).2] at hsolo
        rw [← hsolo]
        cases (attempt env fetch w manifest (query src)).1 with
        | error err => simp [Except.map]
        | ok record => simp [Except.map]
      simp only [attemptAll, (hquery src).1]
      rw [List.forall_mem_cons, ← hstep]
      generalize attempt env fetch w manifest (query src) = x
      obtain ⟨result, w₁⟩ := x
      cases result with
      | error err => simp
      | ok record =>
          rw [← ih w₁]
          cases hrest : attemptAll env fetch manifest w₁ rest with
          | mk restResult w₂ => cases restResult <;> simp [hrest]

end AllSources

/-- The findings follow the records one by one, and only draw ids. -/
theorem deriveFindings_solo (w : EvidenceWorld) (records : List EvidenceRecord) :
    List.Forall₂ (fun r f => findingCore f = findingCore (soloFinding (recordCore r)))
        records (deriveFindings w records).1
      ∧ (deriveFindings w records).2.ledgers = w.ledgers
      ∧ (deriveFindings w records).2.calls = w.calls := by
  induction records generalizing w with
  | nil => exact ⟨List.Forall₂.nil, rfl, rfl⟩
  | cons record rest ih =>
      obtain ⟨hall, hledgers, hcalls⟩ := ih (deriveFinding w record).2
      exact ⟨List.Forall₂.cons rfl hall, hledgers, hcalls⟩

/-! ## The whole run -/

/-- What the repository calls a completed screen, source by source. -/
structure Screened (env : EvidenceEnv) (registry : CaseRegistry) (fetch : Adapters) (w : EvidenceWorld)
    (manifest : CaseManifest) (query : SourceId → EvidenceQuery) (ledger : FindingsLedger)
    (w' : EvidenceWorld) : Prop where
  /-- The run returns a ledger. -/
  returned : run env registry fetch w manifest = (.ok ledger, w')
  /-- It is the one ledger saved. -/
  saved : w'.ledgers = w.ledgers ++ [ledger]
  /-- Each adapter was called once, in order. -/
  called : w'.calls = w.calls ++ SourceId.all.map query
  /-- The record of a source is a function of its own answer. -/
  records : List.Forall₂ (fun src r =>
    soloRecord env manifest (query src) (fetch src (query src)) = .ok (recordCore r) ∧ r.sourceId = src)
    SourceId.all ledger.records
  /-- So is the finding of a source. -/
  findings : List.Forall₂ (fun src f =>
    (soloRecord env manifest (query src) (fetch src (query src))).map (fun r => findingCore (soloFinding r))
      = .ok (findingCore f) ∧ f.sourceId = src)
    SourceId.all ledger.findings

/-- The ledger of some records, assembled in the world they left. -/
def ledgerFrom (manifest : CaseManifest) (w : EvidenceWorld) (records : List EvidenceRecord) :
    FindingsLedger where
  ledgerId := (deriveFindings w records).2.newId.1
  caseId := manifest.caseId
  analysisVersion := manifest.analysisVersion
  manifestRevision := manifest.revision
  records := records
  findings := (deriveFindings w records).1

/-- The run of a valid manifest saves whatever the iteration over the sources returns. -/
theorem run_of_valid {env : EvidenceEnv} {registry : CaseRegistry} {manifest : CaseManifest}
    (hvalid : validateManifest env.sha256 manifest registry = .ok none) (fetch : Adapters) (w : EvidenceWorld) :
    run env registry fetch w manifest =
      match attemptAll env fetch manifest w SourceId.all with
      | (.error err, w) => (.error err, w)
      | (.ok records, w) =>
          (.ok (ledgerFrom manifest w records),
            (deriveFindings w records).2.newId.2.saveLedger (ledgerFrom manifest w records)) := by
  rw [run, hvalid]
  rfl

/-- Two pointwise relations, one after the other. -/
theorem forall₂_comp {α β γ : Type} {R : α → β → Prop} {S : β → γ → Prop} {T : α → γ → Prop}
    (hT : ∀ a b c, R a b → S b c → T a c) {l : List α} {m : List β} {n : List γ}
    (h₁ : List.Forall₂ R l m) (h₂ : List.Forall₂ S m n) : List.Forall₂ T l n := by
  induction h₁ generalizing n with
  | nil => cases h₂; exact List.Forall₂.nil
  | cons hR _ ih =>
      cases h₂ with
      | cons hS hrest => exact List.Forall₂.cons (hT _ _ _ hR hS) (ih hrest)

/-- **Every iteration that ends is completed to a screen.** -/
theorem screened_of_ok {env : EvidenceEnv} {registry : CaseRegistry} {manifest : CaseManifest}
    {query : SourceId → EvidenceQuery}
    (hvalid : validateManifest env.sha256 manifest registry = .ok none)
    (hquery : ∀ src, buildQuery env manifest src = .ok (query src) ∧ (query src).sourceId = src)
    {fetch : Adapters} {w w₁ : EvidenceWorld} {records : List EvidenceRecord}
    (h : attemptAll env fetch manifest w SourceId.all = (.ok records, w₁)) :
    Screened env registry fetch w manifest query (ledgerFrom manifest w₁ records)
      ((deriveFindings w₁ records).2.newId.2.saveLedger (ledgerFrom manifest w₁ records)) := by
  obtain ⟨hrecords, hcalls⟩ := attemptAll_ok hquery h
  have hledgers : w₁.ledgers = w.ledgers := by
    have hall := attemptAll_ledgers env fetch manifest SourceId.all w
    rw [h] at hall
    exact hall
  obtain ⟨hfindings, hledgers', hcalls'⟩ := deriveFindings_solo w₁ records
  have hsource : ∀ {src : SourceId} {r : EvidenceRecord},
      soloRecord env manifest (query src) (fetch src (query src)) = .ok (recordCore r) → r.sourceId = src :=
    fun hsolo => (soloRecord_sourceId hsolo).trans (hquery _).2
  refine ⟨?_, ?_, ?_, ?_, ?_⟩
  · rw [run_of_valid hvalid, h]
  · exact congrArg (· ++ [_]) (hledgers'.trans hledgers)
  · exact hcalls'.trans hcalls
  · exact hrecords.imp fun _ _ hsolo => ⟨hsolo, hsource hsolo⟩
  · -- a finding is derived from its record, and the record from the answer
    refine forall₂_comp (fun src r f hsolo hf => ⟨?_, ?_⟩) hrecords hfindings
    · rw [hsolo, hf]; rfl
    · exact (congrArg Finding.sourceId hf).trans (hsource hsolo)

/--
**When a screen completes.**

Run a valid manifest against adapters that raise or answer as they like. There is
one query for each source, and the run is a completed screen, in which every
source is recorded by its own answer, exactly when no answer carries a raw payload
that cannot be encoded.
-/
theorem screened_iff (env : EvidenceEnv) (registry : CaseRegistry) (fetch : Adapters) (w : EvidenceWorld)
    (manifest : CaseManifest) (hvalid : validateManifest env.sha256 manifest registry = .ok none) :
    ∃ query : SourceId → EvidenceQuery,
      (∀ src, buildQuery env manifest src = .ok (query src) ∧ (query src).sourceId = src)
        ∧ ((∃ ledger w', Screened env registry fetch w manifest query ledger w')
          ↔ ∀ src result, fetch src (query src) = .returned result → PyStr.Encodable result.raw) := by
  obtain ⟨query, hquery⟩ := buildQuery_of_valid hvalid
  have hrecordable : (∀ src ∈ SourceId.all, Recordable (fetch src (query src)))
      ↔ ∀ src result, fetch src (query src) = .returned result → PyStr.Encodable result.raw := by
    refine ⟨?_, ?_⟩
    · intro h src result hfetch
      have hsrc : src ∈ SourceId.all := by cases src <;> decide
      have hr := h src hsrc
      rw [hfetch] at hr
      exact hr
    · intro h src _
      cases hfetch : fetch src (query src) with
      | raised typeName => trivial
      | returned result => exact h src result hfetch
  refine ⟨query, hquery, ?_⟩
  rw [← hrecordable, ← attemptAll_ok_iff hquery fetch SourceId.all w]
  refine ⟨?_, ?_⟩
  · intro hcompletes
    obtain ⟨ledger, w', hscreened⟩ := hcompletes
    have hrun := hscreened.returned
    rw [run_of_valid hvalid] at hrun
    cases hall : attemptAll env fetch manifest w SourceId.all with
    | mk result w₁ =>
        cases result with
        | ok records => exact ⟨records, w₁, rfl⟩
        | error err =>
            rw [hall] at hrun
            cases (Prod.mk.inj hrun).1
  · intro hends
    obtain ⟨records, w₁, hall⟩ := hends
    exact ⟨_, _, screened_of_ok hvalid hquery hall⟩

/-- Three plain answers make a completed screen. -/
theorem screened_plain :
    ∃ query : SourceId → EvidenceQuery, ∃ ledger w',
      Screened Sample.evidenceEnv Sample.registry (Sample.adapters .notFound "raw") Sample.evidenceWorld
        Sample.manifest query ledger w' := by
  obtain ⟨query, _, hiff⟩ := screened_iff Sample.evidenceEnv Sample.registry (Sample.adapters .notFound "raw")
    Sample.evidenceWorld Sample.manifest Sample.manifest_valid
  refine ⟨query, hiff.mpr fun src result h => ?_⟩
  rw [← Fetched.returned.inj h]
  exact PyStr.encodable_ofString _

/-- A payload with a lone surrogate raises out of the run, and nothing is saved. -/
theorem screened_surrogate :
    let call := run Sample.evidenceEnv Sample.registry (Sample.adapters .notFound [.surrogate 0])
      Sample.evidenceWorld Sample.manifest
    validateManifest Sample.evidenceEnv.sha256 Sample.manifest Sample.registry = .ok none
      ∧ call.1 = .error .unicodeEncodeError ∧ call.2.ledgers = [] := by
  decide +kernel

end Intake.Proof
