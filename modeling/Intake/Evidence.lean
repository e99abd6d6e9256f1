import Intake.Manifest
import Intake.Lib.EventLog
import Mathlib.Data.Stream.Init

/-!
# The evidence service

The three sources, what they answer, and the service that runs a validated
manifest through them and stores the ledger.

A run draws ids, reads the clock and calls adapters one after the other, and may
raise in the middle: what it did until then is done. So every operation returns
the state it leaves together with its result or exception.
-/

namespace Intake

/-! ## Evidence types -/

/-- The three configured evidence sources. -/
inductive SourceId where
  | planningZoning
  | environmentalRegistry
  | utilityRto
  deriving DecidableEq, Repr

namespace SourceId

/-- Iteration over the enumeration, in execution order. -/
def all : List SourceId := [.planningZoning, .environmentalRegistry, .utilityRto]

def value : SourceId → PyStr
  | .planningZoning => "planning_zoning"
  | .environmentalRegistry => "environmental_registry"
  | .utilityRto => "utility_rto"

end SourceId

/-- The fail-closed status of one source query. -/
inductive EvidenceStatus where
  | found
  | notFound
  | unknown
  deriving DecidableEq, Repr

def EvidenceStatus.value : EvidenceStatus → PyStr
  | .found => "found"
  | .notFound => "not_found"
  | .unknown => "unknown"

/-- Whether a source answered for the whole query area. -/
inductive Coverage where
  | complete
  /-- `"partial"` -/
  | partialArea
  | missing
  deriving DecidableEq, Repr

/-- A `date`, by its ordinal. -/
abbrev Date := Int

/-- A fully validated query handed to one source adapter. -/
structure EvidenceQuery where
  sourceId : SourceId
  caseId : CaseId
  jurisdiction : PyStr
  geometry : SiteGeometry
  bufferM : PyFloat
  queryGeometryHash : PyStr
  crs : PyStr
  deriving DecidableEq, Repr

/-- What a source adapter returns. -/
structure AdapterResult where
  sourceId : SourceId
  status : EvidenceStatus
  coverage : Coverage
  request : PyStr
  raw : PyStr
  parserVersion : PyStr
  crs : PyStr
  asOf : Option Date := none
  deriving DecidableEq, Repr

/-- Immutable raw provenance for one source attempt. -/
structure EvidenceRecord where
  recordId : PyStr
  caseId : CaseId
  analysisVersion : PyStr
  manifestRevision : Int
  sourceId : SourceId
  status : EvidenceStatus
  coverage : Coverage
  request : PyStr
  rawHash : PyStr
  queryGeometryHash : PyStr
  parserVersion : PyStr
  crs : PyStr
  retrievedAt : Instant
  asOf : Option Date
  failureCode : Option PyStr
  deriving DecidableEq, Repr

/-- A derived finding that cites the evidence records it rests on. -/
structure Finding where
  findingId : PyStr
  sourceId : SourceId
  status : EvidenceStatus
  evidenceRecordIds : List PyStr
  summary : PyStr
  isExclusion : Bool
  deriving DecidableEq, Repr

/-- An immutable ledger tying findings to raw evidence for one manifest revision. -/
structure FindingsLedger where
  ledgerId : PyStr
  caseId : CaseId
  analysisVersion : PyStr
  manifestRevision : Int
  records : List EvidenceRecord
  findings : List Finding
  deriving DecidableEq, Repr

/-! ## Collaborators and state -/

/--
What a call of `fetch` does: raise an `Exception`, of which only the class name is
used, or return. The name is taken to be encodable. `type` rejects any other, so this
leaves out the exceptions whose metaclass overrides `__name__`.
-/
inductive Fetched where
  | raised (typeName : String)
  | returned (result : AdapterResult)
  deriving DecidableEq, Repr

/-- The configured adapters, one for each source, as they behave in one run. -/
abbrev Adapters := SourceId → EvidenceQuery → Fetched

/-- What the service is constructed with, besides the state it shares. -/
structure EvidenceEnv where
  /-- `hashlib.sha256(...).hexdigest()` -/
  sha256 : ByteArray → String
  /-- `str` of a float -/
  floatStr : PyFloat → String
  bufferM : PyFloat

/-- The store, the generated values still to come, and the calls made to adapters so far. -/
structure EvidenceWorld where
  /-- `InMemoryEvidenceStore._ledgers`, oldest first. -/
  ledgers : List FindingsLedger
  clock : Stream' Instant
  ids : Stream' PyStr
  calls : List EvidenceQuery

namespace EvidenceWorld

/-- An empty store. -/
def init (clock : Stream' Instant) (ids : Stream' PyStr) : EvidenceWorld := ⟨[], clock, ids, []⟩

/-- `IdGenerator.new_id` -/
def newId (w : EvidenceWorld) : PyStr × EvidenceWorld := (w.ids.head, { w with ids := w.ids.tail })

/-- `Clock.now` -/
def now (w : EvidenceWorld) : Instant × EvidenceWorld := (w.clock.head, { w with clock := w.clock.tail })

/-- `InMemoryEvidenceStore.save_ledger` -/
def saveLedger (w : EvidenceWorld) (ledger : FindingsLedger) : EvidenceWorld :=
  { w with ledgers := w.ledgers ++ [ledger] }

/-- `InMemoryEvidenceStore.ledger_for`: the newest ledger of the pair. -/
def ledgerFor (w : EvidenceWorld) (caseId : CaseId) (revision : Int) : Option FindingsLedger :=
  EventLog.latest (fun ledger => ledger.caseId = caseId && ledger.manifestRevision = revision) w.ledgers

end EvidenceWorld

/-! ## The service -/

namespace EvidenceService

/-- `_sha` -/
def sha (env : EvidenceEnv) (value : PyStr) : Option PyStr := PyStr.sha256Text env.sha256 value

/-- `_failure_envelope` -/
def failureEnvelope (sourceId : SourceId) (typeName : String) : PyStr :=
  PyStr.ofString "FAILURE|" ++ sourceId.value ++ PyStr.ofString "|" ++ PyStr.ofString typeName

/-- `_normalise` -/
def normalise (query : EvidenceQuery) (result : AdapterResult) : EvidenceStatus × Option PyStr :=
  if result.sourceId ≠ query.sourceId then
    (.unknown, some "source_mismatch")
  else if result.coverage ≠ .complete then
    (.unknown, some "incomplete_coverage")
  else
    (result.status, none)

/-- `_build_query` -/
def buildQuery (env : EvidenceEnv) (manifest : CaseManifest) (sourceId : SourceId) :
    Except ScreenError EvidenceQuery :=
  match geometryHash env.sha256 manifest.geometry with
  | none => .error .unicodeEncodeError
  | some hash =>
      match sha env (hash ++ PyStr.ofString "|buffer=" ++ PyStr.ofString (env.floatStr env.bufferM)) with
      | none => .error .unicodeEncodeError
      | some queryGeometryHash =>
          .ok
            { sourceId
              caseId := manifest.caseId
              jurisdiction := manifest.jurisdiction
              geometry := manifest.geometry
              bufferM := env.bufferM
              queryGeometryHash
              crs := manifest.geometry.crs }

/-- `_failure_record` -/
def failureRecord (env : EvidenceEnv) (w : EvidenceWorld) (manifest : CaseManifest) (query : EvidenceQuery)
    (typeName : String) (retrievedAt : Instant) : Except ScreenError EvidenceRecord × EvidenceWorld :=
  let (recordId, w) := w.newId
  match sha env (failureEnvelope query.sourceId typeName) with
  | none => (.error .unicodeEncodeError, w)
  | some rawHash =>
      (.ok
        { recordId
          caseId := manifest.caseId
          analysisVersion := manifest.analysisVersion
          manifestRevision := manifest.revision
          sourceId := query.sourceId
          status := .unknown
          coverage := .missing
          request := query.sourceId.value ++ PyStr.ofString ":" ++ query.queryGeometryHash
          rawHash
          queryGeometryHash := query.queryGeometryHash
          parserVersion := "n/a"
          crs := query.crs
          retrievedAt
          asOf := none
          failureCode := some (PyStr.ofString typeName) }, w)

/-- `_attempt` -/
def attempt (env : EvidenceEnv) (fetch : Adapters) (w : EvidenceWorld) (manifest : CaseManifest)
    (query : EvidenceQuery) : Except ScreenError EvidenceRecord × EvidenceWorld :=
  let (retrievedAt, w) := w.now
  let w := { w with calls := w.calls ++ [query] }
  match fetch query.sourceId query with
  | .raised typeName => failureRecord env w manifest query typeName retrievedAt
  | .returned result =>
      -- the status was normalised inside the `try`, the record is built outside of it
      let (status, failureCode) := normalise query result
      let (recordId, w) := w.newId
      match sha env result.raw with
      | none => (.error .unicodeEncodeError, w)
      | some rawHash =>
          (.ok
            { recordId
              caseId := manifest.caseId
              analysisVersion := manifest.analysisVersion
              manifestRevision := manifest.revision
              sourceId := query.sourceId
              status
              coverage := result.coverage
              request := result.request
              rawHash
              queryGeometryHash := query.queryGeometryHash
              parserVersion := result.parserVersion
              crs := result.crs
              retrievedAt
              asOf := result.asOf
              failureCode }, w)

/-- The records of some sources, in order; the first exception ends the iteration. -/
def attemptAll (env : EvidenceEnv) (fetch : Adapters) (manifest : CaseManifest) :
    EvidenceWorld → List SourceId → Except ScreenError (List EvidenceRecord) × EvidenceWorld
  | w, [] => (.ok [], w)
  | w, sourceId :: rest =>
      match buildQuery env manifest sourceId with
      | .error err => (.error err, w)
      | .ok query =>
          match attempt env fetch w manifest query with
          | (.error err, w) => (.error err, w)
          | (.ok record, w) =>
              match attemptAll env fetch manifest w rest with
              | (.error err, w) => (.error err, w)
              | (.ok records, w) => (.ok (record :: records), w)

/-- `_derive_finding` -/
def deriveFinding (w : EvidenceWorld) (record : EvidenceRecord) : Finding × EvidenceWorld :=
  let isUnknown : Bool := record.status = .unknown
  let (findingId, w) := w.newId
  ({ findingId
     sourceId := record.sourceId
     status := record.status
     evidenceRecordIds := [record.recordId]
     summary :=
       if isUnknown then "evidence gap"
       else record.sourceId.value ++ PyStr.ofString ":" ++ record.status.value
     isExclusion := isUnknown }, w)

/-- The findings of some records, in order. -/
def deriveFindings : EvidenceWorld → List EvidenceRecord → List Finding × EvidenceWorld
  | w, [] => ([], w)
  | w, record :: rest =>
      let (finding, w) := deriveFinding w record
      let (findings, w) := deriveFindings w rest
      (finding :: findings, w)

/-- `EvidenceService.run` -/
def run (env : EvidenceEnv) (registry : CaseRegistry) (fetch : Adapters) (w : EvidenceWorld)
    (manifest : CaseManifest) : Except ScreenError FindingsLedger × EvidenceWorld :=
  match validateManifest env.sha256 manifest registry with
  | .error err => (.error err, w)
  | .ok (some reason) => (.error (.manifestInvalid reason), w)
  | .ok none =>
      match attemptAll env fetch manifest w SourceId.all with
      | (.error err, w) => (.error err, w)
      | (.ok records, w) =>
          let (findings, w) := deriveFindings w records
          let (ledgerId, w) := w.newId
          let ledger : FindingsLedger :=
            { ledgerId
              caseId := manifest.caseId
              analysisVersion := manifest.analysisVersion
              manifestRevision := manifest.revision
              records
              findings }
          (.ok ledger, w.saveLedger ledger)

end EvidenceService

end Intake
