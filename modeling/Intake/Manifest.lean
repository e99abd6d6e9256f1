import Intake.Geometry
import Intake.Registry
import Mathlib.Algebra.Order.Ring.Rat
import Mathlib.Algebra.Order.Group.Unbundled.Abs

/-!
# The case manifest and its gate

A manifest describes the work for one case, and `validateManifest` decides whether
any source may be asked about it. The checks stop at the first failure, ring by
ring; two lookups in them could raise, and both stand behind a check that rules
that out.
-/

namespace Intake

def supportedJurisdictions : List PyStr := ["US-CA"]

/-- An immutable, versioned description of the work for one case. -/
structure CaseManifest where
  caseId : CaseId
  engagementId : EngagementId
  jurisdiction : PyStr
  geometry : SiteGeometry
  analysisVersion : PyStr
  revision : Int
  deriving DecidableEq, Repr

/-- Why a manifest failed validation. -/
inductive ManifestInvalidReason where
  | geometryNotClosed
  | geometryDegenerate
  | geometryOutOfRange
  | unsupportedCrs
  | geometryHashMismatch
  | unsupportedJurisdiction
  | registryMismatch
  deriving DecidableEq, Repr

/-- The exceptions of the gate, the handoff and the screen. -/
inductive ScreenError where
  /-- `KeyError(key)` -/
  | keyError (key : PyStr)
  | unicodeEncodeError
  /-- `ManifestInvalidError(reason)` -/
  | manifestInvalid (reason : ManifestInvalidReason)
  /-- `HandoffError(text)` -/
  | handoff (text : String)
  deriving DecidableEq, Repr

/-! ## The gate -/

/-- `_ring_area`: the shoelace formula. -/
def ringArea (ring : Ring) : ℚ :=
  |(ring.zip ring.tail).foldl (fun area (p, q) => area + (p.1 * q.2 - q.1 * p.2)) 0| / 2

/-- Whether a point lies in the range of a CRS. -/
def CrsRange.contains (range : CrsRange) (p : Point) : Bool :=
  (range.loX ≤ p.1 && p.1 ≤ range.hiX) && (range.loY ≤ p.2 && p.2 ≤ range.hiY)

/-- The checks of one ring, in order. -/
def validateRing (range : CrsRange) (ring : Ring) : Option ManifestInvalidReason :=
  if ring.isEmpty || ring.head? ≠ ring.getLast? then
    some .geometryNotClosed
  else if ring.length < 4 then
    some .geometryDegenerate
  else if ring.any fun p => !range.contains p then
    some .geometryOutOfRange
  else if ringArea ring = 0 then
    some .geometryDegenerate
  else
    none

/-- `_validate_rings` -/
def validateRings (geometry : SiteGeometry) : Except ScreenError (Option ManifestInvalidReason) :=
  if geometry.rings.isEmpty then
    .ok (some .geometryDegenerate)
  else
    match crsRanges.lookup geometry.crs with
    | none => .error (.keyError geometry.crs)
    | some range => .ok (geometry.rings.findSome? (validateRing range))

/-- `validate_manifest` -/
def validateManifest (sha256 : ByteArray → String) (manifest : CaseManifest) (registry : CaseRegistry) :
    Except ScreenError (Option ManifestInvalidReason) :=
  let geometry := manifest.geometry
  if geometry.crs ∉ supportedCrs then
    .ok (some .unsupportedCrs)
  else
    match validateRings geometry with
    | .error err => .error err
    | .ok (some reason) => .ok (some reason)
    | .ok none =>
        match geometryHash sha256 geometry with
        | none => .error .unicodeEncodeError
        | some hash =>
            if hash ≠ geometry.declaredHash then
              .ok (some .geometryHashMismatch)
            else if manifest.jurisdiction ∉ supportedJurisdictions then
              .ok (some .unsupportedJurisdiction)
            else if registry.engagementForCase manifest.caseId ≠ some manifest.engagementId then
              .ok (some .registryMismatch)
            else
              .ok none

/-! ## The handoff from the classification -/

/-- `create_due_diligence_manifest` -/
def createDueDiligenceManifest (outcome : ClassificationOutcome) (subtype : Option NewDeliverableSubtype)
    (caseId : CaseId) (engagementId : EngagementId) (jurisdiction : PyStr) (geometry : SiteGeometry)
    (analysisVersion : PyStr) : Except ScreenError CaseManifest :=
  if outcome ≠ .newDeliverableReady then
    .error (.handoff "handoff requires a ready new deliverable")
  else if subtype ≠ some .dueDiligence then
    .error (.handoff "handoff requires due diligence")
  else
    .ok { caseId, engagementId, jurisdiction, geometry, analysisVersion, revision := 1 }

/-! ## What a valid manifest satisfies -/

/-- A valid manifest names the one supported CRS, so its geometry can be hashed. -/
theorem crs_of_valid {sha256 : ByteArray → String} {manifest : CaseManifest} {registry : CaseRegistry}
    (h : validateManifest sha256 manifest registry = .ok none) :
    manifest.geometry.crs = PyStr.ofString "EPSG:4326" := by
  unfold validateManifest at h
  by_cases hcrs : manifest.geometry.crs ∈ supportedCrs
  · exact List.mem_singleton.mp hcrs
  · rw [if_pos hcrs] at h
    cases h

theorem geometryHash_of_valid {sha256 : ByteArray → String} {manifest : CaseManifest}
    {registry : CaseRegistry} (h : validateManifest sha256 manifest registry = .ok none) :
    ∃ hash, geometryHash sha256 manifest.geometry = some hash := by
  rw [← Option.isSome_iff_exists, geometryHash, PyStr.sha256Text_isSome, encodable_canonical,
    crs_of_valid h]
  exact PyStr.encodable_ofString _

end Intake
