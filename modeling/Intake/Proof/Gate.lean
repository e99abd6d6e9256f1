import Intake.Proof.Rings
import Intake.Proof.Screen

/-!
# What the manifest gate admits

`validate_manifest` is a cascade: each check stops at its first failure, and later
checks lean on earlier ones. The range of a CRS is looked up without a default,
behind the check that the CRS is supported; the canonical text is encoded, behind
the same check.

So the gate never raises, it answers `None` for the valid manifests and no others,
and a reason can be taken at its word. A run that is refused has not begun.
-/

namespace Intake.Proof

open Polyline EvidenceService

/-- **A manifest that may be screened.** -/
structure ValidManifest (sha256 : ByteArray → String) (manifest : CaseManifest) (registry : CaseRegistry) :
    Prop where
  crs : manifest.geometry.crs ∈ supportedCrs
  nonempty : manifest.geometry.rings ≠ []
  rings : ∃ range, crsRanges.lookup manifest.geometry.crs = some range
    ∧ ∀ ring ∈ manifest.geometry.rings, ValidRing range ring
  hash : geometryHash sha256 manifest.geometry = some manifest.geometry.declaredHash
  jurisdiction : manifest.jurisdiction ∈ supportedJurisdictions
  /-- The registry maps the case to the engagement the manifest names. -/
  owner : registry.engagementForCase manifest.caseId = some manifest.engagementId

/-- What a reason says about a manifest. -/
def Defect (sha256 : ByteArray → String) (manifest : CaseManifest) (registry : CaseRegistry) :
    ManifestInvalidReason → Prop
  | .geometryNotClosed => ∃ ring ∈ manifest.geometry.rings, ¬ Closed ring
  | .geometryDegenerate => manifest.geometry.rings = []
      ∨ ∃ ring ∈ manifest.geometry.rings, ring.length < 4 ∨ ringArea ring = 0
  | .geometryOutOfRange => ∃ range, crsRanges.lookup manifest.geometry.crs = some range
      ∧ ∃ ring ∈ manifest.geometry.rings, ∃ p ∈ ring,
        ¬ ((range.loX ≤ p.1 ∧ p.1 ≤ range.hiX) ∧ range.loY ≤ p.2 ∧ p.2 ≤ range.hiY)
  | .unsupportedCrs => manifest.geometry.crs ∉ supportedCrs
  | .geometryHashMismatch => geometryHash sha256 manifest.geometry ≠ some manifest.geometry.declaredHash
  | .unsupportedJurisdiction => manifest.jurisdiction ∉ supportedJurisdictions
  | .registryMismatch => registry.engagementForCase manifest.caseId ≠ some manifest.engagementId

/-! ## The lookups behind the checks -/

/-- Every supported CRS has a range. -/
theorem crsRange_of_supported {crs : PyStr} (h : crs ∈ supportedCrs) :
    ∃ range, crsRanges.lookup crs = some range := by
  rw [List.mem_singleton.mp h]
  exact ⟨_, rfl⟩

/-- Every supported CRS can be encoded. -/
theorem geometryHash_of_supported {geometry : SiteGeometry} (h : geometry.crs ∈ supportedCrs)
    (sha256 : ByteArray → String) : ∃ hash, geometryHash sha256 geometry = some hash := by
  rw [← Option.isSome_iff_exists, geometryHash, PyStr.sha256Text_isSome, encodable_canonical,
    List.mem_singleton.mp h]
  exact PyStr.encodable_ofString _

/-! ## The rings -/

variable {sha256 : ByteArray → String} {manifest : CaseManifest} {registry : CaseRegistry}

/-- The reason a ring is refused for is true of that ring. -/
theorem defect_of_validateRing {range : CrsRange} (hrange : crsRanges.lookup manifest.geometry.crs = some range)
    {ring : Ring} (hring : ring ∈ manifest.geometry.rings) {reason : ManifestInvalidReason}
    (h : validateRing range ring = some reason) : Defect sha256 manifest registry reason := by
  unfold validateRing at h
  split_ifs at h with hclosed hlength hout harea
  · cases h
    refine ⟨ring, hring, fun hc => absurd hclosed ?_⟩
    simpa [List.isEmpty_iff, Closed] using hc
  · cases h
    exact Or.inr ⟨ring, hring, Or.inl hlength⟩
  · cases h
    obtain ⟨p, hp, hpout⟩ := List.any_eq_true.mp hout
    refine ⟨range, hrange, ring, hring, p, hp, fun hin => ?_⟩
    rw [contains_iff.mpr hin] at hpout
    cases hpout
  · cases h
    exact Or.inr ⟨ring, hring, Or.inr harea⟩

/-- With a supported CRS the rings are accepted, or refused for a reason that is true. -/
theorem validateRings_cases (sha256 : ByteArray → String) (registry : CaseRegistry)
    (hcrs : manifest.geometry.crs ∈ supportedCrs) :
    validateRings manifest.geometry = .ok none
      ∨ ∃ reason, validateRings manifest.geometry = .ok (some reason)
        ∧ Defect sha256 manifest registry reason := by
  obtain ⟨range, hrange⟩ := crsRange_of_supported hcrs
  unfold validateRings
  by_cases hempty : manifest.geometry.rings.isEmpty
  · rw [if_pos hempty]
    exact Or.inr ⟨_, rfl, Or.inl (List.isEmpty_iff.mp hempty)⟩
  · rw [if_neg hempty, hrange]
    dsimp only
    cases hfind : manifest.geometry.rings.findSome? (validateRing range) with
    | none => exact Or.inl rfl
    | some reason =>
        obtain ⟨ring, hring, hreason⟩ := List.exists_of_findSome?_eq_some hfind
        exact Or.inr ⟨reason, rfl, defect_of_validateRing hrange hring hreason⟩

/-! ## The gate -/

/-- **The gate answers**: a valid manifest is admitted, any other has the defect that is named. -/
theorem validateManifest_cases (sha256 : ByteArray → String) (manifest : CaseManifest) (registry : CaseRegistry) :
    (validateManifest sha256 manifest registry = .ok none ∧ ValidManifest sha256 manifest registry)
      ∨ ∃ reason, validateManifest sha256 manifest registry = .ok (some reason)
        ∧ Defect sha256 manifest registry reason := by
  unfold validateManifest
  by_cases hcrs : manifest.geometry.crs ∈ supportedCrs
  case neg =>
    rw [if_pos hcrs]
    exact Or.inr ⟨_, rfl, hcrs⟩
  rw [if_neg (not_not.mpr hcrs)]
  rcases validateRings_cases sha256 registry hcrs with hrings | ⟨reason, hrings, hdefect⟩
  case inr =>
    rw [hrings]
    exact Or.inr ⟨reason, rfl, hdefect⟩
  obtain ⟨hash, hhash⟩ := geometryHash_of_supported hcrs sha256
  rw [hrings, hhash]
  dsimp only
  -- from here on every check only compares
  by_cases hdeclared : hash = manifest.geometry.declaredHash
  case neg =>
    rw [if_pos hdeclared]
    refine Or.inr ⟨_, rfl, fun h => hdeclared ?_⟩
    exact Option.some.inj (hhash.symm.trans h)
  by_cases hjurisdiction : manifest.jurisdiction ∈ supportedJurisdictions
  case neg =>
    rw [if_neg (not_not.mpr hdeclared), if_pos hjurisdiction]
    exact Or.inr ⟨_, rfl, hjurisdiction⟩
  by_cases howner : registry.engagementForCase manifest.caseId = some manifest.engagementId
  case neg =>
    rw [if_neg (not_not.mpr hdeclared), if_neg (not_not.mpr hjurisdiction), if_pos howner]
    exact Or.inr ⟨_, rfl, howner⟩
  rw [if_neg (not_not.mpr hdeclared), if_neg (not_not.mpr hjurisdiction), if_neg (not_not.mpr howner)]
  obtain ⟨hnonempty, hvalid⟩ := validateRings_eq_none.mp hrings
  exact Or.inl ⟨rfl, hcrs, hnonempty, hvalid, hhash.trans (congrArg some hdeclared), hjurisdiction, howner⟩

/-- What is valid has none of the defects. -/
theorem ValidManifest.not_defect (h : ValidManifest sha256 manifest registry) (reason : ManifestInvalidReason) :
    ¬ Defect sha256 manifest registry reason := by
  intro hdefect
  obtain ⟨range, hrange, hrings⟩ := h.rings
  cases reason with
  | geometryNotClosed =>
      obtain ⟨ring, hring, hopen⟩ := hdefect
      exact hopen (hrings ring hring).closed
  | geometryDegenerate =>
      rcases hdefect with hempty | ⟨ring, hring, hlength | harea⟩
      · exact h.nonempty hempty
      · have := (hrings ring hring).length
        omega
      · exact (hrings ring hring).area harea
  | geometryOutOfRange =>
      obtain ⟨range', hrange', ring, hring, p, hp, hout⟩ := hdefect
      obtain rfl : range = range' := Option.some.inj (hrange.symm.trans hrange')
      exact hout ((hrings ring hring).inRange p hp)
  | unsupportedCrs => exact hdefect h.crs
  | geometryHashMismatch => exact hdefect h.hash
  | unsupportedJurisdiction => exact hdefect h.jurisdiction
  | registryMismatch => exact hdefect h.owner

theorem validateManifest_eq_none :
    validateManifest sha256 manifest registry = .ok none ↔ ValidManifest sha256 manifest registry := by
  rcases validateManifest_cases sha256 manifest registry with ⟨hnone, hvalid⟩ | ⟨reason, hsome, hdefect⟩
  · exact iff_of_true hnone hvalid
  · rw [hsome]
    exact iff_of_false (by simp) fun h => h.not_defect reason hdefect

theorem defect_of_validateManifest {reason : ManifestInvalidReason}
    (h : validateManifest sha256 manifest registry = .ok (some reason)) :
    Defect sha256 manifest registry reason := by
  rcases validateManifest_cases sha256 manifest registry with ⟨hnone, _⟩ | ⟨reason', hsome, hdefect⟩
  · rw [hnone] at h
    cases h
  · rw [hsome] at h
    cases h
    exact hdefect

/-! ## The run -/

theorem buildQuery_error {env : EvidenceEnv} {src : SourceId} {err : ScreenError}
    (h : buildQuery env manifest src = .error err) : err = .unicodeEncodeError := by
  unfold buildQuery at h
  cases hhash : geometryHash env.sha256 manifest.geometry with
  | none => rw [hhash] at h; cases h; rfl
  | some hash =>
      rw [hhash] at h
      dsimp only at h
      split at h <;> cases h
      rfl

theorem attempt_error {env : EvidenceEnv} {fetch : Adapters} {w : EvidenceWorld} {query : EvidenceQuery}
    {err : ScreenError} (h : (attempt env fetch w manifest query).1 = .error err) :
    err = .unicodeEncodeError := by
  unfold attempt at h
  cases hfetch : fetch query.sourceId query with
  | raised typeName =>
      rw [hfetch] at h
      dsimp only [failureRecord] at h
      cases hhash : sha env (failureEnvelope query.sourceId typeName) <;> rw [hhash] at h <;> cases h
      rfl
  | returned result =>
      rw [hfetch] at h
      dsimp only at h
      cases hhash : sha env result.raw <;> rw [hhash] at h <;> cases h
      rfl

/-- Whatever the sources answer, it can only make a run raise an encoding error. -/
theorem attemptAll_error {env : EvidenceEnv} {fetch : Adapters} {srcs : List SourceId} {w : EvidenceWorld}
    {err : ScreenError} (h : (attemptAll env fetch manifest w srcs).1 = .error err) :
    err = .unicodeEncodeError := by
  induction srcs generalizing w with
  | nil => cases h
  | cons src rest ih =>
      unfold attemptAll at h
      cases hquery : buildQuery env manifest src with
      | error err' =>
          rw [hquery] at h
          cases h
          exact buildQuery_error hquery
      | ok query =>
          rw [hquery] at h
          dsimp only at h
          cases hattempt : attempt env fetch w manifest query with
          | mk result w₁ =>
              rw [hattempt] at h
              cases result with
              | error err' =>
                  cases h
                  exact attempt_error (congrArg Prod.fst hattempt)
              | ok record =>
                  dsimp only at h
                  cases hrest : attemptAll env fetch manifest w₁ rest with
                  | mk restResult w₂ =>
                      rw [hrest] at h
                      cases restResult with
                      | error err' =>
                          cases h
                          exact ih (congrArg Prod.fst hrest)
                      | ok records => cases h

/-- A run is refused with the gate's reason, before it does anything. -/
theorem run_refused_iff (env : EvidenceEnv) (registry : CaseRegistry) (fetch : Adapters) (w : EvidenceWorld)
    (manifest : CaseManifest) (reason : ManifestInvalidReason) :
    (run env registry fetch w manifest).1 = .error (.manifestInvalid reason)
      ↔ validateManifest env.sha256 manifest registry = .ok (some reason) := by
  rcases validateManifest_cases env.sha256 manifest registry with ⟨hnone, _⟩ | ⟨reason', hsome, _⟩
  · rw [hnone]
    refine iff_of_false ?_ (by simp)
    intro h
    rw [run_of_valid hnone] at h
    cases hall : attemptAll env fetch manifest w SourceId.all with
    | mk result w₁ =>
        rw [hall] at h
        cases result with
        | ok records => cases h
        | error err =>
            have herr := attemptAll_error (congrArg Prod.fst hall)
            rw [herr] at h
            cases h
  · rw [run, hsome]
    simp

/--
**The gate admits the valid manifests, and nothing starts before it.**

For every registry and every manifest the gate answers: `None` exactly if the
manifest is valid, in every ring and every point, and otherwise with a reason that
is true of it. A run raises `ManifestInvalidError` with a reason exactly if that is
the gate's answer, and then the store, the ids, the clock and the calls of adapters
are what they were before.
-/
theorem gate_admits_valid (env : EvidenceEnv) (manifest : CaseManifest) (registry : CaseRegistry) :
    (∃ answer, validateManifest env.sha256 manifest registry = .ok answer)
      ∧ (validateManifest env.sha256 manifest registry = .ok none ↔ ValidManifest env.sha256 manifest registry)
      ∧ (∀ reason, validateManifest env.sha256 manifest registry = .ok (some reason) →
          Defect env.sha256 manifest registry reason)
      ∧ ∀ (fetch : Adapters) (w : EvidenceWorld) (reason : ManifestInvalidReason),
          ((run env registry fetch w manifest).1 = .error (.manifestInvalid reason)
              ↔ validateManifest env.sha256 manifest registry = .ok (some reason))
            ∧ (validateManifest env.sha256 manifest registry = .ok (some reason) →
              (run env registry fetch w manifest).2 = w) := by
  refine ⟨?_, validateManifest_eq_none, fun reason => defect_of_validateManifest, ?_⟩
  · rcases validateManifest_cases env.sha256 manifest registry with ⟨hnone, _⟩ | ⟨reason, hsome, _⟩
    · exact ⟨none, hnone⟩
    · exact ⟨some reason, hsome⟩
  · intro fetch w reason
    refine ⟨run_refused_iff env registry fetch w manifest reason, ?_⟩
    intro h
    rw [run, h]

/-- The square of the test suite passes; under another engagement its run is refused. -/
theorem gate_admits_sample :
    let foreign := { Sample.manifest with engagementId := "E2" }
    let call := run Sample.evidenceEnv Sample.registry (Sample.adapters .notFound "raw") Sample.evidenceWorld foreign
    ValidManifest Sample.evidenceEnv.sha256 Sample.manifest Sample.registry
      ∧ call.1 = .error (.manifestInvalid .registryMismatch) ∧ call.2 = Sample.evidenceWorld := by
  intro foreign call
  have hforeign : validateManifest Sample.evidenceEnv.sha256 foreign Sample.registry
      = .ok (some .registryMismatch) := by
    decide +kernel
  obtain ⟨hcall, hworld⟩ := (gate_admits_valid Sample.evidenceEnv foreign Sample.registry).2.2.2
    (Sample.adapters .notFound "raw") Sample.evidenceWorld .registryMismatch
  exact ⟨(gate_admits_valid Sample.evidenceEnv Sample.manifest Sample.registry).2.1.mp Sample.manifest_valid,
    hcall.mpr hforeign, hworld hforeign⟩

end Intake.Proof
