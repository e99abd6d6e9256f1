import Intake.Proof.Vetting

/-!
# What the gate has said

The gate reads the manifest first and the registry last, and all it asks the registry
is who has the case. The manifest does not change, and a case that was registered
stays with its engagement.

So the gate takes back an answer in one case only. A manifest that was refused for
`REGISTRY_MISMATCH`, and for a case that nobody had registered, passes once the case
is registered under the engagement the manifest names. Every other refusal stands,
with the same reason, and so does every admission.
-/

namespace Intake.Proof

open EvidenceService

/-! ## What the registry has to say -/

section Gate

variable {sha256 : ByteArray → String} {manifest : CaseManifest}

theorem validateRing_ne (range : CrsRange) (ring : Ring) : validateRing range ring ≠ some .registryMismatch := by
  unfold validateRing
  split_ifs <;> simp

theorem validateRings_ne (geometry : SiteGeometry) : validateRings geometry ≠ .ok (some .registryMismatch) := by
  unfold validateRings
  by_cases hempty : geometry.rings.isEmpty
  · rw [if_pos hempty]
    simp
  · rw [if_neg hempty]
    cases crsRanges.lookup geometry.crs with
    | none => simp
    | some range =>
        intro h
        obtain ⟨ring, _, hring⟩ := List.exists_of_findSome?_eq_some (Except.ok.inj h)
        exact validateRing_ne range ring hring

/-- **The registry decides last, or not at all.** -/
theorem validateManifest_registry (sha256 : ByteArray → String) (manifest : CaseManifest) :
    (∃ reason, reason ≠ .registryMismatch
        ∧ ∀ registry, validateManifest sha256 manifest registry = .ok (some reason))
      ∨ ∀ registry, validateManifest sha256 manifest registry
        = .ok (if registry.engagementForCase manifest.caseId = some manifest.engagementId then none
          else some .registryMismatch) := by
  unfold validateManifest
  by_cases hcrs : manifest.geometry.crs ∈ supportedCrs
  case neg =>
    exact Or.inl ⟨.unsupportedCrs, by simp, fun registry => if_pos hcrs⟩
  simp only [if_neg (not_not.mpr hcrs)]
  have hmismatch := validateRings_ne manifest.geometry
  rcases validateRings_cases sha256 CaseRegistry.empty hcrs with hrings | ⟨reason, hrings, _⟩
  case inr =>
    rw [hrings] at hmismatch ⊢
    exact Or.inl ⟨reason, fun h => hmismatch (by rw [h]), fun _ => rfl⟩
  obtain ⟨hash, hhash⟩ := geometryHash_of_supported hcrs sha256
  rw [hrings, hhash]
  dsimp only
  by_cases hdeclared : hash = manifest.geometry.declaredHash
  case neg =>
    exact Or.inl ⟨.geometryHashMismatch, by simp, fun _ => if_pos hdeclared⟩
  by_cases hjurisdiction : manifest.jurisdiction ∈ supportedJurisdictions
  case neg =>
    refine Or.inl ⟨.unsupportedJurisdiction, by simp, fun _ => ?_⟩
    rw [if_neg (not_not.mpr hdeclared), if_pos hjurisdiction]
  refine Or.inr fun registry => ?_
  rw [if_neg (not_not.mpr hdeclared), if_neg (not_not.mpr hjurisdiction)]
  by_cases howner : registry.engagementForCase manifest.caseId = some manifest.engagementId
  · rw [if_neg (not_not.mpr howner), if_pos howner]
  · rw [if_pos howner, if_neg howner]

end Gate

/-! ## Refusals in a run -/

/-- Every service there could be refuses the manifest with this reason, whatever its adapters and the clock. -/
def Refused (env : OfficeEnv) (o : Office) (manifest : CaseManifest) (reason : ManifestInvalidReason) : Prop :=
  ∀ (table : AdapterTable) clock,
    (office env o ⟨.screen manifest table.adapters, clock⟩).1 = .screen (.error (.manifestInvalid reason))

theorem refused_iff {env : OfficeEnv} {o : Office} {manifest : CaseManifest} {reason : ManifestInvalidReason} :
    Refused env o manifest reason
      ↔ validateManifest env.sha256 manifest o.world.registry = .ok (some reason) := by
  have hone : ∀ (table : AdapterTable) clock,
      (office env o ⟨.screen manifest table.adapters, clock⟩).1 = .screen (.error (.manifestInvalid reason))
        ↔ validateManifest env.sha256 manifest o.world.registry = .ok (some reason) := by
    intro table clock
    rw [office_screen]
    refine Iff.trans ?_ (run_refused_iff env.evidence o.world.registry table.fetch
      (({ o with world := o.world.during clock } : Office).evidence) manifest reason)
    exact ⟨fun h => Answer.screen.inj h, congrArg Answer.screen⟩
  exact ⟨fun h => (hone (.ofFetch fun _ _ => .raised "") o.world.clock).mp (h _ _), fun h table clock =>
    (hone table clock).mpr h⟩

/--
**A refusal stands, unless the case was still to be registered.**

Compare any two moments of any run of all three services. A refusal for a defect of
the manifest itself, or of a case that is registered, is repeated with its reason. A
manifest that is not refused is never refused later. And a manifest that was refused
for its case is refused later exactly if the case does not belong to the engagement
it names then, and for that reason again.
-/
theorem refusal_stands (env : OfficeEnv) (registry : CaseRegistry) (ids : Stream' PyStr) (pre more : List Assignment)
    (manifest : CaseManifest) :
    let o := Machine.run (office env) (Office.init registry ids) pre
    let o' := Machine.run (office env) o more
    (∀ reason, Refused env o manifest reason →
        reason ≠ .registryMismatch ∨ manifest.caseId ∈ o.world.registry.cases → Refused env o' manifest reason)
      ∧ ((∀ reason, ¬ Refused env o manifest reason) → ∀ reason, ¬ Refused env o' manifest reason)
      ∧ (Refused env o manifest .registryMismatch → ∀ reason, Refused env o' manifest reason
        ↔ reason = .registryMismatch
          ∧ o'.world.registry.engagementForCase manifest.caseId ≠ some manifest.engagementId) := by
  intro o o'
  have hkept : ∀ e, o.world.registry.engagementForCase manifest.caseId = some e →
      o'.world.registry.engagementForCase manifest.caseId = some e := fun e he => engagementForCase_office he more
  simp only [refused_iff]
  rcases validateManifest_registry env.sha256 manifest with ⟨reason', hne, hsame⟩ | hregistry
  · -- a defect of the manifest itself
    simp only [hsame]
    refine ⟨fun reason h _ => h, fun h => h, fun h => absurd (Option.some.inj (Except.ok.inj h)) hne⟩
  · -- the registry decides, now and later
    simp only [hregistry]
    by_cases hnow : o.world.registry.engagementForCase manifest.caseId = some manifest.engagementId
    · rw [if_pos hnow, if_pos (hkept _ hnow)]
      exact ⟨fun reason h _ => h, fun h => h, by simp⟩
    · rw [if_neg hnow]
      by_cases hlater : o'.world.registry.engagementForCase manifest.caseId = some manifest.engagementId
      · rw [if_pos hlater]
        refine ⟨fun reason h hor => ?_, fun h => absurd rfl (h .registryMismatch), fun _ reason => by simp [hlater]⟩
        obtain rfl : ManifestInvalidReason.registryMismatch = reason := Option.some.inj (Except.ok.inj h)
        -- the case belonged to another engagement, and still does
        rcases hor with hor | hor
        · exact absurd rfl hor
        · obtain ⟨e, he⟩ := Option.isSome_iff_exists.mp (AList.lookup_isSome.mpr hor)
          have hsame : some e = some manifest.engagementId := (hkept e he).symm.trans hlater
          exact absurd (he.trans hsame) hnow
      · rw [if_neg hlater]
        refine ⟨fun reason h _ => h, fun h => h, fun _ reason => ?_⟩
        simp [hlater, eq_comm]

end Intake.Proof
