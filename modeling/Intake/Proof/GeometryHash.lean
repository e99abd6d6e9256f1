import Intake.Lib.Separated
import Intake.Proof.Gate
import Intake.Proof.Rendering

/-!
# What a geometry hash identifies

The hashed text is a list of rings, a ring a list of points, a point two numbers,
with a separator of its own at each level. None of them occurs in a rendered
number, so the text can be read back, except that no rings are written like one
empty ring. The gate admits neither.

In the other direction the text is finer than the docstring says. The content of a
geometry is hashed with six decimals, but the sign of a coordinate is hashed as it
is: where a coordinate rounds to zero, two geometries that are equal at that
precision have different hashes, and the hash declared for one is refused for the
other.
-/

namespace Intake.Sample

/-- `str` of the buffers 100.0 and 250.0, and of any other float its bits. -/
def floatStr (x : PyFloat) : String :=
  if x.bits = 0x4059000000000000 then "100.0"
  else if x.bits = 0x406f400000000000 then "250.0"
  else "bits " ++ Nat.repr x.bits.toNat

/-- The hash of the geometry of the test suite. -/
def sealedHash : PyStr := (geometryHash hexdigest manifest.geometry).getD []

/-- The manifest of the test suite for some case, with that hash declared. -/
def sealedManifest (caseId : CaseId) (engagementId : EngagementId) : CaseManifest :=
  { manifest with caseId, engagementId, geometry := { manifest.geometry with declaredHash := sealedHash } }

def hexEvidenceEnv : EvidenceEnv := { sha256 := hexdigest, floatStr, bufferM := ⟨0x4059000000000000⟩ }

end Intake.Sample

namespace Intake.Proof

open Separated EvidenceService

/-! ## Points, rings, geometries -/

/-- Two points with the same six-decimal rendering. -/
def SamePoint (p q : Point) : Prop := fixed6 p.1 = fixed6 q.1 ∧ fixed6 p.2 = fixed6 q.2

/-- **The same CRS, as many rings, as many points in each, all rendered alike.** -/
def SameRendering (g g' : SiteGeometry) : Prop :=
  g.crs = g'.crs ∧ List.Forall₂ (List.Forall₂ SamePoint) g.rings g'.rings

theorem renderPoint_eq_iff {p q : Point} : renderPoint p = renderPoint q ↔ SamePoint p q := by
  have hcolon : ∀ x, PyChar.scalar ':' ∉ fixed6 x :=
    fun x => notMem_fixed6 x (by decide) (by decide) (by decide)
  unfold renderPoint SamePoint
  rw [List.append_assoc, List.append_assoc, List.singleton_append, List.singleton_append]
  refine ⟨fun h => first_inj (hcolon _) (hcolon _) h, ?_⟩
  intro h
  rw [h.1, h.2]

theorem notMem_renderPoint (p : Point) {c : Char} (hdigit : c.isDigit = false) (hpoint : c ≠ '.') (hminus : c ≠ '-')
    (hcolon : c ≠ ':') : PyChar.scalar c ∉ renderPoint p := by
  intro h
  unfold renderPoint at h
  rcases List.mem_append.mp h with h | h
  · rcases List.mem_append.mp h with h | h
    · exact notMem_fixed6 p.1 hdigit hpoint hminus h
    · exact hcolon (PyChar.scalar.inj (List.mem_singleton.mp h))
  · exact notMem_fixed6 p.2 hdigit hpoint hminus h

theorem renderRing_eq_nil {ring : Ring} (h : renderRing ring = []) : ring = [] := by
  cases ring with
  | nil => rfl
  | cons p ring =>
      have hne : renderPoint p ≠ [] := by
        unfold renderPoint
        simp
      unfold renderRing PyStr.join at h
      cases ring with
      | nil =>
          rw [List.map_cons, List.map_nil, List.intercalate_singleton] at h
          exact absurd h hne
      | cons q ring =>
          rw [List.map_cons, List.map_cons, List.intercalate_cons_cons, List.append_assoc] at h
          exact absurd (List.append_eq_nil_iff.mp h).1 hne

/-- A ring is written like its points, also if it has none. -/
theorem renderRing_eq_iff {ring ring' : Ring} :
    renderRing ring = renderRing ring' ↔ List.Forall₂ SamePoint ring ring' := by
  have hcomma : ∀ p, PyChar.scalar ',' ∉ renderPoint p :=
    fun p => notMem_renderPoint p (by decide) (by decide) (by decide) (by decide)
  have hpoints : List.Forall₂ (fun p q => renderPoint p = renderPoint q) ring ring'
      ↔ List.Forall₂ SamePoint ring ring' :=
    ⟨fun h => h.imp fun _ _ => renderPoint_eq_iff.mp, fun h => h.imp fun _ _ => renderPoint_eq_iff.mpr⟩
  rw [← hpoints]
  refine ⟨?_, ?_⟩
  · intro h
    have hempty : ring = [] ↔ ring' = [] := by
      refine ⟨?_, ?_⟩
      · intro hnil
        rw [hnil] at h
        exact renderRing_eq_nil h.symm
      · intro hnil
        rw [hnil] at h
        exact renderRing_eq_nil h
    exact (intercalate_eq_iff hcomma hempty).mp h
  · intro h
    have hempty : ring = [] ↔ ring' = [] := by
      rw [← List.length_eq_zero_iff, ← List.length_eq_zero_iff, h.length_eq]
    exact (intercalate_eq_iff hcomma hempty).mpr h

theorem notMem_renderRing (ring : Ring) : PyChar.scalar ';' ∉ renderRing ring := by
  intro h
  rcases mem_intercalate h with hc | ⟨s, hs, hc⟩
  · exact absurd hc (by decide)
  · obtain ⟨p, _, rfl⟩ := List.mem_map.mp hs
    exact notMem_renderPoint p (by decide) (by decide) (by decide) (by decide) hc

/-- **Two geometries of one CRS are written alike exactly if they are rendered alike**, unless one has no rings. -/
theorem canonical_eq_iff {g g' : SiteGeometry} (hcrs : g.crs = g'.crs) (hempty : g.rings = [] ↔ g'.rings = []) :
    canonical g = canonical g' ↔ SameRendering g g' := by
  have hrings : List.Forall₂ (fun r r' => renderRing r = renderRing r') g.rings g'.rings
      ↔ List.Forall₂ (List.Forall₂ SamePoint) g.rings g'.rings :=
    ⟨fun h => h.imp fun _ _ => renderRing_eq_iff.mp, fun h => h.imp fun _ _ => renderRing_eq_iff.mpr⟩
  unfold canonical SameRendering
  rw [hcrs, List.append_cancel_left_eq]
  unfold PyStr.join
  rw [intercalate_eq_iff notMem_renderRing hempty, hrings]
  exact (and_iff_right rfl).symm

/-! ## The two hashes -/

variable {sha256 : ByteArray → String}

/-- The declared hash is not hashed. -/
theorem geometryHash_congr {g g' : SiteGeometry} (hcrs : g.crs = g'.crs) (hrings : g.rings = g'.rings) :
    geometryHash sha256 g = geometryHash sha256 g' := by
  unfold geometryHash canonical
  rw [hcrs, hrings]

theorem geometryHash_inj (hsha : Function.Injective sha256) {g g' : SiteGeometry} {hash : PyStr}
    (h : geometryHash sha256 g = some hash) (h' : geometryHash sha256 g' = some hash) : canonical g = canonical g' :=
  PyStr.sha256Text_inj hsha h h'

/-- A hex digest has no bar in it. -/
theorem bar_notMem_hash (hhex : ∀ bytes, ∀ c ∈ (sha256 bytes).toList, c ∈ PyStr.hexDigits) {s hash : PyStr}
    (h : PyStr.sha256Text sha256 s = some hash) : PyChar.scalar '|' ∉ hash := by
  obtain ⟨bytes, _, rfl⟩ := Option.map_eq_some_iff.mp h
  intro hbar
  rcases List.mem_append.mp hbar with hbar | hbar
  · exact absurd hbar (by decide)
  · obtain ⟨c, hc, hcbar⟩ := List.mem_map.mp hbar
    rw [PyChar.scalar.inj hcbar] at hc
    exact absurd (hhex bytes _ hc) (by decide)

theorem buildQuery_ok {env : EvidenceEnv} {manifest : CaseManifest} {src : SourceId} {query : EvidenceQuery}
    (h : buildQuery env manifest src = .ok query) : ∃ hash, geometryHash env.sha256 manifest.geometry = some hash
      ∧ sha env (hash ++ PyStr.ofString "|buffer=" ++ PyStr.ofString (env.floatStr env.bufferM))
        = some query.queryGeometryHash := by
  unfold buildQuery at h
  cases hhash : geometryHash env.sha256 manifest.geometry with
  | none => rw [hhash] at h; cases h
  | some hash =>
      rw [hhash] at h
      dsimp only at h
      refine ⟨hash, rfl, ?_⟩
      cases hsha : sha env (hash ++ PyStr.ofString "|buffer=" ++ PyStr.ofString (env.floatStr env.bufferM)) with
      | none => rw [hsha] at h; cases h
      | some queryHash => rw [hsha] at h; cases h; rfl

/-- Equal query hashes: equal geometry texts and equal renderings of the buffers. -/
theorem queryHash_inj {env : EvidenceEnv} (hsha : Function.Injective env.sha256)
    (hhex : ∀ bytes, ∀ c ∈ (env.sha256 bytes).toList, c ∈ PyStr.hexDigits) {m m' : CaseManifest}
    {src src' : SourceId} {q q' : EvidenceQuery} {b b' : PyFloat}
    (hq : buildQuery { env with bufferM := b } m src = .ok q)
    (hq' : buildQuery { env with bufferM := b' } m' src' = .ok q') (h : q.queryGeometryHash = q'.queryGeometryHash) :
    canonical m.geometry = canonical m'.geometry ∧ env.floatStr b = env.floatStr b' := by
  obtain ⟨hash, hhash, hquery⟩ := buildQuery_ok hq
  obtain ⟨hash', hhash', hquery'⟩ := buildQuery_ok hq'
  rw [← h] at hquery'
  have htext := PyStr.sha256Text_inj hsha hquery hquery'
  rw [List.append_assoc, List.append_assoc] at htext
  -- the first bar ends the geometry hash
  have hbar : hash ++ .scalar '|' :: (PyStr.ofString "buffer=" ++ PyStr.ofString (env.floatStr b))
      = hash' ++ .scalar '|' :: (PyStr.ofString "buffer=" ++ PyStr.ofString (env.floatStr b')) := htext
  obtain ⟨hsame, hrest⟩ := first_inj (bar_notMem_hash hhex hhash) (bar_notMem_hash hhex hhash') hbar
  have hbuffer : PyStr.ofString (env.floatStr b) = PyStr.ofString (env.floatStr b') :=
    List.append_cancel_left hrest
  rw [← hsame] at hhash'
  exact ⟨geometryHash_inj hsha hhash hhash', PyStr.ofString_inj hbuffer⟩

/-! ## What the hashes of valid manifests identify -/

/-- The gate admits neither an unknown CRS nor a geometry without rings, so the text can be read back. -/
theorem sameRendering_of_canonical {m m' : CaseManifest} {r r' : CaseRegistry}
    (h : validateManifest sha256 m r = .ok none) (h' : validateManifest sha256 m' r' = .ok none)
    (htext : canonical m.geometry = canonical m'.geometry) : SameRendering m.geometry m'.geometry := by
  have hvalid := validateManifest_eq_none.mp h
  have hvalid' := validateManifest_eq_none.mp h'
  have hcrs : m.geometry.crs = m'.geometry.crs := (crs_of_valid h).trans (crs_of_valid h').symm
  exact (canonical_eq_iff hcrs (iff_of_false hvalid.nonempty hvalid'.nonempty)).mp htext

/--
**Geometry hashes identify what was queried.**

Suppose the hash does not collide and is written in hex, and the two buffers are
written differently if they differ. Two valid manifests with one geometry hash have the same
CRS and the same rings, point by point in the same six-decimal rendering; and two
queries with one query hash have the same buffer besides.
-/
theorem geometryHash_identifies {env : EvidenceEnv} (hsha : Function.Injective env.sha256)
    (hhex : ∀ bytes, ∀ c ∈ (env.sha256 bytes).toList, c ∈ PyStr.hexDigits)
    {b₁ b₂ : PyFloat} (hfloat : env.floatStr b₁ = env.floatStr b₂ → b₁ = b₂) {m₁ m₂ : CaseManifest}
    {r₁ r₂ : CaseRegistry} (h₁ : validateManifest env.sha256 m₁ r₁ = .ok none)
    (h₂ : validateManifest env.sha256 m₂ r₂ = .ok none) :
    (geometryHash env.sha256 m₁.geometry = geometryHash env.sha256 m₂.geometry →
        SameRendering m₁.geometry m₂.geometry)
      ∧ ∀ src₁ src₂ q₁ q₂,
          buildQuery { env with bufferM := b₁ } m₁ src₁ = .ok q₁ →
          buildQuery { env with bufferM := b₂ } m₂ src₂ = .ok q₂ →
          q₁.queryGeometryHash = q₂.queryGeometryHash →
          SameRendering m₁.geometry m₂.geometry ∧ b₁ = b₂ := by
  refine ⟨?_, ?_⟩
  · intro h
    obtain ⟨hash, hhash⟩ := geometryHash_of_valid h₁
    exact sameRendering_of_canonical h₁ h₂ (geometryHash_inj hsha hhash (h ▸ hhash))
  · intro src₁ src₂ q₁ q₂ hq₁ hq₂ h
    obtain ⟨htext, hbuffer⟩ := queryHash_inj hsha hhex hq₁ hq₂ h
    exact ⟨sameRendering_of_canonical h₁ h₂ htext, hfloat hbuffer⟩

/-- A valid manifest stays valid for any case of its engagement, with the hash of its geometry declared. -/
theorem ValidManifest.redeclare {manifest : CaseManifest} {registry : CaseRegistry}
    (h : ValidManifest sha256 manifest registry) {sha256' : ByteArray → String} {declaredHash : PyStr}
    (hhash : geometryHash sha256' manifest.geometry = some declaredHash) {caseId : CaseId}
    {engagementId : EngagementId} (howner : registry.engagementForCase caseId = some engagementId) :
    ValidManifest sha256'
      { manifest with caseId, engagementId, geometry := { manifest.geometry with declaredHash } } registry :=
  ⟨h.crs, h.nonempty, h.rings, hhash, h.jurisdiction, howner⟩

theorem sealed_hash : geometryHash Sample.hexdigest Sample.manifest.geometry = some Sample.sealedHash := by
  obtain ⟨hash, hhash⟩ := geometryHash_of_supported (validateManifest_eq_none.mp Sample.manifest_valid).crs
    Sample.hexdigest
  unfold Sample.sealedHash
  rw [hhash, Option.getD_some]

theorem sealed_valid {c : CaseId} {e : EngagementId} (h : Sample.registry.engagementForCase c = some e) :
    validateManifest Sample.hexdigest (Sample.sealedManifest c e) Sample.registry = .ok none := by
  have hplain := validateManifest_eq_none.mp Sample.manifest_valid
  exact validateManifest_eq_none.mpr (hplain.redeclare sealed_hash h)

/-- One geometry for two cases, and one case with two buffers. -/
theorem geometryHash_identifies_sealed :
    let m₁ := Sample.sealedManifest "CASE-1" "E"
    let m₂ := Sample.sealedManifest "CASE-2" "E2"
    SameRendering m₁.geometry m₂.geometry
      ∧ ∀ src₁ src₂ q₁ q₂, buildQuery Sample.hexEvidenceEnv m₁ src₁ = .ok q₁ →
          buildQuery { Sample.hexEvidenceEnv with bufferM := ⟨0x406f400000000000⟩ } m₁ src₂ = .ok q₂ →
          q₁.queryGeometryHash ≠ q₂.queryGeometryHash := by
  intro m₁ m₂
  have hsha : Function.Injective Sample.hexEvidenceEnv.sha256 := Sample.hexdigest_injective
  have hwritten : Sample.hexEvidenceEnv.floatStr ⟨0x4059000000000000⟩
      ≠ Sample.hexEvidenceEnv.floatStr ⟨0x406f400000000000⟩ := by decide
  have h₁ : validateManifest Sample.hexdigest m₁ Sample.registry = .ok none := sealed_valid rfl
  have h₂ : validateManifest Sample.hexdigest m₂ Sample.registry = .ok none := sealed_valid rfl
  refine ⟨?_, ?_⟩
  · exact (geometryHash_identifies hsha Sample.hexdigest_hex (fun h => absurd h hwritten) h₁ h₂).1
      (geometryHash_congr rfl rfl)
  · intro src₁ src₂ q₁ q₂ hq₁ hq₂ h
    have hqueries := (geometryHash_identifies hsha Sample.hexdigest_hex (fun h => absurd h hwritten) h₁ h₁).2
    exact absurd (hqueries src₁ src₂ q₁ q₂ hq₁ hq₂ h).2 (by decide)

/-! ## When equal geometries have equal hashes -/

/-- The same CRS and rings, and coordinates that are equal after rounding to six decimals. -/
def SameRounded (g g' : SiteGeometry) : Prop :=
  g.crs = g'.crs ∧ List.Forall₂ (List.Forall₂ fun p q => rounded p.1 = rounded q.1 ∧ rounded p.2 = rounded q.2)
    g.rings g'.rings

/-- Coordinates that round to zero do so from the same side. -/
def SameZeros (g g' : SiteGeometry) : Prop :=
  List.Forall₂ (List.Forall₂ fun p q => (rounded p.1 = 0 → (p.1 < 0 ↔ q.1 < 0))
      ∧ (rounded p.2 = 0 → (p.2 < 0 ↔ q.2 < 0)))
    g.rings g'.rings

theorem sameRendering_iff {g g' : SiteGeometry} (h : SameRounded g g') : SameRendering g g' ↔ SameZeros g g' := by
  obtain ⟨hcrs, hrings⟩ := h
  refine ⟨?_, ?_⟩
  · intro hsame
    refine List.Forall₂.mp (fun ring ring' hround hrender => ?_) hrings hsame.2
    refine List.Forall₂.mp (fun p q hround hrender => ?_) hround hrender
    exact ⟨(fixed6_eq_iff hround.1).mp hrender.1, (fixed6_eq_iff hround.2).mp hrender.2⟩
  · intro hzeros
    refine ⟨hcrs, ?_⟩
    refine List.Forall₂.mp (fun ring ring' hround hzero => ?_) hrings hzeros
    refine List.Forall₂.mp (fun p q hround hzero => ?_) hround hzero
    exact ⟨(fixed6_eq_iff hround.1).mpr hzero.1, (fixed6_eq_iff hround.2).mpr hzero.2⟩

/-- The hash of one geometry is the hash of the other, and is accepted when it is declared for it. -/
def HashShared (sha256 : ByteArray → String) (g g' : SiteGeometry) : Prop :=
  geometryHash sha256 g = geometryHash sha256 g'
    ∧ ∀ (manifest : CaseManifest) (registry : CaseRegistry) (declaredHash : PyStr),
        geometryHash sha256 g = some declaredHash → manifest.geometry = { g' with declaredHash } →
        validateManifest sha256 manifest registry ≠ .ok (some .geometryHashMismatch)

/-- With good rings, a declared hash that is not the hash is refused. -/
theorem validateManifest_mismatch {manifest : CaseManifest} {registry : CaseRegistry}
    (hcrs : manifest.geometry.crs ∈ supportedCrs) (hrings : validateRings manifest.geometry = .ok none)
    (hhash : geometryHash sha256 manifest.geometry ≠ some manifest.geometry.declaredHash) :
    validateManifest sha256 manifest registry = .ok (some .geometryHashMismatch) := by
  obtain ⟨hash, hsome⟩ := geometryHash_of_supported hcrs sha256
  have hne : hash ≠ manifest.geometry.declaredHash := fun h => hhash (h ▸ hsome)
  unfold validateManifest
  rw [if_neg (not_not.mpr hcrs), hrings, hsome]
  exact if_pos hne

/-- A declared hash that is the hash is not refused as another one. -/
theorem hashShared_of_eq {g g' : SiteGeometry} (h : geometryHash sha256 g = geometryHash sha256 g') :
    HashShared sha256 g g' := by
  refine ⟨h, ?_⟩
  intro manifest registry declaredHash hdeclared hgeometry hmismatch
  have hdefect : geometryHash sha256 manifest.geometry ≠ some manifest.geometry.declaredHash :=
    defect_of_validateManifest hmismatch
  rw [hgeometry] at hdefect
  exact hdefect (h ▸ hdeclared)

/--
**When the geometry hash is canonical at six decimals.**

Take two geometries that are equal after rounding to six decimals. If no coordinate
rounds to zero from below in one and not from below in the other, then they have the
same hash, and the hash of one is accepted as the declared hash of the other. If
SHA-256 does not collide, this is so in no other case, except that a CRS with a lone
surrogate makes both raise.
-/
theorem hash_canonical_iff (sha256 : ByteArray → String) {g g' : SiteGeometry} (h : SameRounded g g') :
    ((PyStr.Encodable g.crs → SameZeros g g') → HashShared sha256 g g')
      ∧ (Function.Injective sha256 → (HashShared sha256 g g' ↔ (PyStr.Encodable g.crs → SameZeros g g'))) := by
  have hempty : g.rings = [] ↔ g'.rings = [] := by
    rw [← List.length_eq_zero_iff, ← List.length_eq_zero_iff, h.2.length_eq]
  have htext : canonical g = canonical g' ↔ SameZeros g g' :=
    (canonical_eq_iff h.1 hempty).trans (sameRendering_iff h)
  have hsame : (PyStr.Encodable g.crs → SameZeros g g') → HashShared sha256 g g' := by
    intro hzeros
    refine hashShared_of_eq ?_
    by_cases hcrs : PyStr.Encodable g.crs
    · unfold geometryHash
      rw [htext.mpr (hzeros hcrs)]
    · -- neither text can be encoded
      have hnone : ∀ g'' : SiteGeometry, g''.crs = g.crs → geometryHash sha256 g'' = none := by
        intro g'' hg''
        rw [← Option.not_isSome_iff_eq_none, geometryHash, PyStr.sha256Text_isSome, encodable_canonical, hg'']
        exact hcrs
      rw [hnone g rfl, hnone g' h.1.symm]
  refine ⟨hsame, fun hinj => ⟨?_, hsame⟩⟩
  intro hshared hcrs
  obtain ⟨hash, hhash⟩ : ∃ hash, geometryHash sha256 g = some hash := by
    rw [← Option.isSome_iff_exists, geometryHash, PyStr.sha256Text_isSome, encodable_canonical]
    exact hcrs
  exact htext.mp (geometryHash_inj hinj hhash (hshared.1 ▸ hhash))

/-- Two corners moved by less than half a millionth, one of them off zero, to the same side. -/
theorem hash_canonical_moved :
    let g := Sample.geometry
    let moved := { g with rings :=
      [[(1 / 10000000, 0), (0, 1), (1, 1 + 1 / 10000000), (1, 0), (1 / 10000000, 0)]] }
    SameRounded g moved ∧ HashShared Sample.hexdigest g moved := by
  intro g moved
  have hrounded : SameRounded g moved := by
    refine ⟨rfl, ?_⟩
    decide +kernel
  have hzeros : SameZeros g moved := by
    unfold SameZeros
    decide +kernel
  exact ⟨hrounded, (hash_canonical_iff Sample.hexdigest hrounded).1 fun _ => hzeros⟩

/-- One corner moved off zero to the other side: another hash, and a manifest with the declared one is refused. -/
theorem hash_not_canonical :
    let g := Sample.geometry
    let moved :=
      { g with
        rings := [[(-1 / 10000000, 0), (0, 1), (1, 1), (1, 0), (-1 / 10000000, 0)]]
        declaredHash := Sample.sealedHash }
    let manifest := { Sample.manifest with geometry := moved }
    SameRounded g moved ∧ geometryHash Sample.hexdigest g = some Sample.sealedHash
      ∧ geometryHash Sample.hexdigest moved ≠ some Sample.sealedHash
      ∧ validateManifest Sample.hexdigest manifest Sample.registry = .ok (some .geometryHashMismatch) := by
  intro g moved manifest
  have hrounded : SameRounded g moved := by
    refine ⟨rfl, ?_⟩
    decide +kernel
  have htext : canonical Sample.manifest.geometry ≠ canonical moved := by decide +kernel
  have hhash : geometryHash Sample.hexdigest moved ≠ some Sample.sealedHash :=
    fun h => htext (geometryHash_inj Sample.hexdigest_injective sealed_hash h)
  have hrings : validateRings moved = .ok none := by decide +kernel
  refine ⟨hrounded, sealed_hash, hhash, ?_⟩
  exact validateManifest_mismatch List.mem_cons_self hrings hhash

end Intake.Proof
