import Intake.Lib.Polyline
import Intake.Manifest
import Mathlib.Analysis.Normed.Field.Lemmas
import Mathlib.Analysis.Normed.Group.AddTorsor
import Mathlib.LinearAlgebra.AffineSpace.FiniteDimensional
import Mathlib.Tactic.Ring

/-!
# How a ring is written down

The same polygon can be written from any of its corners, and either way round. The
gate does not mind: the shoelace sum of a closed ring is a sum over its edges, and
an edge that is crossed backwards changes its sign.

Moving a ring adds a difference of potentials to every edge, and a ring without
extent has nothing else on its edges. Both cancel, but only because the ring is
closed.
-/

namespace Intake.Proof

open Polyline

/-! ## The shoelace sum -/

/-- What an edge contributes to twice the area. -/
def cross (p q : Point) : ℚ := p.1 * q.2 - q.1 * p.2

theorem ringArea_eq (ring : Ring) : ringArea ring = |edgeSum cross ring| / 2 := by
  rw [← zero_add (edgeSum cross ring), ← foldl_edges]
  rfl

theorem cross_swap (p q : Point) : cross q p = -cross p q := by
  unfold cross
  ring

theorem cross_translate (p q v : Point) : cross (p + v) (q + v) = cross p q + (cross v q - cross v p) := by
  unfold cross
  simp only [Prod.fst_add, Prod.snd_add]
  ring

/-- On a line through `o`, an edge is the difference of what its ends make with `o`. -/
theorem cross_collinear (o v : Point) (r s : ℚ) :
    cross (r • v + o) (s • v + o) = cross o (s • v + o) - cross o (r • v + o) := by
  unfold cross
  simp only [Prod.fst_add, Prod.snd_add, Prod.smul_fst, Prod.smul_snd, smul_eq_mul]
  ring

theorem ringArea_restart {ring : Ring} (h : Closed ring) (n : ℕ) : ringArea (restart n ring) = ringArea ring := by
  rw [ringArea_eq, ringArea_eq, edgeSum_restart cross h]

theorem ringArea_reverse (ring : Ring) : ringArea ring.reverse = ringArea ring := by
  have hswap : edgeSum (fun p q => cross q p) ring = -edgeSum cross ring := by
    rw [← edgeSum_neg]
    exact edgeSum_congr fun p _ q _ => cross_swap p q
  rw [ringArea_eq, ringArea_eq, edgeSum_reverse, hswap, abs_neg]

theorem ringArea_translate {ring : Ring} (h : Closed ring) (v : Point) :
    ringArea (ring.map (· + v)) = ringArea ring := by
  have hsum : edgeSum (fun p q => cross (p + v) (q + v)) ring = edgeSum cross ring := by
    have hsplit := edgeSum_add cross (fun p q => cross v q - cross v p) ring
    rw [edgeSum_telescope (cross v) h, add_zero] at hsplit
    rw [← hsplit]
    exact edgeSum_congr fun p _ q _ => cross_translate p q v
  rw [ringArea_eq, ringArea_eq, edgeSum_map, hsum]

theorem ringArea_collinear {ring : Ring} (h : Closed ring) (hline : Collinear ℚ {p | p ∈ ring}) :
    ringArea ring = 0 := by
  obtain ⟨o, v, hv⟩ := (collinear_iff_exists_forall_eq_smul_vadd _).mp hline
  have hsum : edgeSum cross ring = edgeSum (fun p q => cross o q - cross o p) ring := by
    refine edgeSum_congr ?_
    intro p hp q hq
    obtain ⟨r, rfl⟩ := hv p hp
    obtain ⟨s, rfl⟩ := hv q hq
    exact cross_collinear o v r s
  rw [ringArea_eq, hsum, edgeSum_telescope (cross o) h, abs_zero, zero_div]

/-! ## What the gate asks of a ring -/

/-- A ring that passes the checks. -/
structure ValidRing (range : CrsRange) (ring : Ring) : Prop where
  closed : Closed ring
  length : 4 ≤ ring.length
  inRange : ∀ p ∈ ring, (range.loX ≤ p.1 ∧ p.1 ≤ range.hiX) ∧ range.loY ≤ p.2 ∧ p.2 ≤ range.hiY
  area : ringArea ring ≠ 0

theorem contains_iff {range : CrsRange} {p : Point} : range.contains p = true ↔
    (range.loX ≤ p.1 ∧ p.1 ≤ range.hiX) ∧ range.loY ≤ p.2 ∧ p.2 ≤ range.hiY := by
  simp [CrsRange.contains]

theorem validateRing_eq_none {range : CrsRange} {ring : Ring} :
    validateRing range ring = none ↔ ValidRing range ring := by
  unfold validateRing
  split_ifs with hclosed hlength hrange harea
  · refine iff_of_false (by simp) fun h => ?_
    refine absurd hclosed ?_
    simpa [List.isEmpty_iff, Closed] using h.closed
  · refine iff_of_false (by simp) fun h => ?_
    have := h.length
    omega
  · refine iff_of_false (by simp) fun h => ?_
    obtain ⟨p, hp, hout⟩ := List.any_eq_true.mp hrange
    rw [contains_iff.mpr (h.inRange p hp)] at hout
    cases hout
  · refine iff_of_false (by simp) fun h => ?_
    exact h.area harea
  · refine iff_of_true rfl ⟨?_, by omega, ?_, harea⟩
    · simpa [List.isEmpty_iff, Closed] using hclosed
    · intro p hp
      by_contra hout
      refine hrange (List.any_eq_true.mpr ⟨p, hp, ?_⟩)
      rw [← contains_iff, Bool.not_eq_true] at hout
      rw [hout]
      rfl

theorem validateRings_eq_none {geometry : SiteGeometry} : validateRings geometry = .ok none ↔
    geometry.rings ≠ [] ∧ ∃ range, crsRanges.lookup geometry.crs = some range
      ∧ ∀ ring ∈ geometry.rings, ValidRing range ring := by
  unfold validateRings
  by_cases hempty : geometry.rings = []
  · simp [hempty]
  · rw [if_neg (by simpa [List.isEmpty_iff] using hempty)]
    cases hrange : crsRanges.lookup geometry.crs with
    | none => simp
    | some range => simp [hempty, List.findSome?_eq_none_iff, validateRing_eq_none]

theorem validRing_restart {range : CrsRange} {ring : Ring} (h : Closed ring) (n : ℕ) :
    ValidRing range (restart n ring) ↔ ValidRing range ring := by
  rcases h.cases with ⟨a, rfl⟩ | ⟨hne, hclose⟩
  · -- a single point has no corners to restart at, and is refused either way
    refine ⟨fun h => absurd rfl h.closed.1, fun h => ?_⟩
    have := h.length
    simp at this
  · have hrotate : ring.dropLast.rotate n ≠ [] := fun hnil => hne (List.rotate_eq_nil_iff.mp hnil)
    have hlength : (restart n ring).length = ring.length := by
      rw [restart, length_close hrotate, List.length_rotate, ← length_close hne, hclose]
    have hmem : ∀ p, p ∈ restart n ring ↔ p ∈ ring := by
      intro p
      rw [restart, mem_close, List.mem_rotate, ← mem_close, hclose]
    refine ⟨fun hv => ⟨h, ?_, ?_, ?_⟩, fun hv => ⟨closed_close hrotate, ?_, ?_, ?_⟩⟩
    · exact hlength ▸ hv.length
    · exact fun p hp => hv.inRange p ((hmem p).mpr hp)
    · exact ringArea_restart h n ▸ hv.area
    · exact hlength.symm ▸ hv.length
    · exact fun p hp => hv.inRange p ((hmem p).mp hp)
    · rw [ringArea_restart h n]
      exact hv.area

theorem ValidRing.reverse {range : CrsRange} {ring : Ring} (h : ValidRing range ring) :
    ValidRing range ring.reverse := by
  refine ⟨h.closed.reverse, ?_, fun p hp => h.inRange p (List.mem_reverse.mp hp), ?_⟩
  · rw [List.length_reverse]
    exact h.length
  · rw [ringArea_reverse]
    exact h.area

theorem validRing_reverse {range : CrsRange} {ring : Ring} :
    ValidRing range ring.reverse ↔ ValidRing range ring := by
  refine ⟨fun h => ?_, ValidRing.reverse⟩
  have hback := h.reverse
  rw [List.reverse_reverse] at hback
  exact hback

/-! ## Spellings -/

/-- One change in how a list of rings is written down. -/
inductive Rewritten : List Ring → List Ring → Prop where
  | restart (pre : List Ring) {ring : Ring} (post : List Ring) (h : Closed ring) (n : ℕ) :
      Rewritten (pre ++ ring :: post) (pre ++ restart n ring :: post)
  | reverse (pre : List Ring) {ring : Ring} (post : List Ring) (h : Closed ring) :
      Rewritten (pre ++ ring :: post) (pre ++ ring.reverse :: post)
  | permute {rings rings' : List Ring} (h : rings.Perm rings') : Rewritten rings rings'

/-- One change neither makes a list of rings valid nor spoils it. -/
theorem Rewritten.valid_iff {range : CrsRange} {rings rings' : List Ring} (h : Rewritten rings rings') :
    (rings' ≠ [] ∧ ∀ ring ∈ rings', ValidRing range ring)
      ↔ (rings ≠ [] ∧ ∀ ring ∈ rings, ValidRing range ring) := by
  cases h with
  | restart pre post h n =>
      simp only [List.forall_mem_append, List.forall_mem_cons, validRing_restart h n]
      simp
  | reverse pre post h =>
      simp only [List.forall_mem_append, List.forall_mem_cons, validRing_reverse]
      simp
  | permute h =>
      refine and_congr (not_congr ?_) (forall_congr' fun ring => by rw [h.mem_iff])
      exact ⟨fun hnil => List.perm_nil.mp (hnil ▸ h), fun hnil => List.nil_perm.mp (hnil ▸ h)⟩

theorem Rewritten.accepted_iff {geometry : SiteGeometry} {rings rings' : List Ring} (h : Rewritten rings rings') :
    validateRings { geometry with rings := rings' } = .ok none
      ↔ validateRings { geometry with rings } = .ok none := by
  rw [validateRings_eq_none, validateRings_eq_none, ← exists_and_left, ← exists_and_left]
  refine exists_congr fun range => ?_
  rw [and_left_comm, h.valid_iff, and_left_comm]

/--
**A ring can be written down from any corner, either way round, anywhere.**

The area of a closed ring is the same from every vertex, backwards, and after a
translation, and it is zero if the points lie on one line. So `_validate_rings`
accepts a list of rings exactly if it accepts it after any number of restarts and
reversals of closed rings and permutations of the list.
-/
theorem ring_spelling :
    (∀ ring : Ring, Closed ring →
        (∀ n, ringArea (restart n ring) = ringArea ring)
          ∧ ringArea ring.reverse = ringArea ring
          ∧ (∀ v : Point, ringArea (ring.map (· + v)) = ringArea ring)
          ∧ (Collinear ℚ {p | p ∈ ring} → ringArea ring = 0))
      ∧ ∀ (geometry : SiteGeometry) (rings : List Ring),
          Relation.ReflTransGen Rewritten geometry.rings rings →
          (validateRings { geometry with rings } = .ok none ↔ validateRings geometry = .ok none) := by
  refine ⟨fun ring h => ⟨ringArea_restart h, ringArea_reverse ring, ringArea_translate h,
    ringArea_collinear h⟩, ?_⟩
  intro geometry rings h
  induction h with
  | refl => exact Iff.rfl
  | tail _ hstep ih => exact hstep.accepted_iff.trans ih

/-- A triangle and a square, changed in every way, and three points of a line. -/
theorem ring_spelling_triangle :
    let triangle : Ring := [(0, 0), (3, 0), (0, 3), (0, 0)]
    let square : Ring := [(0, 0), (0, 1), (1, 1), (1, 0), (0, 0)]
    let geometry : SiteGeometry := ⟨"EPSG:4326", [triangle, square], "parcel", ""⟩
    ringArea (restart 2 triangle) = ringArea triangle
      ∧ ringArea (triangle.map (· + (1, -5))) = ringArea triangle
      ∧ ringArea [(0, 0), (1, 1), (2, 2), (0, 0)] = 0
      ∧ (validateRings { geometry with rings := [square.reverse, restart 2 triangle] } = .ok none
          ↔ validateRings geometry = .ok none) := by
  intro triangle square geometry
  have htriangle : Closed triangle := ⟨by simp [triangle], rfl⟩
  have hsquare : Closed square := ⟨by simp [square], rfl⟩
  have hback : Closed ([(0, 0), (1, 1), (2, 2), (0, 0)] : Ring) := ⟨by simp, rfl⟩
  have hline : Collinear ℚ {p | p ∈ ([(0, 0), (1, 1), (2, 2), (0, 0)] : Ring)} := by
    refine (collinear_iff_exists_forall_eq_smul_vadd _).mpr ⟨(0, 0), (1, 1), fun p hp => ⟨p.1, ?_⟩⟩
    simp only [Set.mem_ofPred_eq, List.mem_cons, List.not_mem_nil, or_false] at hp
    rcases hp with rfl | rfl | rfl | rfl <;> simp
  have hsteps : Relation.ReflTransGen Rewritten geometry.rings [square.reverse, restart 2 triangle] :=
    ((Relation.ReflTransGen.single (.restart [] [square] htriangle 2)).tail
      (.reverse [restart 2 triangle] [] hsquare)).tail (.permute (.swap _ _ _))
  obtain ⟨harea, haccepts⟩ := ring_spelling
  exact ⟨(harea triangle htriangle).1 2, (harea triangle htriangle).2.2.1 (1, -5),
    (harea _ hback).2.2.2 hline, haccepts geometry _ hsteps⟩

end Intake.Proof
