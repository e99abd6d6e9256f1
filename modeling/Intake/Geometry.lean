import Intake.PyStr
import Mathlib.Data.Rat.Defs

/-!
# Site geometry

The geometry of a site and its content hash. A coordinate is an exact rational:
a finite float is one, and a ring with any other float does not pass the manifest
gate. The one finite float that is lost is negative zero.

The `'.6f'` format rounds to the nearest millionth, ties to even, and keeps the
minus sign of a negative value that rounds to zero.
-/

namespace Intake

/-- A point of a ring. -/
abbrev Point := ℚ × ℚ

abbrev Ring := List Point

/-- A site polygon with its CRS, declared content hash, and accuracy. -/
structure SiteGeometry where
  crs : PyStr
  rings : List Ring
  /-- indicative, parcel or survey -/
  accuracy : PyStr
  declaredHash : PyStr
  deriving DecidableEq, Repr

def supportedCrs : List PyStr := ["EPSG:4326"]

/-- The bounds of a CRS, as `CRS_RANGES` lists them. -/
structure CrsRange where
  loX : ℚ
  hiX : ℚ
  loY : ℚ
  hiY : ℚ
  deriving DecidableEq, Repr

def crsRanges : List (PyStr × CrsRange) := [("EPSG:4326", ⟨-180, 180, -90, 90⟩)]

/-- The magnitude of a coordinate in millionths, rounded half to even. -/
def millionths (x : ℚ) : Nat :=
  let scaled := x.num.natAbs * 1000000
  let whole := scaled / x.den
  let twice := 2 * (scaled % x.den)
  if twice < x.den then whole
  else if x.den < twice then whole + 1
  else if whole % 2 = 0 then whole
  else whole + 1

/-- The decimal digits of a number. -/
def digits (n : Nat) : PyStr := (Nat.toDigits 10 n).map PyChar.scalar

/-- `f"{x:.6f}"` -/
def fixed6 (x : ℚ) : PyStr :=
  let n := millionths x
  (if x < 0 then [.scalar '-'] else []) ++ digits (n / 1000000) ++ [.scalar '.']
    ++ List.leftpad 6 (.scalar '0') (digits (n % 1000000))

/-- `f"{x:.6f}:{y:.6f}"` -/
def renderPoint (p : Point) : PyStr := fixed6 p.1 ++ [.scalar ':'] ++ fixed6 p.2

/-- The points of a ring, joined by commas. -/
def renderRing (ring : Ring) : PyStr := PyStr.join [.scalar ','] (ring.map renderPoint)

/-- The text a geometry is hashed as: its CRS and its rings, but not the declared hash. -/
def canonical (geometry : SiteGeometry) : PyStr :=
  geometry.crs ++ [.scalar '|'] ++ PyStr.join [.scalar ';'] (geometry.rings.map renderRing)

/-- `geometry_hash` -/
def geometryHash (sha256 : ByteArray → String) (geometry : SiteGeometry) : Option PyStr :=
  PyStr.sha256Text sha256 (canonical geometry)

/-! ## What can be encoded -/

theorem encodable_digits (n : Nat) : PyStr.Encodable (digits n) := by
  simp [PyStr.Encodable, digits, PyStr.scalars?_map_scalar]

theorem encodable_fixed6 (x : ℚ) : PyStr.Encodable (fixed6 x) := by
  have hpad : ∀ (n : Nat) (s : PyStr), PyStr.Encodable s →
      PyStr.Encodable (List.leftpad n (.scalar '0') s) := by
    intro n s hs
    rw [List.leftpad, PyStr.encodable_append]
    refine ⟨?_, hs⟩
    rw [← List.map_replicate, PyStr.Encodable, PyStr.scalars?_map_scalar]
    rfl
  simp only [fixed6, PyStr.encodable_append]
  refine ⟨⟨⟨?_, encodable_digits _⟩, rfl⟩, hpad _ _ (encodable_digits _)⟩
  split <;> rfl

theorem encodable_renderPoint (p : Point) : PyStr.Encodable (renderPoint p) := by
  have hcolon : PyStr.Encodable [.scalar ':'] := rfl
  simp only [renderPoint, PyStr.encodable_append]
  exact ⟨⟨encodable_fixed6 _, hcolon⟩, encodable_fixed6 _⟩

theorem encodable_renderRing (ring : Ring) : PyStr.Encodable (renderRing ring) := by
  have hcomma : PyStr.Encodable [.scalar ','] := rfl
  refine PyStr.encodable_join hcomma ?_
  intro s hs
  obtain ⟨p, _, rfl⟩ := List.mem_map.mp hs
  exact encodable_renderPoint p

/-- Only the CRS can keep a geometry from being hashed. -/
theorem encodable_canonical {geometry : SiteGeometry} :
    PyStr.Encodable (canonical geometry) ↔ PyStr.Encodable geometry.crs := by
  have hbar : PyStr.Encodable [.scalar '|'] := rfl
  have hsemicolon : PyStr.Encodable [.scalar ';'] := rfl
  have hrings : PyStr.Encodable (PyStr.join [.scalar ';'] (geometry.rings.map renderRing)) := by
    refine PyStr.encodable_join hsemicolon ?_
    intro s hs
    obtain ⟨ring, _, rfl⟩ := List.mem_map.mp hs
    exact encodable_renderRing ring
  rw [canonical, PyStr.encodable_append, PyStr.encodable_append]
  exact ⟨fun h => h.1.1, fun h => ⟨⟨h, hbar⟩, hrings⟩⟩

end Intake
