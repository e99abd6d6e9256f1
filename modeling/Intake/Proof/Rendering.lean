import Intake.Geometry
import Mathlib.Algebra.Order.Field.Basic
import Mathlib.Data.Rat.Cast.Order
import Mathlib.Tactic.FieldSimp
import Mathlib.Tactic.Positivity
import Mathlib.Tactic.Ring

/-!
# How a coordinate is rendered

`'.6f'` writes a sign, digits, a point and six digits. The digits are those of the
nearest millionth, but the sign is that of the value itself: two numbers that round
to zero from both sides are equal after rounding and are written differently.
-/

namespace Intake.Proof

/-- The coordinate in millionths, rounded half to even. -/
def rounded (x : ℚ) : Int := if x < 0 then -(millionths x : Int) else millionths x

/-! ## Rounding -/

/-- Division of naturals, rounded half to even, as `millionths` does it. -/
theorem halfEven_spec {s d n : Nat} (hd : 0 < d)
    (hn : n = if 2 * (s % d) < d then s / d else if d < 2 * (s % d) then s / d + 1
      else if s / d % 2 = 0 then s / d else s / d + 1) :
    |(s : ℚ) / d - n| ≤ 1 / 2 ∧ (|(s : ℚ) / d - n| = 1 / 2 → n % 2 = 0) := by
  have hdq : (0 : ℚ) < d := Nat.cast_pos.mpr hd
  have hsplit : (s : ℚ) / d = (s / d : Nat) + ((s % d : Nat) : ℚ) / d := by
    have hdiv : (s : ℚ) = d * (s / d : Nat) + (s % d : Nat) := by
      exact_mod_cast (Nat.div_add_mod s d).symm
    rw [div_eq_iff hdq.ne', add_mul, div_mul_cancel₀ _ hdq.ne', mul_comm _ (d : ℚ)]
    exact hdiv
  have hmod : s % d < d := Nat.mod_lt s hd
  generalize s / d = k at hn hsplit
  generalize s % d = r at hn hsplit hmod
  -- the distance is r / d downwards and (d - r) / d upwards
  have hdown : (s : ℚ) / d - k = r / d := by
    rw [hsplit]
    ring
  have hup : (s : ℚ) / d - (k + 1 : Nat) = -((d - r : Nat) / d) := by
    rw [hsplit, Nat.cast_sub hmod.le]
    push_cast
    field_simp
    ring
  have habs : ∀ m : Nat, |(m : ℚ) / d| = m / d := fun m => abs_of_nonneg (by positivity)
  have hle : ∀ m : Nat, (m : ℚ) / d ≤ 1 / 2 ↔ 2 * m ≤ d := by
    intro m
    rw [div_le_div_iff₀ hdq two_pos, one_mul, mul_comm]
    exact_mod_cast Iff.rfl
  have heq : ∀ m : Nat, (m : ℚ) / d = 1 / 2 ↔ 2 * m = d := by
    intro m
    rw [div_eq_div_iff hdq.ne' two_ne_zero, one_mul, mul_comm]
    exact_mod_cast Iff.rfl
  split_ifs at hn with hlt hgt heven
  · rw [hn, hdown, habs, hle, heq]
    exact ⟨by omega, fun h => by omega⟩
  · rw [hn, hup, abs_neg, habs, hle, heq]
    exact ⟨by omega, fun h => by omega⟩
  · rw [hn, hdown, habs, hle, heq]
    exact ⟨by omega, fun _ => heven⟩
  · rw [hn, hup, abs_neg, habs, hle, heq]
    exact ⟨by omega, fun _ => by omega⟩

/-- **The rendered number is the nearest millionth**, and the even one of two. -/
theorem rounded_nearest (x : ℚ) :
    |x * 1000000 - rounded x| ≤ 1 / 2 ∧ (|x * 1000000 - rounded x| = 1 / 2 → rounded x % 2 = 0) := by
  have hmagnitude : |x| * 1000000 = ((x.num.natAbs * 1000000 : Nat) : ℚ) / x.den := by
    have habs : |x| = (x.num.natAbs : ℚ) / x.den := by
      rw [Nat.cast_natAbs, Int.cast_abs, ← Nat.abs_cast x.den, ← abs_div, Rat.num_div_den]
    rw [habs]
    push_cast
    ring
  have hspec := halfEven_spec (s := x.num.natAbs * 1000000) (n := millionths x) x.den_pos rfl
  rw [← hmagnitude] at hspec
  unfold rounded
  by_cases hx : x < 0
  · have hneg : x * 1000000 - ((-(millionths x : Int) : Int) : ℚ) = -(|x| * 1000000 - millionths x) := by
      rw [abs_of_neg hx]
      push_cast
      ring
    rw [if_pos hx, hneg, abs_neg]
    refine ⟨hspec.1, fun h => ?_⟩
    have := hspec.2 h
    omega
  · have hpos : x * 1000000 - ((millionths x : Int) : ℚ) = |x| * 1000000 - millionths x := by
      rw [abs_of_nonneg (not_lt.mp hx)]
      push_cast
      ring
    rw [if_neg hx, hpos]
    refine ⟨hspec.1, fun h => ?_⟩
    have := hspec.2 h
    omega

/-! ## The written form -/

/-- A digit of a rendering. -/
def IsDigit (c : PyChar) : Prop := ∃ d : Char, d.isDigit = true ∧ c = .scalar d

theorem isDigit_of_mem_digits {n : Nat} {c : PyChar} (h : c ∈ digits n) : IsDigit c := by
  obtain ⟨d, hd, rfl⟩ := List.mem_map.mp h
  exact ⟨d, Nat.isDigit_of_mem_toDigits (by omega) (by omega) hd, rfl⟩

/-- **The shape of a rendering**: a minus sign for negative values, digits, a point, six digits. -/
theorem fixed6_shape (x : ℚ) : ∃ whole decimals : PyStr,
    fixed6 x = (if x < 0 then [.scalar '-'] else []) ++ whole ++ .scalar '.' :: decimals
      ∧ whole ≠ [] ∧ (∀ c ∈ whole, IsDigit c) ∧ decimals.length = 6 ∧ ∀ c ∈ decimals, IsDigit c := by
  refine ⟨digits (millionths x / 1000000), List.leftpad 6 (.scalar '0') (digits (millionths x % 1000000)),
    ?_, ?_, fun c hc => isDigit_of_mem_digits hc, ?_, ?_⟩
  · simp [fixed6]
  · intro hnil
    exact Nat.toDigits_ne_nil (List.map_eq_nil_iff.mp hnil)
  · have hlength : (digits (millionths x % 1000000)).length ≤ 6 := by
      rw [digits, List.length_map, Nat.length_toDigits_le_iff (by omega) (by omega)]
      exact Nat.mod_lt _ (by omega)
    rw [List.leftpad, List.length_append, List.length_replicate]
    omega
  · intro c hc
    rcases List.mem_append.mp hc with hc | hc
    · exact ⟨'0', rfl, List.eq_of_mem_replicate hc⟩
    · exact isDigit_of_mem_digits hc

/-- A rendering is written with digits, a point and a minus sign. -/
theorem mem_fixed6 {x : ℚ} {c : PyChar} (h : c ∈ fixed6 x) : IsDigit c ∨ c = .scalar '.' ∨ c = .scalar '-' := by
  obtain ⟨whole, decimals, hshape, _, hwhole, _, hdecimals⟩ := fixed6_shape x
  rw [hshape] at h
  rcases List.mem_append.mp h with h | h
  · rcases List.mem_append.mp h with h | h
    · by_cases hx : x < 0
      · rw [if_pos hx] at h
        exact Or.inr (Or.inr (List.mem_singleton.mp h))
      · rw [if_neg hx] at h
        exact absurd h List.not_mem_nil
    · exact Or.inl (hwhole c h)
  · rcases List.mem_cons.mp h with h | h
    · exact Or.inr (Or.inl h)
    · exact Or.inl (hdecimals c h)

/-- The separators of the format do not occur in a rendering. -/
theorem notMem_fixed6 (x : ℚ) {c : Char} (hdigit : c.isDigit = false) (hpoint : c ≠ '.') (hminus : c ≠ '-') :
    PyChar.scalar c ∉ fixed6 x := by
  intro h
  rcases mem_fixed6 h with ⟨d, hd, hcd⟩ | hc | hc
  · rw [PyChar.scalar.inj hcd, hd] at hdigit
    cases hdigit
  · exact hpoint (PyChar.scalar.inj hc)
  · exact hminus (PyChar.scalar.inj hc)

/-- **A rendering shows the sign of the value**, whatever the digits are. -/
theorem minus_mem_fixed6 {x : ℚ} : PyChar.scalar '-' ∈ fixed6 x ↔ x < 0 := by
  obtain ⟨whole, decimals, hshape, _, hwhole, _, hdecimals⟩ := fixed6_shape x
  have hnot : ¬ IsDigit (.scalar '-') := by
    intro h
    obtain ⟨d, hd, hc⟩ := h
    rw [← PyChar.scalar.inj hc] at hd
    exact absurd hd (by decide)
  rw [hshape]
  refine ⟨?_, ?_⟩
  · intro h
    by_contra hx
    rw [if_neg hx, List.nil_append] at h
    rcases List.mem_append.mp h with h | h
    · exact hnot (hwhole _ h)
    · rcases List.mem_cons.mp h with h | h
      · exact absurd h (by decide)
      · exact hnot (hdecimals _ h)
  · intro hx
    rw [if_pos hx]
    simp

/-- Equal after rounding and of one sign: the renderings are the same. -/
theorem fixed6_congr {x y : ℚ} (h : rounded x = rounded y) (hsign : x < 0 ↔ y < 0) : fixed6 x = fixed6 y := by
  have hmillionths : millionths x = millionths y := by
    unfold rounded at h
    by_cases hx : x < 0
    · rw [if_pos hx, if_pos (hsign.mp hx)] at h
      omega
    · rw [if_neg hx, if_neg (fun hy => hx (hsign.mpr hy))] at h
      omega
  unfold fixed6
  rw [hmillionths]
  simp only [hsign]

/-- A value that does not round to zero has the sign of its rounding. -/
theorem rounded_neg {x : ℚ} (h : rounded x ≠ 0) : x < 0 ↔ rounded x < 0 := by
  unfold rounded at h ⊢
  by_cases hx : x < 0
  · rw [if_pos hx] at h ⊢
    exact iff_of_true hx (by omega)
  · rw [if_neg hx]
    exact iff_of_false hx (by omega)

/-- **When equal numbers are written alike**: unless they round to zero from different sides. -/
theorem fixed6_eq_iff {x y : ℚ} (h : rounded x = rounded y) :
    fixed6 x = fixed6 y ↔ (rounded x = 0 → (x < 0 ↔ y < 0)) := by
  refine ⟨?_, ?_⟩
  · intro hxy _
    rw [← minus_mem_fixed6, ← minus_mem_fixed6, hxy]
  · intro hzero
    refine fixed6_congr h ?_
    by_cases hx : rounded x = 0
    · exact hzero hx
    · rw [rounded_neg hx, rounded_neg (h ▸ hx), h]

end Intake.Proof
