import Mathlib.Data.Multiset.Basic
import Mathlib.Data.Multiset.UnionInter
import Mathlib.Data.Stream.Init

/-!
# Values drawn from a supply

A supply is a stream of values still to come. Whoever needs a value draws the
first one; drawn values may be used once, or be thrown away.

`Spent` is the account: what is left is the supply behind some point, and what was
used was all drawn before it, each value as often as it was drawn. If the supply
never repeats itself, no value is used twice, and what is drawn next was not used
before.
-/

namespace Supply

variable {α : Type*}

theorem take_add (n m : Nat) (s : Stream' α) : s.take (n + m) = s.take n ++ (s.drop n).take m := by
  induction n generalizing s with
  | zero => rw [Nat.zero_add]; rfl
  | succ n ih =>
      rw [Nat.succ_add, Stream'.take_succ, Stream'.take_succ, List.cons_append, ih s.tail, Stream'.drop_succ]

/-- A generator that never repeats itself draws distinct ids. -/
theorem nodup_take {s : Stream' α} (h : Function.Injective s.get) (n : Nat) : (s.take n).Nodup := by
  induction n with
  | zero => exact List.nodup_nil
  | succ n ih =>
      rw [Stream'.take_succ', List.nodup_append]
      refine ⟨ih, List.nodup_singleton _, ?_⟩
      intro a ha b hb hab
      obtain ⟨k, hlength, rfl⟩ := List.mem_iff_getElem.mp ha
      have hk : k < n := by
        rw [Stream'.length_take] at hlength
        exact hlength
      have hget : (s.take n)[k]? = some (s.get k) := Stream'.getElem?_take hk
      rw [List.getElem?_eq_getElem hlength, Option.some.injEq] at hget
      rw [hget, List.mem_singleton.mp hb] at hab
      have hkn := h hab
      omega

/-- Of the supply `s`, `rest` is left; of what was drawn, `used` was used. -/
def Spent (s rest : Stream' α) (used : Multiset α) : Prop :=
  ∃ n, rest = s.drop n ∧ used ≤ (s.take n : Multiset α)

theorem spent_nothing (s : Stream' α) : Spent s s 0 := ⟨0, rfl, Multiset.zero_le _⟩

namespace Spent

variable {s rest : Stream' α} {used used' : Multiset α}

/-- Less was used. -/
theorem mono (h : Spent s rest used) (hle : used' ≤ used) : Spent s rest used' := by
  obtain ⟨n, hrest, hused⟩ := h
  exact ⟨n, hrest, hle.trans hused⟩

/-- **Some values are drawn and used.** -/
theorem draw (h : Spent s rest used) (m : Nat) : Spent s (rest.drop m) (used + (rest.take m : Multiset α)) := by
  obtain ⟨n, rfl, hused⟩ := h
  refine ⟨n + m, Stream'.drop_drop .., ?_⟩
  rw [take_add, ← Multiset.coe_add]
  exact Multiset.add_le_add_right hused

/-- One value is drawn and used. -/
theorem draw_one (h : Spent s rest used) : Spent s rest.tail (rest.head ::ₘ used) := by
  have hone := h.draw 1
  rw [Multiset.add_comm] at hone
  exact hone

/-- **No value is used twice.** -/
theorem nodup (h : Spent s rest used) (hs : Function.Injective s.get) : used.Nodup := by
  obtain ⟨n, _, hused⟩ := h
  exact Multiset.nodup_of_le hused (Multiset.coe_nodup.mpr (nodup_take hs n))

/-- **The next value is a new one.** -/
theorem fresh (h : Spent s rest used) (hs : Function.Injective s.get) : rest.head ∉ used :=
  (Multiset.nodup_cons.mp (h.draw_one.nodup hs)).1

end Spent

end Supply
