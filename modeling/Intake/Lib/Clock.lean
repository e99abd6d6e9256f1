import Mathlib.Data.Stream.Init
import Mathlib.Order.Defs.PartialOrder

/-!
# Time stamps

A clock is a stream of readings, and every reading takes one off. If the clock
never goes back, what is stamped with its readings, in the order in which they are
taken, is in the order of time, also when some readings are used for nothing.
-/

namespace Clock

variable {τ : Type*} [Preorder τ] {clock : Stream' τ} {stamps : List τ}

/-- Stamps in the order of time, and a clock that has passed them all and never goes back. -/
structure Stamped (clock : Stream' τ) (stamps : List τ) : Prop where
  steady : ∀ n, clock.get n ≤ clock.get (n + 1)
  sorted : stamps.Pairwise (· ≤ ·)
  past : ∀ t ∈ stamps, t ≤ clock.head

theorem stamped_nil (h : ∀ n, clock.get n ≤ clock.get (n + 1)) : Stamped clock [] :=
  ⟨h, List.Pairwise.nil, fun _ ht => absurd ht List.not_mem_nil⟩

/-- A reading that is not used. -/
theorem Stamped.tail (h : Stamped clock stamps) : Stamped clock.tail stamps :=
  ⟨fun n => h.steady (n + 1), h.sorted, fun t ht => le_trans (h.past t ht) (h.steady 0)⟩

theorem Stamped.drop (h : Stamped clock stamps) (n : ℕ) : Stamped (clock.drop n) stamps := by
  induction n generalizing clock with
  | zero => exact h
  | succ n ih => exact ih h.tail

/-- **A reading that is used as a stamp.** -/
theorem Stamped.stamp (h : Stamped clock stamps) : Stamped clock.tail (stamps ++ [clock.head]) where
  steady := h.tail.steady
  sorted := by
    refine List.pairwise_append.mpr ⟨h.sorted, List.pairwise_singleton _ _, fun t ht t' ht' => ?_⟩
    rw [List.mem_singleton.mp ht']
    exact h.past t ht
  past t ht := by
    rcases List.mem_append.mp ht with ht | ht
    · exact h.tail.past t ht
    · rw [List.mem_singleton.mp ht]
      exact h.steady 0

end Clock
