import Intake.Lib.Machine

/-!
# Deliveries

A network may deliver an input again: later, after other inputs, and in another form.
Whether an input repeats another one is for a relation to say. A machine that takes
no notice of an input once another has settled it behaves as if every input that
repeats an earlier one had been lost.
-/

namespace Delivery

variable {σ ι ο α : Type*}

/-- The entries whose input repeats none before it; `seen` came before the list. -/
def firsts (repeats : ι → ι → Bool) (key : α → ι) : List ι → List α → List α
  | _, [] => []
  | seen, x :: xs =>
      if seen.any (repeats · (key x)) then firsts repeats key (key x :: seen) xs
      else x :: firsts repeats key (key x :: seen) xs

/-- The inputs of a run, each with its output. -/
def trace (M : Machine σ ι ο) : σ → List ι → List (ι × ο)
  | _, [] => []
  | s, i :: is => (i, (M s i).1) :: trace M (M s i).2 is

variable {M : Machine σ ι ο} {repeats : ι → ι → Bool} {R : σ → σ → Prop} (Settled : σ → ι → Prop)

/-- What was settled stays so, and so does what the next input settles. -/
theorem settled_cons (settles : ∀ s i j, repeats i j = true → Settled (M s i).2 j)
    (keeps : ∀ s i j, Settled s j → Settled (M s i).2 j) {s : σ} {seen : List ι}
    (hseen : ∀ i ∈ seen, ∀ j, repeats i j = true → Settled s j) (i : ι) :
    ∀ k ∈ i :: seen, ∀ j, repeats k j = true → Settled (M s i).2 j := by
  intro k hk j hj
  rcases List.mem_cons.mp hk with rfl | hk
  · exact settles s k j hj
  · exact keeps s i j (hseen k hk j hj)

/--
**The delivery rule.** The run of the inputs that repeat none before them ends in a
related state, and its trace is what is left of the trace of the run when the
repeated inputs are taken out.
-/
theorem run_firsts
    (same : ∀ s t i, R s t → (M s i).1 = (M t i).1 ∧ R (M s i).2 (M t i).2)
    (settles : ∀ s i j, repeats i j = true → Settled (M s i).2 j)
    (keeps : ∀ s i j, Settled s j → Settled (M s i).2 j)
    (silent : ∀ s t i, Settled s i → R s t → R (M s i).2 t)
    {s t : σ} (h : R s t) {seen : List ι} (hseen : ∀ i ∈ seen, ∀ j, repeats i j = true → Settled s j)
    (is : List ι) :
    firsts repeats Prod.fst seen (trace M s is) = trace M t (firsts repeats id seen is)
      ∧ R (Machine.run M s is) (Machine.run M t (firsts repeats id seen is)) := by
  induction is generalizing s t seen with
  | nil => exact ⟨rfl, h⟩
  | cons i is ih =>
      have hnext := settled_cons Settled settles keeps hseen i
      rw [trace, firsts, firsts]
      dsimp only [id]
      by_cases hi : seen.any (repeats · i) = true
      · obtain ⟨k, hk, hrepeats⟩ := List.any_eq_true.mp hi
        rw [if_pos hi, if_pos hi]
        exact ih (silent s t i (hseen k hk i hrepeats) h) hnext
      · obtain ⟨hout, hrel⟩ := same s t i h
        obtain ⟨htrace, hrun⟩ := ih hrel hnext
        rw [if_neg hi, if_neg hi, trace, hout, htrace]
        exact ⟨rfl, hrun⟩

end Delivery
