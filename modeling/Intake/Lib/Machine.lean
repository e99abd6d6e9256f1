import Mathlib.Data.List.Forall2

/-!
# Deterministic machines with outputs

A machine reads one input at a time, answers it and moves to a new state. Nothing
here knows what the states, inputs and outputs are.

Seven rules carry every argument about whole runs:

* `run_invariant`: what every step preserves, every run preserves. In `run_guarded`
  only the steps that meet a condition do, and `run_take_iff` is for a condition that
  is exact.
* `run_log`: a log to which every step appends what its answer says is determined
  by the answers.
* `run_origin`: an append-only projection of the state holds only what some step
  of the run put there, and the run can be cut at that step.
* `run_related`: two machines whose steps preserve a relation answer related
  inputs with related outputs for ever. This is the unwinding rule of
  noninterference proofs, and the simulation rule of refinement proofs.
* `run_refines`: if every step of one machine is matched by a step of another on some
  input, every run of the one is answered as some run of the other.
* `run_projected`: if the inputs a selection drops leave the relation alone, a run
  is related to the run of the selected inputs, and answers them alike. In
  `run_selected` the selected inputs go to another machine.
-/

/-- A machine: in state `s`, input `i` is answered with an output and a next state. -/
abbrev Machine (σ ι ο : Type*) := σ → ι → ο × σ

namespace Machine

variable {σ ι ο τ κ π ε : Type*}

/-- The state after a run. -/
def run (M : Machine σ ι ο) : σ → List ι → σ
  | s, [] => s
  | s, i :: is => run M (M s i).2 is

/-- The outputs of a run, in order. -/
def outputs (M : Machine σ ι ο) : σ → List ι → List ο
  | _, [] => []
  | s, i :: is => (M s i).1 :: outputs M (M s i).2 is

@[simp] theorem run_nil (M : Machine σ ι ο) (s : σ) : run M s [] = s := rfl

@[simp] theorem run_cons (M : Machine σ ι ο) (s : σ) (i : ι) (is : List ι) :
    run M s (i :: is) = run M (M s i).2 is := rfl

theorem run_append (M : Machine σ ι ο) (s : σ) (is js : List ι) :
    run M s (is ++ js) = run M (run M s is) js := by
  induction is generalizing s with
  | nil => rfl
  | cons i is ih => exact ih (M s i).2

theorem run_concat (M : Machine σ ι ο) (s : σ) (is : List ι) (i : ι) :
    run M s (is ++ [i]) = (M (run M s is) i).2 := by
  rw [run_append]; rfl

theorem outputs_append (M : Machine σ ι ο) (s : σ) (is js : List ι) :
    outputs M s (is ++ js) = outputs M s is ++ outputs M (run M s is) js := by
  induction is generalizing s with
  | nil => rfl
  | cons i is ih => exact congrArg ((M s i).1 :: ·) (ih (M s i).2)

/-- **What every step preserves, every run preserves.** -/
theorem run_invariant {M : Machine σ ι ο} {P : σ → Prop}
    (step : ∀ s i, P s → P (M s i).2) {s : σ} (h : P s) (is : List ι) :
    P (run M s is) := by
  induction is generalizing s with
  | nil => exact h
  | cons i is ih => exact ih (step s i h)

/--
**What every admissible step preserves, every admissible run preserves.** Whether a
step is admissible may depend on the state it is taken in.
-/
theorem run_guarded {M : Machine σ ι ο} {P : σ → Prop} {G : σ → ι → Prop}
    (step : ∀ s i, P s → G s i → P (M s i).2) {s : σ} (h : P s) {is : List ι}
    (hG : ∀ pre i post, is = pre ++ i :: post → G (run M s pre) i) : P (run M s is) := by
  induction is generalizing s with
  | nil => exact h
  | cons i is ih =>
      refine ih (step s i h (hG [] i is rfl)) ?_
      intro pre j post hcut
      exact hG (i :: pre) j post (congrArg (i :: ·) hcut)

/-- **Every state of an admissible run** has what every admissible step preserves. -/
theorem run_guarded_take {M : Machine σ ι ο} {P : σ → Prop} {G : σ → ι → Prop}
    (step : ∀ s i, P s → G s i → P (M s i).2) {s : σ} (h : P s) {is : List ι}
    (hG : ∀ pre i post, is = pre ++ i :: post → G (run M s pre) i) (n : ℕ) : P (run M s (is.take n)) := by
  refine run_guarded step h ?_
  intro pre i post hcut
  refine hG pre i (post ++ is.drop n) ?_
  rw [← List.cons_append, ← List.append_assoc, ← hcut, List.take_append_drop]

/--
**Exactly the admissible runs.** Where a step keeps the invariant exactly if it is
admissible, a run keeps it in every state exactly if all its steps are.
-/
theorem run_take_iff {M : Machine σ ι ο} {P : σ → Prop} {G : σ → ι → Prop} {is : List ι}
    (step : ∀ s, ∀ i ∈ is, P s → (P (M s i).2 ↔ G s i)) {s : σ} (h : P s) :
    (∀ n, P (run M s (is.take n))) ↔ ∀ pre i post, is = pre ++ i :: post → G (run M s pre) i := by
  refine ⟨?_, ?_⟩
  · intro hall pre i post hcut
    subst hcut
    have hpre := hall pre.length
    have hnext := hall (pre.length + 1)
    rw [List.take_left] at hpre
    rw [List.take_length_add_append, List.take_succ_cons, List.take_zero, run_concat] at hnext
    exact (step _ i (by simp) hpre).mp hnext
  · intro hG n
    refine run_guarded_take (G := fun s i => i ∈ is ∧ G s i) (fun s i hs hi => (step s i hi.1 hs).mpr hi.2) h ?_ n
    intro pre i post hcut
    exact ⟨by rw [hcut]; simp, hG pre i post hcut⟩

/-- An append-only log only ever grows over a run. -/
theorem run_prefix {M : Machine σ ι ο} {log : σ → List ε}
    (step : ∀ s i, log s <+: log (M s i).2) (s : σ) (is : List ι) : log s <+: log (run M s is) :=
  run_invariant (P := fun t => log s <+: log t) (fun t i h => h.trans (step t i))
    (List.prefix_refl _) is

/-- A log to which every step appends what its answer says is the answers of the run. -/
theorem run_log {M : Machine σ ι ο} {log : σ → List ε} {written : ο → List ε}
    (step : ∀ s i, log (M s i).2 = log s ++ written (M s i).1) (s : σ) (is : List ι) :
    log (run M s is) = log s ++ (outputs M s is).flatMap written := by
  induction is generalizing s with
  | nil => exact (List.append_nil _).symm
  | cons i is ih => rw [run_cons, ih, step, outputs, List.flatMap_cons, List.append_assoc]

/-- What holds of every input and its answer holds pointwise of a run. -/
theorem run_outputs {M : Machine σ ι ο} {Q : ι → ο → Prop} (step : ∀ s i, Q i (M s i).1) (s : σ)
    (is : List ι) : List.Forall₂ Q is (outputs M s is) := by
  induction is generalizing s with
  | nil => exact List.Forall₂.nil
  | cons i is ih => exact List.Forall₂.cons (step s i) (ih _)

theorem length_outputs (M : Machine σ ι ο) (s : σ) (is : List ι) : (outputs M s is).length = is.length :=
  (run_outputs (Q := fun _ _ => True) (fun _ _ => trivial) s is).length_eq.symm

/--
**Every entry of an append-only log has an origin.**

It was there at the start, or the run can be cut at the very step that wrote it:
`new s i` is what input `i` appends in state `s`.
-/
theorem run_origin {M : Machine σ ι ο} {log : σ → List ε} {new : σ → ι → List ε}
    (step : ∀ s i, log (M s i).2 = log s ++ new s i) {s : σ} {is : List ι} {e : ε}
    (h : e ∈ log (run M s is)) :
    e ∈ log s ∨ ∃ pre i post, is = pre ++ i :: post ∧ e ∈ new (run M s pre) i := by
  induction is generalizing s with
  | nil => exact Or.inl h
  | cons i is ih =>
      rcases ih h with h' | ⟨pre, j, post, rfl, hj⟩
      · rw [step] at h'
        rcases List.mem_append.mp h' with h'' | h''
        · exact Or.inl h''
        · exact Or.inr ⟨[], i, is, rfl, h''⟩
      · exact Or.inr ⟨i :: pre, j, post, rfl, hj⟩

/--
**The two-machine rule.** If related states answer related inputs with related
outputs and stay related, then so do runs.
-/
theorem run_related {M : Machine σ ι ο} {N : Machine τ κ π} {R : σ → τ → Prop}
    {I : ι → κ → Prop} {O : ο → π → Prop}
    (step : ∀ s t i j, R s t → I i j → O (M s i).1 (N t j).1 ∧ R (M s i).2 (N t j).2)
    {s : σ} {t : τ} (h : R s t) {is : List ι} {js : List κ} (hij : List.Forall₂ I is js) :
    List.Forall₂ O (outputs M s is) (outputs N t js) ∧ R (run M s is) (run N t js) := by
  induction hij generalizing s t with
  | nil => exact ⟨List.Forall₂.nil, h⟩
  | cons hi _ ih =>
      obtain ⟨hout, hrel⟩ := step s t _ _ h hi
      exact ⟨List.Forall₂.cons hout (ih hrel).1, (ih hrel).2⟩

/--
**The refinement rule.** Where every step is matched by a step of the other machine,
on some input related to its own, every run is answered as a run of the other is.
-/
theorem run_refines {M : Machine σ ι ο} {N : Machine τ κ ο} {R : σ → τ → Prop} {I : ι → κ → Prop}
    (step : ∀ s t i, R s t → ∃ j, I i j ∧ (M s i).1 = (N t j).1 ∧ R (M s i).2 (N t j).2)
    {s : σ} {t : τ} (h : R s t) (is : List ι) :
    ∃ js, List.Forall₂ I is js ∧ outputs M s is = outputs N t js ∧ R (run M s is) (run N t js) := by
  induction is generalizing s t with
  | nil => exact ⟨[], List.Forall₂.nil, rfl, h⟩
  | cons i is ih =>
      obtain ⟨j, hij, hout, hrel⟩ := step s t i h
      obtain ⟨js, hjs, houts, hrels⟩ := ih hrel
      refine ⟨j :: js, List.Forall₂.cons hij hjs, ?_, hrels⟩
      rw [outputs, outputs, hout, houts]

/-- The outputs for the inputs that `keep` selects. -/
def outputsOf (M : Machine σ ι ο) (keep : ι → Bool) : σ → List ι → List ο
  | _, [] => []
  | s, i :: is =>
      if keep i then (M s i).1 :: outputsOf M keep (M s i).2 is else outputsOf M keep (M s i).2 is

/--
**The projection rule.** Selected inputs are answered alike in related states, and
the others change nothing that the relation is about: then a run is related to the
run of the selected inputs alone.
-/
theorem run_projected {M : Machine σ ι ο} {N : Machine τ ι ο} {R : σ → τ → Prop} {keep : ι → Bool}
    (kept : ∀ s t i, keep i = true → R s t → (M s i).1 = (N t i).1 ∧ R (M s i).2 (N t i).2)
    (dropped : ∀ s t i, keep i = false → R s t → R (M s i).2 t)
    {s : σ} {t : τ} (h : R s t) (is : List ι) :
    outputsOf M keep s is = outputsOf N keep t (is.filter keep)
      ∧ R (run M s is) (run N t (is.filter keep)) := by
  induction is generalizing s t with
  | nil => exact ⟨rfl, h⟩
  | cons i is ih =>
      cases hi : keep i with
      | true =>
          obtain ⟨hout, hrel⟩ := kept s t i hi h
          obtain ⟨houts, hrels⟩ := ih hrel
          rw [List.filter_cons_of_pos hi, outputsOf, outputsOf, if_pos hi, if_pos hi, hout, houts]
          exact ⟨rfl, hrels⟩
      | false =>
          have hneg : ¬ keep i = true := by simp [hi]
          rw [List.filter_cons_of_neg hneg, outputsOf, if_neg hneg]
          exact ih (dropped s t i hi h)

/--
**The component rule.** Where some inputs of a machine are inputs of another one, and
the others change nothing that the relation is about, the answers of a run to the
selected inputs are the answers of the other machine's run on these inputs.
-/
theorem run_selected {M : Machine σ ι ο} {N : Machine τ κ π} {R : σ → τ → Prop} (select : ι → Option κ)
    (view : ο → Option π)
    (kept : ∀ s t i k, select i = some k → R s t → view (M s i).1 = some (N t k).1 ∧ R (M s i).2 (N t k).2)
    (dropped : ∀ s t i, select i = none → R s t → view (M s i).1 = none ∧ R (M s i).2 t)
    {s : σ} {t : τ} (h : R s t) (is : List ι) :
    (outputs M s is).filterMap view = outputs N t (is.filterMap select)
      ∧ R (run M s is) (run N t (is.filterMap select)) := by
  induction is generalizing s t with
  | nil => exact ⟨rfl, h⟩
  | cons i is ih =>
      rw [outputs]
      cases hi : select i with
      | none =>
          obtain ⟨hout, hrel⟩ := dropped s t i hi h
          rw [List.filterMap_cons_none hi, List.filterMap_cons_none hout]
          exact ih hrel
      | some k =>
          obtain ⟨hout, hrel⟩ := kept s t i k hi h
          obtain ⟨houts, hrels⟩ := ih hrel
          rw [List.filterMap_cons_some hi, List.filterMap_cons_some hout, outputs, houts]
          exact ⟨rfl, hrels⟩

end Machine
