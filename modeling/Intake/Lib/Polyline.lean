import Mathlib.Algebra.BigOperators.Group.List.Basic
import Mathlib.Data.List.Rotate
import Mathlib.Tactic.Abel

/-!
# Sums over the edges of a path

A list of vertices is a path, and its edges are the pairs of neighbours. A path is
closed if it ends where it began; the list of its corners leaves the last vertex
out.

The sum of a function over the edges of a closed path is a cyclic sum over the
corners: `edgeSum_close_rotate` says that it does not matter where the path is
entered. A difference of potentials cancels along the way, and around a closed
path altogether (`edgeSum_telescope`).
-/

namespace Polyline

variable {α β M : Type*}

/-- The path is not empty and ends where it began. -/
def Closed (path : List α) : Prop := path ≠ [] ∧ path.head? = path.getLast?

/-- The path around some corners. -/
def close (corners : List α) : List α := corners ++ corners.take 1

/-- The same closed path, entered at its `n`th vertex. -/
def restart (n : ℕ) (path : List α) : List α := close (path.dropLast.rotate n)

instance [DecidableEq α] (path : List α) : Decidable (Closed path) :=
  inferInstanceAs (Decidable (_ ∧ _))

/-! ## Closed paths and their corners -/

theorem close_cons (a : α) (corners : List α) : close (a :: corners) = a :: (corners ++ [a]) := rfl

theorem closed_close {corners : List α} (h : corners ≠ []) : Closed (close corners) := by
  cases corners with
  | nil => exact absurd rfl h
  | cons a corners =>
      refine ⟨List.cons_ne_nil _ _, ?_⟩
      rw [close_cons, ← List.cons_append, List.getLast?_concat]
      rfl

theorem Closed.reverse {path : List α} (h : Closed path) : Closed path.reverse := by
  refine ⟨fun hnil => h.1 (List.reverse_eq_nil_iff.mp hnil), ?_⟩
  rw [List.head?_reverse, List.getLast?_reverse]
  exact h.2.symm

/-- A closed path is one vertex, or goes around its corners. -/
theorem Closed.cases {path : List α} (h : Closed path) :
    (∃ a, path = [a]) ∨ (path.dropLast ≠ [] ∧ close path.dropLast = path) := by
  obtain ⟨hne, hends⟩ := h
  cases path with
  | nil => exact absurd rfl hne
  | cons a rest =>
      rcases List.eq_nil_or_concat' rest with hrest | ⟨corners, b, hrest⟩
      · exact Or.inl ⟨a, by rw [hrest]⟩
      · subst hrest
        rw [← List.cons_append, List.getLast?_concat] at hends
        obtain rfl : a = b := Option.some.inj hends
        have hdrop : (a :: (corners ++ [a])).dropLast = a :: corners := by
          rw [← List.cons_append, List.dropLast_concat]
        rw [hdrop]
        exact Or.inr ⟨List.cons_ne_nil _ _, rfl⟩

theorem length_close {corners : List α} (h : corners ≠ []) : (close corners).length = corners.length + 1 := by
  cases corners with
  | nil => exact absurd rfl h
  | cons a corners => simp [close_cons]

theorem mem_close {corners : List α} {a : α} : a ∈ close corners ↔ a ∈ corners := by
  rw [close, List.mem_append]
  exact ⟨fun h => h.elim id List.mem_of_mem_take, Or.inl⟩

/-! ## Edge sums -/

section EdgeSum

variable [AddCommMonoid M]

/-- The sum of a function over the edges of a path, in order. -/
def edgeSum (f : α → α → M) : List α → M
  | [] => 0
  | [_] => 0
  | a :: b :: path => f a b + edgeSum f (b :: path)

/-- A loop over the pairs of neighbours, with an accumulator. -/
theorem foldl_edges (f : α → α → M) (path : List α) (s : M) :
    (path.zip path.tail).foldl (fun s e => s + f e.1 e.2) s = s + edgeSum f path := by
  induction path generalizing s with
  | nil => exact (add_zero s).symm
  | cons a path ih =>
      cases path with
      | nil => exact (add_zero s).symm
      | cons b path =>
          have hrest := ih (s + f a b)
          rw [edgeSum, ← add_assoc]
          exact hrest

/-- A path can be cut at a vertex. -/
theorem edgeSum_append (f : α → α → M) (xs : List α) (a : α) (ys : List α) :
    edgeSum f (xs ++ a :: ys) = edgeSum f (xs ++ [a]) + edgeSum f (a :: ys) := by
  induction xs with
  | nil => exact (zero_add _).symm
  | cons x xs ih =>
      cases xs with
      | nil => simp [edgeSum]
      | cons y xs =>
          simp only [List.cons_append, edgeSum] at ih ⊢
          rw [ih, add_assoc]

theorem edgeSum_congr {f g : α → α → M} {path : List α} (h : ∀ a ∈ path, ∀ b ∈ path, f a b = g a b) :
    edgeSum f path = edgeSum g path := by
  induction path with
  | nil => rfl
  | cons a path ih =>
      cases path with
      | nil => rfl
      | cons b path =>
          have hrest := ih fun x hx y hy => h x (List.mem_cons_of_mem _ hx) y (List.mem_cons_of_mem _ hy)
          rw [edgeSum, edgeSum, hrest, h a (by simp) b (by simp)]

theorem edgeSum_add (f g : α → α → M) (path : List α) :
    edgeSum (fun a b => f a b + g a b) path = edgeSum f path + edgeSum g path := by
  induction path with
  | nil => exact (add_zero 0).symm
  | cons a path ih =>
      cases path with
      | nil => exact (add_zero 0).symm
      | cons b path =>
          rw [edgeSum, edgeSum, edgeSum, ih]
          exact add_add_add_comm _ _ _ _

theorem edgeSum_map (f : β → β → M) (φ : α → β) (path : List α) :
    edgeSum f (path.map φ) = edgeSum (fun a b => f (φ a) (φ b)) path := by
  induction path with
  | nil => rfl
  | cons a path ih =>
      cases path with
      | nil => rfl
      | cons b path =>
          rw [edgeSum, ← ih]
          rfl

/-- Walking back, every edge is crossed the other way. -/
theorem edgeSum_reverse (f : α → α → M) (path : List α) :
    edgeSum f path.reverse = edgeSum (fun a b => f b a) path := by
  induction path with
  | nil => rfl
  | cons a path ih =>
      cases path with
      | nil => rfl
      | cons b path =>
          have hcut : (a :: b :: path).reverse = path.reverse ++ b :: [a] := by simp
          rw [hcut, edgeSum_append, ← List.reverse_cons, ih, edgeSum, edgeSum, edgeSum, add_zero, add_comm]

/-- Around a closed path, the edges are the corners with their successors. -/
theorem edgeSum_close (f : α → α → M) (corners : List α) :
    edgeSum f (close corners) = (List.zipWith f corners (corners.rotate 1)).sum := by
  -- the last corner is followed by the first one, which the induction must not lose
  have hopen : ∀ (first a : α) (rest : List α),
      edgeSum f (a :: (rest ++ [first])) = (List.zipWith f (a :: rest) (rest ++ [first])).sum := by
    intro first a rest
    induction rest generalizing a with
    | nil => simp [edgeSum]
    | cons b rest ih => rw [List.cons_append, edgeSum, ih, List.zipWith_cons_cons, List.sum_cons]
  cases corners with
  | nil => rfl
  | cons a corners =>
      rw [close_cons, hopen, List.rotate_cons_succ, List.rotate_zero]

/-- **A closed path can be entered anywhere.** -/
theorem edgeSum_close_rotate (f : α → α → M) (corners : List α) (n : ℕ) :
    edgeSum f (close (corners.rotate n)) = edgeSum f (close corners) := by
  rw [edgeSum_close, edgeSum_close, List.rotate_rotate, Nat.add_comm n 1, ← List.rotate_rotate,
    ← List.zipWith_rotate_distrib f corners (corners.rotate 1) n (List.length_rotate ..).symm]
  exact (List.rotate_perm _ n).sum_eq

theorem edgeSum_restart (f : α → α → M) {path : List α} (h : Closed path) (n : ℕ) :
    edgeSum f (restart n path) = edgeSum f path := by
  rw [restart, edgeSum_close_rotate]
  rcases h.cases with ⟨a, rfl⟩ | ⟨_, hclose⟩
  · rfl
  · rw [hclose]

end EdgeSum

section Potentials

variable [AddCommGroup M]

theorem edgeSum_neg (f : α → α → M) (path : List α) :
    edgeSum (fun a b => -f a b) path = -edgeSum f path := by
  induction path with
  | nil => exact neg_zero.symm
  | cons a path ih =>
      cases path with
      | nil => exact neg_zero.symm
      | cons b path => rw [edgeSum, edgeSum, ih, neg_add]

/-- Along a path, a difference of potentials leaves the two ends. -/
theorem edgeSum_sub (φ : α → M) (a b : α) (path : List α) :
    edgeSum (fun x y => φ y - φ x) (a :: (path ++ [b])) = φ b - φ a := by
  induction path generalizing a with
  | nil => simp [edgeSum]
  | cons c path ih =>
      rw [List.cons_append, edgeSum, ih]
      abel

/-- **Around a closed path, a difference of potentials cancels.** -/
theorem edgeSum_telescope (φ : α → M) {path : List α} (h : Closed path) :
    edgeSum (fun x y => φ y - φ x) path = 0 := by
  rcases h.cases with ⟨a, rfl⟩ | ⟨hne, hclose⟩
  · rfl
  · rw [← hclose]
    cases hcorners : path.dropLast with
    | nil => exact absurd hcorners hne
    | cons a corners => rw [close_cons, edgeSum_sub, sub_self]

end Potentials

end Polyline
