import Mathlib.Data.List.Basic
import Mathlib.Data.List.Forall2

/-!
# Separator formats

Fields are written one after the other with a separator in between. Two fields can
be told apart again if the separator is missing from the first of them, or from the
second. A whole list of fields can be told apart if the separator is missing from
all of them and the list is not empty: the empty list is written like a list of one
empty field.

`intercalate_eq_iff` is the rule for one level of a nested format: two lists of
records are written alike exactly if they are as long and their records are written
alike, one by one.
-/

namespace Separated

variable {α γ : Type*}

/-- A separator that is not in the first field ends it. -/
theorem first_inj {x : α} {xs xs' ys ys' : List α} (hxs : x ∉ xs) (hxs' : x ∉ xs')
    (h : xs ++ x :: ys = xs' ++ x :: ys') : xs = xs' ∧ ys = ys' := by
  induction xs generalizing xs' with
  | nil =>
      cases xs' with
      | nil => exact ⟨rfl, (List.cons.inj h).2⟩
      | cons a xs' =>
          have hx : x = a := (List.cons.inj h).1
          exact absurd (hx ▸ List.mem_cons_self) hxs'
  | cons a xs ih =>
      cases xs' with
      | nil =>
          have hx : a = x := (List.cons.inj h).1
          exact absurd (hx ▸ List.mem_cons_self) hxs
      | cons b xs' =>
          obtain ⟨hab, hrest⟩ := List.cons.inj h
          obtain ⟨hfirst, hsecond⟩ := ih (fun hx => hxs (List.mem_cons_of_mem _ hx))
            (fun hx => hxs' (List.mem_cons_of_mem _ hx)) hrest
          exact ⟨by rw [hab, hfirst], hsecond⟩

/-- A separator that is not in the last field starts it. -/
theorem last_inj {x : α} {xs xs' ys ys' : List α} (hys : x ∉ ys) (hys' : x ∉ ys')
    (h : xs ++ x :: ys = xs' ++ x :: ys') : xs = xs' ∧ ys = ys' := by
  have hback : ys.reverse ++ x :: xs.reverse = ys'.reverse ++ x :: xs'.reverse := by
    have hreverse := congrArg List.reverse h
    simpa using hreverse
  obtain ⟨hlast, hfirst⟩ := first_inj (by simpa using hys) (by simpa using hys') hback
  exact ⟨List.reverse_injective hfirst, List.reverse_injective hlast⟩

/-- A joined text holds what the fields hold, and separators. -/
theorem mem_intercalate {x a : α} {fields : List (List α)} (h : a ∈ [x].intercalate fields) :
    a = x ∨ ∃ field ∈ fields, a ∈ field := by
  induction fields with
  | nil => exact absurd h List.not_mem_nil
  | cons field rest ih =>
      cases rest with
      | nil => exact Or.inr ⟨field, List.mem_cons_self, by simpa using h⟩
      | cons next rest =>
          rw [List.intercalate_cons_cons, List.mem_append, List.mem_append] at h
          rcases h with (h | h) | h
          · exact Or.inr ⟨field, List.mem_cons_self, h⟩
          · exact Or.inl (List.mem_singleton.mp h)
          · rcases ih h with hsep | ⟨f, hf, ha⟩
            · exact Or.inl hsep
            · exact Or.inr ⟨f, List.mem_cons_of_mem _ hf, ha⟩

/-- **The fields can be told apart.** -/
theorem intercalate_inj [DecidableEq α] {x : α} {fields fields' : List (List α)}
    (hsep : ∀ f ∈ fields, x ∉ f) (hsep' : ∀ f ∈ fields', x ∉ f) (hne : fields ≠ []) (hne' : fields' ≠ [])
    (h : [x].intercalate fields = [x].intercalate fields') : fields = fields' := by
  rw [← List.splitOn_intercalate x hsep hne, h, List.splitOn_intercalate x hsep' hne']

theorem map_eq_map_iff {β : Type*} {f : γ → β} {l l' : List γ} :
    l.map f = l'.map f ↔ List.Forall₂ (fun a b => f a = f b) l l' := by
  rw [← List.forall₂_map_right_iff, ← List.forall₂_map_left_iff, List.forall₂_eq_eq_eq]

/-- **One level of a nested format**: lists are written alike exactly if their records are. -/
theorem intercalate_eq_iff [DecidableEq α] {render : γ → List α} {x : α} {l l' : List γ}
    (hsep : ∀ a, x ∉ render a) (hempty : l = [] ↔ l' = []) :
    [x].intercalate (l.map render) = [x].intercalate (l'.map render)
      ↔ List.Forall₂ (fun a b => render a = render b) l l' := by
  have hfields : ∀ m : List γ, ∀ f ∈ m.map render, x ∉ f := by
    intro m f hf
    obtain ⟨a, _, rfl⟩ := List.mem_map.mp hf
    exact hsep a
  rw [← map_eq_map_iff]
  refine ⟨?_, fun h => by rw [h]⟩
  intro h
  by_cases hl : l = []
  · rw [hl, hempty.mp hl]
  · have hl' : l' ≠ [] := fun hnil => hl (hempty.mpr hnil)
    exact intercalate_inj (hfields l) (hfields l') (by simpa using hl) (by simpa using hl') h

end Separated
