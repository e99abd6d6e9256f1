import Mathlib.Data.List.Induction
import Mathlib.Data.List.Basic

/-!
# Histories of guarded writes

A history is a list of attempts, oldest first. Whether an attempt succeeds is
decided by the attempts before it. A table that overwrites shows the last success
of a kind, one that refuses to overwrite the first.

`last_concat` and `first_concat` say what one more attempt does to either.
-/

namespace History

variable {ε : Type*} {ok : List ε → ε → Prop} {p : ε → Prop} {l : List ε} {x y : ε}

/-- Some attempt of kind `p` succeeded. -/
def Ever (ok : List ε → ε → Prop) (p : ε → Prop) (l : List ε) : Prop :=
  ∃ pre x post, l = pre ++ x :: post ∧ p x ∧ ok pre x

/-- `x` is the last success of kind `p`. -/
def Last (ok : List ε → ε → Prop) (p : ε → Prop) (l : List ε) (x : ε) : Prop :=
  ∃ pre post, l = pre ++ x :: post ∧ p x ∧ ok pre x
    ∧ ∀ mid y rest, post = mid ++ y :: rest → p y → ¬ ok (pre ++ x :: mid) y

/-- `x` is the first success of kind `p`. -/
def First (ok : List ε → ε → Prop) (p : ε → Prop) (l : List ε) (x : ε) : Prop :=
  ∃ pre post, l = pre ++ x :: post ∧ p x ∧ ok pre x
    ∧ ∀ mid y rest, pre = mid ++ y :: rest → p y → ¬ ok mid y

/-- A cut of a longer history is at its end, or cuts the history before. -/
theorem cut_concat {pre post : List ε} :
    l ++ [y] = pre ++ x :: post ↔ (l = pre ∧ y = x ∧ post = []) ∨ ∃ rest, post = rest ++ [y] ∧ l = pre ++ x :: rest := by
  refine ⟨?_, ?_⟩
  · intro hcut
    rcases List.eq_nil_or_concat' post with rfl | ⟨rest, z, rfl⟩
    · obtain ⟨hl, hy⟩ := List.append_inj' hcut rfl
      exact Or.inl ⟨hl, List.head_eq_of_cons_eq hy, rfl⟩
    · rw [← List.cons_append, ← List.append_assoc] at hcut
      obtain ⟨hl, hy⟩ := List.append_inj' hcut rfl
      exact Or.inr ⟨rest, by rw [List.head_eq_of_cons_eq hy], hl⟩
  · rintro (⟨rfl, rfl, rfl⟩ | ⟨rest, rfl, rfl⟩)
    · rfl
    · rw [← List.cons_append, ← List.append_assoc]

theorem ever_concat : Ever ok p (l ++ [y]) ↔ Ever ok p l ∨ (p y ∧ ok l y) := by
  refine ⟨?_, ?_⟩
  · rintro ⟨pre, x, post, hcut, hp, hok⟩
    rcases cut_concat.mp hcut with ⟨rfl, rfl, rfl⟩ | ⟨rest, rfl, rfl⟩
    · exact Or.inr ⟨hp, hok⟩
    · exact Or.inl ⟨pre, x, rest, rfl, hp, hok⟩
  · rintro (⟨pre, x, post, rfl, hp, hok⟩ | ⟨hp, hok⟩)
    · exact ⟨pre, x, post ++ [y], cut_concat.mpr (Or.inr ⟨post, rfl, rfl⟩), hp, hok⟩
    · exact ⟨l, y, [], rfl, hp, hok⟩

/-- **One more attempt** takes the last place if it succeeds. -/
theorem last_concat :
    Last ok p (l ++ [y]) x ↔ (p y ∧ ok l y ∧ x = y) ∨ (¬ (p y ∧ ok l y) ∧ Last ok p l x) := by
  refine ⟨?_, ?_⟩
  · rintro ⟨pre, post, hcut, hp, hok, hlater⟩
    rcases cut_concat.mp hcut with ⟨rfl, rfl, rfl⟩ | ⟨rest, rfl, rfl⟩
    · exact Or.inl ⟨hp, hok, rfl⟩
    · refine Or.inr ⟨fun hy => hlater rest y [] rfl hy.1 hy.2, pre, rest, rfl, hp, hok, ?_⟩
      intro mid z more hrest
      exact hlater mid z (more ++ [y]) (cut_concat.mpr (Or.inr ⟨more, rfl, hrest⟩))
  · rintro (⟨hp, hok, rfl⟩ | ⟨hy, pre, post, rfl, hp, hok, hlater⟩)
    · exact ⟨l, [], rfl, hp, hok, fun mid z more hmid => absurd hmid.symm (by simp)⟩
    · refine ⟨pre, post ++ [y], cut_concat.mpr (Or.inr ⟨post, rfl, rfl⟩), hp, hok, ?_⟩
      intro mid z more hmid hz hokz
      rcases cut_concat.mp hmid with ⟨rfl, rfl, rfl⟩ | ⟨rest, rfl, rfl⟩
      · exact hy ⟨hz, hokz⟩
      · exact hlater mid z rest rfl hz hokz

theorem first_of_ever (h : Ever ok p l) : ∃ x, First ok p l x := by
  induction l using List.reverseRecOn with
  | nil =>
      obtain ⟨pre, x, post, hcut, _⟩ := h
      exact absurd hcut (by simp)
  | append_singleton l y ih =>
      by_cases hl : Ever ok p l
      · obtain ⟨x, pre, post, rfl, hp, hok, hearlier⟩ := ih hl
        exact ⟨x, pre, post ++ [y], cut_concat.mpr (Or.inr ⟨post, rfl, rfl⟩), hp, hok, hearlier⟩
      · obtain ⟨hp, hok⟩ := (ever_concat.mp h).resolve_left hl
        exact ⟨y, l, [], rfl, hp, hok, fun mid z rest hmid hz hokz => hl ⟨mid, z, rest, hmid, hz, hokz⟩⟩

theorem ever_iff_first : Ever ok p l ↔ ∃ x, First ok p l x :=
  ⟨first_of_ever, fun ⟨x, pre, post, hcut, hp, hok, _⟩ => ⟨pre, x, post, hcut, hp, hok⟩⟩

/-- **One more attempt** comes first only if none succeeded before. -/
theorem first_concat :
    First ok p (l ++ [y]) x ↔ First ok p l x ∨ (¬ Ever ok p l ∧ p y ∧ ok l y ∧ x = y) := by
  refine ⟨?_, ?_⟩
  · rintro ⟨pre, post, hcut, hp, hok, hearlier⟩
    rcases cut_concat.mp hcut with ⟨rfl, rfl, rfl⟩ | ⟨rest, rfl, rfl⟩
    · exact Or.inr ⟨fun ⟨mid, z, rest, hmid, hz, hokz⟩ => hearlier mid z rest hmid hz hokz, hp, hok, rfl⟩
    · exact Or.inl ⟨pre, rest, rfl, hp, hok, hearlier⟩
  · rintro (⟨pre, post, rfl, hp, hok, hearlier⟩ | ⟨hnone, hp, hok, rfl⟩)
    · exact ⟨pre, post ++ [y], cut_concat.mpr (Or.inr ⟨post, rfl, rfl⟩), hp, hok, hearlier⟩
    · exact ⟨l, [], rfl, hp, hok, fun mid z rest hmid hz hokz => hnone ⟨mid, z, rest, hmid, hz, hokz⟩⟩

/-! ## Attempts that succeed, and attempts that change nothing -/

theorem last_success (hp : p y) (hok : ok l y) : Last ok p (l ++ [y]) x ↔ x = y := by
  rw [last_concat, and_iff_right hp, and_iff_right hok, or_iff_left fun h => h.1 ⟨hp, hok⟩]

theorem first_success (hnone : ¬ Ever ok p l) (hp : p y) (hok : ok l y) : First ok p (l ++ [y]) x ↔ x = y := by
  rw [first_concat, and_iff_right hnone, and_iff_right hp, and_iff_right hok, or_iff_right]
  exact fun h => hnone (ever_iff_first.mpr ⟨x, h⟩)

theorem last_skip (h : ¬ (p y ∧ ok l y)) : Last ok p (l ++ [y]) x ↔ Last ok p l x := by
  rw [last_concat, and_iff_right h, or_iff_right fun hy => h ⟨hy.1, hy.2.1⟩]

theorem first_skip (h : ¬ (p y ∧ ok l y)) : First ok p (l ++ [y]) x ↔ First ok p l x := by
  rw [first_concat, or_iff_left fun hy => h ⟨hy.2.1, hy.2.2.1⟩]

theorem not_last_nil : ¬ Last ok p [] x := fun ⟨_, _, hcut, _⟩ => absurd hcut (by simp)

theorem not_first_nil : ¬ First ok p [] x := fun ⟨_, _, hcut, _⟩ => absurd hcut (by simp)

theorem ever_iff_last : Ever ok p l ↔ ∃ x, Last ok p l x := by
  refine ⟨?_, fun ⟨x, pre, post, hcut, hp, hok, _⟩ => ⟨pre, x, post, hcut, hp, hok⟩⟩
  induction l using List.reverseRecOn with
  | nil =>
      rintro ⟨pre, x, post, hcut, _⟩
      exact absurd hcut (by simp)
  | append_singleton l y ih =>
      intro h
      by_cases hy : p y ∧ ok l y
      · exact ⟨y, last_concat.mpr (Or.inl ⟨hy.1, hy.2, rfl⟩)⟩
      · obtain ⟨x, hx⟩ := ih ((ever_concat.mp h).resolve_right hy)
        exact ⟨x, (last_skip hy).mpr hx⟩

end History
