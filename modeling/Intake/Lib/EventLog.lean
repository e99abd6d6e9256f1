import Mathlib.Data.List.Basic
import Mathlib.Data.Option.Basic

/-!
# Append-only logs

A log is a list, oldest entry first, that only grows at its end. Readers search
it in one of two directions: `latest` finds the newest matching entry, and
`List.find?` the oldest. They agree on predicates that match at most once, which
is what makes a log usable as a write-once register file.

The next section is about adjacency: properties saying that an entry of one kind
is immediately preceded or followed by an entry of another. They are local to the
batches in which the log is written. The last two sections are about what came
earlier: entries that need a cause, and entries that carry their own number.
-/

namespace EventLog

variable {ε δ : Type*}

/-! ## Newest-first lookup -/

/-- The newest entry satisfying `p`. -/
def latest (p : ε → Bool) (log : List ε) : Option ε := log.reverse.find? p

@[simp] theorem latest_nil (p : ε → Bool) : latest p [] = none := rfl

/-- New entries are searched first. -/
theorem latest_append (p : ε → Bool) (l m : List ε) :
    latest p (l ++ m) = (latest p m).or (latest p l) := by
  simp [latest, List.find?_append]

theorem latest_singleton (p : ε → Bool) (e : ε) :
    latest p [e] = if p e then some e else none := by
  by_cases h : p e <;> simp [latest, h]

theorem latest_eq_none {p : ε → Bool} {l : List ε} : latest p l = none ↔ ∀ e ∈ l, p e = false := by
  simp [latest]

theorem mem_of_latest {p : ε → Bool} {l : List ε} {e : ε} (h : latest p l = some e) : e ∈ l :=
  List.mem_reverse.mp (List.mem_of_find?_eq_some h)

theorem prop_of_latest {p : ε → Bool} {l : List ε} {e : ε} (h : latest p l = some e) : p e = true :=
  List.find?_some h

/-- A batch with no match leaves the lookup alone. -/
theorem latest_append_of_none {p : ε → Bool} {l m : List ε} (h : latest p m = none) :
    latest p (l ++ m) = latest p l := by
  rw [latest_append, h, Option.none_or]

theorem latest_map (f : ε → δ) (p : δ → Bool) (l : List ε) :
    latest p (l.map f) = (latest (p ∘ f) l).map f := by
  rw [latest, latest, ← List.map_reverse, List.find?_map]

/-- Looking for entries of a kind among the entries of a wider kind. -/
theorem latest_filter {p q : ε → Bool} (h : ∀ e, q e = true → p e = true) (l : List ε) :
    latest q (l.filter p) = latest q l := by
  rw [latest, latest, ← List.filter_reverse, List.find?_filter]
  congr 1
  funext e
  cases hq : q e with
  | false => simp
  | true => simp [h e hq]

/-- Looking through a lossy view of the log, for entries the view keeps. -/
theorem latest_filterMap (g : ε → Option δ) {p : ε → Bool} {q : δ → Bool}
    (hpq : ∀ e, (g e).any q = p e) (l : List ε) :
    latest q (l.filterMap g) = (latest p l).bind g := by
  rw [latest, latest, ← List.filterMap_reverse, List.find?_filterMap]
  simp only [hpq]

/-! ## Entries that match at most once -/

/-- At most one entry of the log satisfies `p`. -/
def AtMostOnce (p : ε → Bool) (log : List ε) : Prop := (log.filter p).length ≤ 1

theorem atMostOnce_nil (p : ε → Bool) : AtMostOnce p [] := by simp [AtMostOnce]

theorem filter_eq_nil_of_latest {p : ε → Bool} {l : List ε} (h : latest p l = none) :
    l.filter p = [] := by
  rw [List.filter_eq_nil_iff]
  intro e he
  rw [latest_eq_none.mp h e he]
  exact Bool.false_ne_true

/-- A batch without a match keeps the bound. -/
theorem AtMostOnce.append_right {p : ε → Bool} {l m : List ε} (hl : AtMostOnce p l)
    (hm : latest p m = none) : AtMostOnce p (l ++ m) := by
  rw [AtMostOnce, List.filter_append, filter_eq_nil_of_latest hm, List.append_nil]
  exact hl

/-- **Check-then-write.** Writing only after an empty lookup keeps the bound. -/
theorem AtMostOnce.append_left {p : ε → Bool} {l m : List ε} (hl : latest p l = none)
    (hm : AtMostOnce p m) : AtMostOnce p (l ++ m) := by
  rw [AtMostOnce, List.filter_append, filter_eq_nil_of_latest hl, List.nil_append]
  exact hm

/-- The single match, as the whole filtered log. -/
theorem AtMostOnce.filter_eq {p : ε → Bool} {l : List ε} (h : AtMostOnce p l) {e : ε} (he : e ∈ l)
    (hp : p e = true) : l.filter p = [e] := by
  have hmem : e ∈ l.filter p := List.mem_filter.mpr ⟨he, hp⟩
  unfold AtMostOnce at h
  match hf : l.filter p with
  | [] => rw [hf] at hmem; exact absurd hmem List.not_mem_nil
  | [x] => rw [hf] at hmem; rw [List.mem_singleton.mp hmem]
  | x :: y :: zs => rw [hf] at h; simp at h

/-- A match is what the newest-first lookup returns. -/
theorem AtMostOnce.latest_eq {p : ε → Bool} {l : List ε} (h : AtMostOnce p l) {e : ε} (he : e ∈ l)
    (hp : p e = true) : latest p l = some e := by
  cases hl : latest p l with
  | none => rw [latest_eq_none.mp hl e he] at hp; exact absurd hp Bool.false_ne_true
  | some x =>
      have hx : x ∈ l.filter p := List.mem_filter.mpr ⟨mem_of_latest hl, prop_of_latest hl⟩
      rw [h.filter_eq he hp] at hx
      rw [List.mem_singleton.mp hx]

/-- Searching for less than `p` from the other end finds the same entry. -/
theorem AtMostOnce.find?_eq {p q : ε → Bool} {l : List ε} (h : AtMostOnce p l)
    (hqp : ∀ e, q e = true → p e = true) {e : ε} (he : e ∈ l) (hq : q e = true) :
    l.find? q = some e := by
  cases hl : l.find? q with
  | none => exact absurd hq (List.find?_eq_none.mp hl e he)
  | some x =>
      have hx : x ∈ l.filter p :=
        List.mem_filter.mpr ⟨List.mem_of_find?_eq_some hl, hqp x (List.find?_some hl)⟩
      rw [h.filter_eq he (hqp e hq)] at hx
      rw [List.mem_singleton.mp hx]

/-- Entries with distinct keys, searched by key. -/
theorem atMostOnce_of_nodup {κ : Type*} {key : ε → κ} {p : ε → Bool} {l : List ε}
    (h : (l.map key).Nodup) {k : κ} (hp : ∀ e, p e = true → key e = k) : AtMostOnce p l := by
  have hsub : ((l.filter p).map key).Nodup := h.sublist (List.filter_sublist.map key)
  have hconst : (l.filter p).map key = List.replicate (l.filter p).length k := by
    rw [List.map_eq_replicate_iff]
    intro e he
    exact hp e (List.mem_filter.mp he).2
  rw [hconst, List.nodup_replicate] at hsub
  exact hsub

/-- If at most one entry matches each key, the entries that name their key name distinct ones. -/
theorem nodup_filterMap_of_atMostOnce {κ : Type*} {asked : ε → Option κ} {p : κ → ε → Bool} {l : List ε}
    (h : ∀ k, AtMostOnce (p k) l) (hp : ∀ e k, asked e = some k → p k e = true) : (l.filterMap asked).Nodup := by
  induction l with
  | nil => exact List.nodup_nil
  | cons e l ih =>
      have hrest : ∀ k, AtMostOnce (p k) l := by
        intro k
        have hk := h k
        unfold AtMostOnce at hk ⊢
        rw [List.filter_cons] at hk
        split at hk
        · rw [List.length_cons] at hk
          omega
        · exact hk
      cases hasked : asked e with
      | none =>
          rw [List.filterMap_cons_none hasked]
          exact ih hrest
      | some k =>
          rw [List.filterMap_cons_some hasked, List.nodup_cons]
          refine ⟨fun hmem => ?_, ih hrest⟩
          -- a second entry of the same key would be a second match
          obtain ⟨d, hd, hdk⟩ := List.mem_filterMap.mp hmem
          have hk := (h k).filter_eq List.mem_cons_self (hp e k hasked)
          rw [List.filter_cons_of_pos (hp e k hasked)] at hk
          have hnil := (List.cons_eq_cons.mp hk).2
          exact (List.filter_eq_nil_iff.mp hnil) d hd (hp d k hdk)

/-! ## Adjacency -/

/-- Every entry satisfying `P` is immediately preceded by one `Q`-related to it. -/
def PrecededBy (P : ε → Prop) (Q : ε → ε → Prop) (log : List ε) : Prop :=
  ∀ a e b, log = a ++ e :: b → P e → ∃ a' d, a = a' ++ [d] ∧ Q d e

/-- Every entry satisfying `P` is immediately followed by one it is `Q`-related to. -/
def FollowedBy (P : ε → Prop) (Q : ε → ε → Prop) (log : List ε) : Prop :=
  ∀ a e b, log = a ++ e :: b → P e → ∃ f b', b = f :: b' ∧ Q e f

/-- Where a marked entry of a concatenation stands. -/
theorem append_eq_mark {l m a b : List ε} {e : ε} (h : l ++ m = a ++ e :: b) :
    (∃ c, l = a ++ e :: c ∧ b = c ++ m) ∨ (∃ c, m = c ++ e :: b ∧ a = l ++ c) := by
  rcases List.append_eq_append_iff.mp h with ⟨c, rfl, hm⟩ | ⟨c, rfl, hc⟩
  · exact Or.inr ⟨c, hm, rfl⟩
  · cases c with
    | nil =>
        rw [List.nil_append] at hc
        exact Or.inr ⟨[], hc.symm, by simp⟩
    | cons x c =>
        obtain ⟨rfl, rfl⟩ := List.cons_eq_cons.mp hc
        exact Or.inl ⟨c, rfl, rfl⟩

theorem precededBy_nil (P : ε → Prop) (Q : ε → ε → Prop) : PrecededBy P Q [] := by
  intro a e b h; simp at h

theorem followedBy_nil (P : ε → Prop) (Q : ε → ε → Prop) : FollowedBy P Q [] := by
  intro a e b h; simp at h

/-- **Adjacency is local to batches**: it survives concatenation. -/
theorem PrecededBy.append {P : ε → Prop} {Q : ε → ε → Prop} {l m : List ε}
    (hl : PrecededBy P Q l) (hm : PrecededBy P Q m) : PrecededBy P Q (l ++ m) := by
  intro a e b h hP
  rcases append_eq_mark h with ⟨c, hc, _⟩ | ⟨c, hc, rfl⟩
  · exact hl a e c hc hP
  · obtain ⟨a', d, rfl, hQ⟩ := hm c e b hc hP
    exact ⟨l ++ a', d, (List.append_assoc ..).symm, hQ⟩

theorem FollowedBy.append {P : ε → Prop} {Q : ε → ε → Prop} {l m : List ε}
    (hl : FollowedBy P Q l) (hm : FollowedBy P Q m) : FollowedBy P Q (l ++ m) := by
  intro a e b h hP
  rcases append_eq_mark h with ⟨c, hc, rfl⟩ | ⟨c, hc, _⟩
  · obtain ⟨f, c', rfl, hQ⟩ := hl a e c hc hP
    exact ⟨f, c' ++ m, rfl, hQ⟩
  · exact hm c e b hc hP

/-- A batch with no entry satisfying `P` is vacuously fine. -/
theorem precededBy_of_forall {P : ε → Prop} {Q : ε → ε → Prop} {l : List ε} (h : ∀ e ∈ l, ¬ P e) :
    PrecededBy P Q l := by
  intro a e b hcut hP
  subst hcut
  exact absurd hP (h e (by simp))

theorem followedBy_of_forall {P : ε → Prop} {Q : ε → ε → Prop} {l : List ε} (h : ∀ e ∈ l, ¬ P e) :
    FollowedBy P Q l := by
  intro a e b hcut hP
  subst hcut
  exact absurd hP (h e (by simp))

/-- One more entry, preceded by the last of the batch if it needs to be. -/
theorem PrecededBy.concat {P : ε → Prop} {Q : ε → ε → Prop} {l : List ε} {e : ε}
    (hl : PrecededBy P Q l) (he : P e → ∃ a d, l = a ++ [d] ∧ Q d e) : PrecededBy P Q (l ++ [e]) := by
  intro a x b h hP
  rcases append_eq_mark h with ⟨c, hc, _⟩ | ⟨c, hc, rfl⟩
  · exact hl a x c hc hP
  · cases c with
    | nil =>
        obtain ⟨rfl, _⟩ := List.cons_eq_cons.mp hc
        obtain ⟨a, d, rfl, hQ⟩ := he hP
        exact ⟨a, d, List.append_nil _, hQ⟩
    | cons _ _ => simp at hc

/-- Two entries, the second of which does not need a follower. -/
theorem followedBy_pair {P : ε → Prop} {Q : ε → ε → Prop} {e f : ε} (he : P e → Q e f) (hf : ¬ P f) :
    FollowedBy P Q [e, f] := by
  intro a x b h hP
  cases a with
  | nil =>
      obtain ⟨rfl, rfl⟩ := List.cons_eq_cons.mp h
      exact ⟨f, [], rfl, he hP⟩
  | cons y a =>
      obtain ⟨-, hab⟩ := List.cons_eq_cons.mp h
      cases a with
      | nil => exact absurd hP ((List.cons_eq_cons.mp hab).1 ▸ hf)
      | cons _ _ => simp at hab

/-- Adjacency among the images of the entries. -/
theorem PrecededBy.of_map {P : δ → Prop} {Q : δ → δ → Prop} {f : ε → δ} {l : List ε}
    (h : PrecededBy P Q (l.map f)) : PrecededBy (fun e => P (f e)) (fun d e => Q (f d) (f e)) l := by
  intro a e b hcut hP
  subst hcut
  obtain ⟨a', d, ha, hQ⟩ := h (a.map f) (f e) (b.map f) (by simp) hP
  obtain ⟨a₀, l, rfl, -, hl⟩ := List.map_eq_append_iff.mp ha
  obtain ⟨d₀, rfl, rfl⟩ := List.map_eq_singleton_iff.mp hl
  exact ⟨a₀, d₀, rfl, hQ⟩

theorem FollowedBy.of_map {P : δ → Prop} {Q : δ → δ → Prop} {f : ε → δ} {l : List ε}
    (h : FollowedBy P Q (l.map f)) : FollowedBy (fun e => P (f e)) (fun d e => Q (f d) (f e)) l := by
  intro a e b hcut hP
  subst hcut
  obtain ⟨d, b', hb, hQ⟩ := h (a.map f) (f e) (b.map f) (by simp) hP
  obtain ⟨d₀, b₀, rfl, rfl, -⟩ := List.map_eq_cons_iff.mp hb
  exact ⟨d₀, b₀, rfl, hQ⟩

/-! ## Causes -/

/-- Every entry satisfying `P` has an earlier one `Q`-related to it. -/
def CausedBy (P : ε → Prop) (Q : ε → ε → Prop) (log : List ε) : Prop :=
  ∀ a e b, log = a ++ e :: b → P e → ∃ d ∈ a, Q d e

theorem causedBy_nil (P : ε → Prop) (Q : ε → ε → Prop) : CausedBy P Q [] := by
  intro a e b h; simp at h

/-- A batch whose entries are caused by what was in the log before. -/
theorem CausedBy.append {P : ε → Prop} {Q : ε → ε → Prop} {l m : List ε} (hl : CausedBy P Q l)
    (hm : ∀ e ∈ m, P e → ∃ d ∈ l, Q d e) : CausedBy P Q (l ++ m) := by
  intro a e b h hP
  rcases append_eq_mark h with ⟨c, hc, _⟩ | ⟨c, rfl, rfl⟩
  · exact hl a e c hc hP
  · obtain ⟨d, hd, hQ⟩ := hm e (by simp) hP
    exact ⟨d, List.mem_append_left _ hd, hQ⟩

theorem CausedBy.of_map {P : δ → Prop} {Q : δ → δ → Prop} {f : ε → δ} {l : List ε}
    (h : CausedBy P Q (l.map f)) : CausedBy (fun e => P (f e)) (fun d e => Q (f d) (f e)) l := by
  intro a e b hcut hP
  subst hcut
  obtain ⟨d, hd, hQ⟩ := h (a.map f) (f e) (b.map f) (by simp) hP
  obtain ⟨d₀, hd₀, rfl⟩ := List.mem_map.mp hd
  exact ⟨d₀, hd₀, hQ⟩

/-! ## Numbers -/

/-- The entries carry their positions, counted from one. -/
def Numbered (num : ε → Nat) (log : List ε) : Prop := ∀ n e, log[n]? = some e → num e = n + 1

theorem numbered_nil (num : ε → Nat) : Numbered num [] := by
  intro n e h; simp at h

theorem Numbered.concat {num : ε → Nat} {l : List ε} (h : Numbered num l) {e : ε}
    (he : num e = l.length + 1) : Numbered num (l ++ [e]) := by
  intro n x hx
  rcases Nat.lt_or_ge n l.length with hn | hn
  · rw [List.getElem?_append_left hn] at hx
    exact h n x hx
  · rw [List.getElem?_append_right hn, List.getElem?_singleton] at hx
    split_ifs at hx with h0
    rw [← Option.some.inj hx, he]
    omega

/-- A number is at most the length of the log. -/
theorem Numbered.le_length {num : ε → Nat} {l : List ε} (h : Numbered num l) {e : ε} (he : e ∈ l) :
    num e ≤ l.length := by
  obtain ⟨n, hn, rfl⟩ := List.mem_iff_getElem.mp he
  rw [h n _ (List.getElem?_eq_getElem hn)]
  exact hn

/-- A later entry has a greater number. -/
theorem Numbered.lt_of_mem {num : ε → Nat} {l m : List ε} (h : Numbered num (l ++ m)) {d e : ε}
    (hd : d ∈ l) (he : e ∈ m) : num d < num e := by
  have hl : Numbered num l := fun n x hx =>
    h n x (by rw [List.getElem?_append_left (List.getElem?_eq_some_iff.mp hx).1]; exact hx)
  obtain ⟨n, hn, rfl⟩ := List.mem_iff_getElem.mp he
  have hnum : num m[n] = l.length + n + 1 := h (l.length + n) m[n] (by
    rw [List.getElem?_append_right (Nat.le_add_right ..), Nat.add_sub_cancel_left,
      List.getElem?_eq_getElem hn])
  have hle := hl.le_length hd
  omega

end EventLog
