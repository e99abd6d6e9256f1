import Mathlib.Data.List.Nodup
import Mathlib.Data.Option.Basic

/-!
# Queues that accept each key once

A queue of items with a key, and the set of keys it has seen. Enqueuing an item
whose key was seen returns the item already queued and changes nothing.

The seen set is redundant, and that redundancy is the whole correctness argument
of such a queue: the structure carries it as fields, so the lookup behind a
rejected enqueue cannot fail. Read as a map from keys to items, the queue is a
first-write-wins register file: `itemFor_enqueue`.
-/

/-- Items in arrival order, with the set of keys seen so far. -/
structure KeyedQueue (α : Type*) {κ : Type*} (key : α → κ) where
  items : List α
  seen : List κ
  /-- The set holds exactly the keys of the queued items. -/
  seen_eq : seen = items.map key
  /-- No key is queued twice. -/
  nodup : seen.Nodup

namespace KeyedQueue

variable {α κ : Type*} [DecidableEq κ] {key : α → κ}

/-- The empty queue. -/
def empty (key : α → κ) : KeyedQueue α key := ⟨[], [], rfl, List.nodup_nil⟩

/-- Whether a key has been seen. -/
def has (q : KeyedQueue α key) (k : κ) : Bool := decide (k ∈ q.seen)

/-- The item queued under a key. -/
def itemFor (q : KeyedQueue α key) (k : κ) : Option α := q.items.find? (fun a => decide (key a = k))

omit [DecidableEq κ] in
theorem ext_items {q q' : KeyedQueue α key} (h : q.items = q'.items) : q = q' := by
  obtain ⟨items, seen, hs, hn⟩ := q
  obtain ⟨items', seen', hs', hn'⟩ := q'
  subst hs hs'
  cases h
  rfl

theorem has_iff_itemFor {q : KeyedQueue α key} {k : κ} : q.has k = true ↔ (q.itemFor k).isSome := by
  simp [has, itemFor, q.seen_eq]

theorem has_iff_mem {q : KeyedQueue α key} {k : κ} : q.has k = true ↔ ∃ a ∈ q.items, key a = k := by
  simp [has, q.seen_eq]

/-- Enqueue an item, unless its key was seen; the item stored under the key is returned. -/
def enqueue (q : KeyedQueue α key) (a : α) : α × KeyedQueue α key :=
  if h : q.has (key a) then
    ((q.itemFor (key a)).get (has_iff_itemFor.mp h), q)
  else
    (a, { items := q.items ++ [a]
          seen := q.seen ++ [key a]
          seen_eq := by rw [q.seen_eq]; simp
          nodup := by
            have hn : key a ∉ q.seen := by simpa [has] using h
            exact List.nodup_append.mpr ⟨q.nodup, List.nodup_singleton _, by
              rintro x hx y hy rfl
              exact hn (List.mem_singleton.mp hy ▸ hx)⟩ })

theorem enqueue_of_has {q : KeyedQueue α key} {a : α} (h : q.has (key a) = true) :
    (q.enqueue a).2 = q := by
  simp [enqueue, h]

theorem enqueue_items_of_not_has {q : KeyedQueue α key} {a : α} (h : q.has (key a) = false) :
    (q.enqueue a).2.items = q.items ++ [a] := by
  simp [enqueue, h]

@[simp] theorem itemFor_empty (k : κ) : (empty key).itemFor k = none := rfl

/-- **First write wins.** -/
theorem itemFor_enqueue (q : KeyedQueue α key) (a : α) (k : κ) :
    (q.enqueue a).2.itemFor k = (q.itemFor k).or (if key a = k then some a else none) := by
  cases h : q.has (key a) with
  | true =>
      rw [enqueue_of_has h]
      by_cases hk : key a = k
      · obtain ⟨b, hb⟩ := Option.isSome_iff_exists.mp (has_iff_itemFor.mp (hk ▸ h))
        simp [hb]
      · simp [hk]
  | false =>
      rw [itemFor, enqueue_items_of_not_has h, List.find?_append]
      congr 1
      by_cases hk : key a = k <;> simp [hk]

/-- Offer several items in turn. -/
def offerAll (q : KeyedQueue α key) (l : List α) : KeyedQueue α key :=
  l.foldl (fun q a => (q.enqueue a).2) q

@[simp] theorem offerAll_nil (q : KeyedQueue α key) : q.offerAll [] = q := rfl

@[simp] theorem offerAll_singleton (q : KeyedQueue α key) (a : α) : q.offerAll [a] = (q.enqueue a).2 :=
  rfl

theorem offerAll_append (q : KeyedQueue α key) (l m : List α) :
    q.offerAll (l ++ m) = (q.offerAll l).offerAll m := by
  simp [offerAll, List.foldl_append]

/-- The queue searches its own items first, then the offers in order. -/
theorem itemFor_offerAll (q : KeyedQueue α key) (l : List α) (k : κ) :
    (q.offerAll l).itemFor k = (q.itemFor k).or (l.find? fun a => decide (key a = k)) := by
  induction l generalizing q with
  | nil => simp
  | cons a l ih =>
      rw [show q.offerAll (a :: l) = (q.enqueue a).2.offerAll l from rfl, ih, itemFor_enqueue,
        Option.or_assoc]
      by_cases hk : key a = k <;> simp [hk]

omit [DecidableEq κ] in
theorem filter_eq_nil_of_not_mem {l : List α} {k : κ} (p : α → Bool) (hp : ∀ a, p a = true → key a = k)
    (h : k ∉ l.map key) : l.filter p = [] := by
  rw [List.filter_eq_nil_iff]
  intro a ha hpa
  exact h (hp a hpa ▸ List.mem_map_of_mem ha)

theorem filter_key_of_nodup {l : List α} (h : (l.map key).Nodup) (k : κ) :
    l.filter (fun a => decide (key a = k)) = (l.find? (fun a => decide (key a = k))).toList := by
  induction l with
  | nil => rfl
  | cons a l ih =>
      rw [List.map_cons, List.nodup_cons] at h
      by_cases hk : key a = k
      · rw [List.filter_cons_of_pos (by simpa using hk), List.find?_cons_of_pos (by simpa using hk),
          filter_eq_nil_of_not_mem _ (fun b hb => by simpa using hb) (hk ▸ h.1)]
        rfl
      · rw [List.filter_cons_of_neg (by simpa using hk), List.find?_cons_of_neg (by simpa using hk)]
        exact ih h.2

/-- **A key is held by exactly the one item its lookup returns.** -/
theorem filter_key (q : KeyedQueue α key) (k : κ) :
    q.items.filter (fun a => decide (key a = k)) = (q.itemFor k).toList :=
  filter_key_of_nodup (q.seen_eq ▸ q.nodup) k

/-! ## Queues seen through a projection -/

/-- Queues that look alike through a projection that shows the keys, still do after like offers. -/
theorem enqueue_congr {β : Type*} (f : α → β) (hf : ∀ a b, f a = f b → key a = key b)
    {q r : KeyedQueue α key} (h : q.items.map f = r.items.map f) {a b : α} (hab : f a = f b) :
    (q.enqueue a).2.items.map f = (r.enqueue b).2.items.map f := by
  have hmem : ∀ {s t : KeyedQueue α key} {x y : α}, s.items.map f = t.items.map f → f x = f y →
      s.has (key x) = true → t.has (key y) = true := by
    intro s t x y hst hxy hs
    obtain ⟨c, hc, hk⟩ := has_iff_mem.mp hs
    have hfc : f c ∈ t.items.map f := hst ▸ List.mem_map_of_mem hc
    obtain ⟨d, hd, hdc⟩ := List.mem_map.mp hfc
    exact has_iff_mem.mpr ⟨d, hd, (hf d c hdc).trans (hk.trans (hf x y hxy))⟩
  cases hq : q.has (key a) with
  | true => rw [enqueue_of_has hq, enqueue_of_has (hmem h hab hq), h]
  | false =>
      have hr : r.has (key b) = false :=
        Bool.eq_false_iff.mpr fun hr => Bool.eq_false_iff.mp hq (hmem h.symm hab.symm hr)
      rw [enqueue_items_of_not_has hq, enqueue_items_of_not_has hr, List.map_append, List.map_append, h]
      simp [hab]

/-- Queues that look alike under one key still do after like offers. -/
theorem itemFor_enqueue_congr {β : Type*} (f : α → β) {q r : KeyedQueue α key} {k : κ}
    (h : (q.itemFor k).map f = (r.itemFor k).map f) {a b : α} (hkey : key a = key b) (hab : f a = f b) :
    ((q.enqueue a).2.itemFor k).map f = ((r.enqueue b).2.itemFor k).map f := by
  rw [itemFor_enqueue, itemFor_enqueue, hkey, Option.map_or, Option.map_or, h]
  split_ifs
  · rw [Option.map_some, Option.map_some, hab]
  · rfl

/-! ## Queues that mirror a log -/

/--
The queue mirrors a log: under each key it holds an item `R`-related to the
*first* entry of the log that asks for one, and nothing if no entry does.
-/
def Mirrors {δ : Type*} (R : δ → α → Prop) (p : κ → δ → Bool) (log : List δ) (q : KeyedQueue α key) :
    Prop :=
  ∀ k, Option.Rel R (log.find? (p k)) (q.itemFor k)

theorem mirrors_empty {δ : Type*} (R : δ → α → Prop) (p : κ → δ → Bool) :
    Mirrors R p [] (empty key) :=
  fun _ => Option.Rel.none

theorem rel_or {δ : Type*} {R : δ → α → Prop} {o₁ o₂ : Option δ} {a₁ a₂ : Option α}
    (h₁ : Option.Rel R o₁ a₁) (h₂ : Option.Rel R o₂ a₂) : Option.Rel R (o₁.or o₂) (a₁.or a₂) := by
  cases h₁ with
  | some h => exact Option.Rel.some h
  | none => exact h₂

/--
**A mirror is kept batch by batch.** If what is offered to the queue mirrors what
is appended to the log, the order of the two writes does not matter.
-/
theorem Mirrors.append {δ : Type*} {R : δ → α → Prop} {p : κ → δ → Bool} {log batch : List δ}
    {q : KeyedQueue α key} {offered : List α} (h : Mirrors R p log q)
    (hb : ∀ k, Option.Rel R (batch.find? (p k)) (offered.find? fun a => decide (key a = k))) :
    Mirrors R p (log ++ batch) (q.offerAll offered) := by
  intro k
  rw [List.find?_append, itemFor_offerAll]
  exact rel_or (h k) (hb k)

/-- Nothing asked for, nothing held. -/
theorem Mirrors.filter_eq_nil {δ : Type*} {R : δ → α → Prop} {p : κ → δ → Bool} {log : List δ}
    {q : KeyedQueue α key} (h : Mirrors R p log q) {k : κ} (hk : log.find? (p k) = none) :
    q.items.filter (fun a => decide (key a = k)) = [] := by
  have hrel := h k
  rw [hk] at hrel
  rw [filter_key]
  cases hq : q.itemFor k with
  | none => rfl
  | some a => rw [hq] at hrel; cases hrel

/-- Asked for once or many times, held once, as first asked for. -/
theorem Mirrors.filter_eq_singleton {δ : Type*} {R : δ → α → Prop} {p : κ → δ → Bool} {log : List δ}
    {q : KeyedQueue α key} (h : Mirrors R p log q) {k : κ} {d : δ} (hk : log.find? (p k) = some d) :
    ∃ a, q.items.filter (fun a => decide (key a = k)) = [a] ∧ R d a := by
  have hrel := h k
  rw [hk] at hrel
  rw [filter_key]
  cases hq : q.itemFor k with
  | none => rw [hq] at hrel; cases hrel
  | some a =>
      rw [hq] at hrel
      cases hrel with
      | some hR => exact ⟨a, rfl, hR⟩

theorem Mirrors.has_iff {δ : Type*} {R : δ → α → Prop} {p : κ → δ → Bool} {log : List δ}
    {q : KeyedQueue α key} (h : Mirrors R p log q) (k : κ) :
    q.has k = true ↔ ∃ d ∈ log, p k d = true := by
  rw [has_iff_itemFor, ← List.find?_isSome]
  have hrel := h k
  cases hl : log.find? (p k) <;> cases hq : q.itemFor k <;> rw [hl, hq] at hrel <;> cases hrel <;> simp

/-! ## Arrival order -/

theorem eraseDups_concat_of_mem {l : List κ} {k : κ} (h : k ∈ l) : (l ++ [k]).eraseDups = l.eraseDups := by
  rw [List.eraseDups_append]
  simp [List.removeAll, h]

theorem eraseDups_concat_of_not_mem {l : List κ} {k : κ} (h : k ∉ l) :
    (l ++ [k]).eraseDups = l.eraseDups ++ [k] := by
  rw [List.eraseDups_append]
  simp [List.removeAll, h, List.eraseDups_cons]

theorem eraseDups_of_nodup {l : List κ} (h : l.Nodup) : l.eraseDups = l := by
  induction l with
  | nil => rfl
  | cons k l ih =>
      rw [List.nodup_cons] at h
      have hfilter : (l.filter fun b => !b == k) = l := by
        rw [List.filter_eq_self]
        intro b hb
        have hne : b ≠ k := fun hbk => h.1 (hbk ▸ hb)
        simpa using hne
      rw [List.eraseDups_cons, hfilter, ih h.2]

/-- **The keys of a queue are those offered, in order, repetitions dropped.** -/
theorem keys_offerAll {q : KeyedQueue α key} {ks : List κ} (h : q.items.map key = ks.eraseDups) (l : List α) :
    (q.offerAll l).items.map key = (ks ++ l.map key).eraseDups := by
  induction l generalizing q ks with
  | nil =>
      rw [offerAll_nil, List.map_nil, List.append_nil]
      exact h
  | cons a l ih =>
      have hmem : q.has (key a) = true ↔ key a ∈ ks := by
        rw [has, decide_eq_true_iff, q.seen_eq, h, List.mem_eraseDups]
      have hnext : (q.enqueue a).2.items.map key = (ks ++ [key a]).eraseDups := by
        by_cases hk : key a ∈ ks
        · rw [enqueue_of_has (hmem.mpr hk), h, eraseDups_concat_of_mem hk]
        · rw [enqueue_items_of_not_has (Bool.eq_false_iff.mpr (mt hmem.mp hk)), List.map_append, h,
            eraseDups_concat_of_not_mem hk]
          rfl
      have hall := ih hnext
      rw [List.append_assoc] at hall
      exact hall

/-- Nothing is ever taken out, and what comes in comes in at the end. -/
theorem items_offerAll (q : KeyedQueue α key) (l : List α) : q.items <+: (q.offerAll l).items := by
  induction l generalizing q with
  | nil => exact List.prefix_refl _
  | cons a l ih =>
      refine List.IsPrefix.trans ?_ (ih (q.enqueue a).2)
      cases h : q.has (key a) with
      | true => exact ⟨[], by rw [enqueue_of_has h, List.append_nil]⟩
      | false => exact ⟨[a], (enqueue_items_of_not_has h).symm⟩

/-- The queue holds the keys that the entries of a log ask for, in the order of the log. -/
def InOrder {δ : Type*} (asked : δ → Option κ) (log : List δ) (q : KeyedQueue α key) : Prop :=
  q.items.map key = (log.filterMap asked).eraseDups

/-- **Order is kept batch by batch**, if a batch offers what it asks for. -/
theorem InOrder.append {δ : Type*} {asked : δ → Option κ} {log batch : List δ} {q : KeyedQueue α key}
    {offered : List α} (h : InOrder asked log q) (hb : batch.filterMap asked = offered.map key) :
    InOrder asked (log ++ batch) (q.offerAll offered) := by
  rw [InOrder, List.filterMap_append, hb]
  exact keys_offerAll h offered

end KeyedQueue
