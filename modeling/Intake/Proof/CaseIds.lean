import Intake.Proof.Ownership
import Mathlib.Data.List.TakeWhile

/-!
# Which case ids get in

The docstring of `is_well_formed_case_id` speaks of the canonical case-id format:
letters, a hyphen, digits. The pattern ends in `$`, and in Python `$` also holds
before a line feed that ends the string. So there is one more accepted form, a
canonical id with a line feed behind it, and it is accepted by the registry too.
-/

namespace Intake.Proof

/-- One or more letters `A` to `Z`, a hyphen, one or more decimal digits, and nothing else. -/
def Canonical (value : PyStr) : Prop :=
  ∃ letters decimals : PyStr, value = letters ++ .scalar '-' :: decimals
    ∧ (letters ≠ [] ∧ ∀ c ∈ letters, c.isUpperAZ = true)
    ∧ (decimals ≠ [] ∧ ∀ c ∈ decimals, c.isDecimal = true)

/-- A canonical id with a line feed behind it. -/
def LineFeedId (value : PyStr) : Prop := ∃ v, Canonical v ∧ value = v ++ [.scalar '\n']

/-- A registration, under a known engagement, of a canonical id with a line feed behind it. -/
def RegistersLineFeed (r : CaseRegistry) (op : CaseRegistry.Op) : Prop :=
  ∃ e c, op = .registerCase e c ∧ e ∈ r.engagements ∧ LineFeedId c

/-! ## The recogniser -/

/-- A greedy scan is determined by where it stops. -/
theorem span_eq_iff {α : Type} {p : α → Bool} {l xs ys : List α} :
    l.span p = (xs, ys) ↔ l = xs ++ ys ∧ (∀ a ∈ xs, p a = true) ∧ ∀ b ∈ ys.head?, p b = false := by
  rw [List.span_eq_takeWhile_dropWhile, Prod.mk.injEq]
  refine ⟨?_, ?_⟩
  · intro h
    obtain ⟨rfl, rfl⟩ := h
    refine ⟨List.takeWhile_append_dropWhile.symm, fun a ha => List.mem_takeWhile_imp ha, ?_⟩
    intro b hb
    have hstop := List.head?_dropWhile_not p l
    rw [Option.mem_def.mp hb] at hstop
    simpa using hstop
  · intro h
    obtain ⟨rfl, hxs, hys⟩ := h
    rw [List.takeWhile_append_of_pos hxs, List.dropWhile_append_of_pos hxs]
    cases ys with
    | nil => simp
    | cons b ys =>
        have hb : ¬ p b = true := by simp [hys b rfl]
        simp [List.takeWhile_cons_of_neg hb, List.dropWhile_cons_of_neg hb]

/-- What the match looks like when it succeeds. -/
theorem isWellFormed_iff_spans {value : PyStr} : isWellFormedCaseId value = true ↔
    ∃ letters rest decimals tail : PyStr, letters ≠ [] ∧ decimals ≠ []
      ∧ value.span PyChar.isUpperAZ = (letters, .scalar '-' :: rest)
      ∧ rest.span PyChar.isDecimal = (decimals, tail) ∧ (tail = [] ∨ tail = [.scalar '\n']) := by
  refine ⟨?_, ?_⟩
  · intro h
    unfold isWellFormedCaseId at h
    split at h
    · rename_i rest hletters
      split at h
      · rename_i hdecimals
        exact ⟨_, _, _, _, List.cons_ne_nil _ _, List.cons_ne_nil _ _, hletters, hdecimals, Or.inl rfl⟩
      · rename_i hdecimals
        exact ⟨_, _, _, _, List.cons_ne_nil _ _, List.cons_ne_nil _ _, hletters, hdecimals, Or.inr rfl⟩
      · cases h
    · cases h
  · intro h
    obtain ⟨letters, rest, decimals, tail, hl, hd, hletters, hdecimals, htail⟩ := h
    obtain ⟨_, _, rfl⟩ := List.exists_cons_of_ne_nil hl
    obtain ⟨_, _, rfl⟩ := List.exists_cons_of_ne_nil hd
    rw [isWellFormedCaseId, hletters]
    rcases htail with rfl | rfl <;> simp only [hdecimals]

/-- **The language of the recogniser**: canonical ids, with or without a line feed. -/
theorem isWellFormed_iff {value : PyStr} :
    isWellFormedCaseId value = true ↔ Canonical value ∨ LineFeedId value := by
  rw [isWellFormed_iff_spans]
  refine ⟨?_, ?_⟩
  · intro h
    obtain ⟨letters, rest, decimals, tail, hl, hd, hletters, hdecimals, htail⟩ := h
    obtain ⟨rfl, hupper, _⟩ := span_eq_iff.mp hletters
    obtain ⟨rfl, hdecimal, _⟩ := span_eq_iff.mp hdecimals
    rcases htail with rfl | rfl
    · refine Or.inl ⟨letters, decimals, ?_, ⟨hl, hupper⟩, hd, hdecimal⟩
      rw [List.append_nil]
    · refine Or.inr ⟨letters ++ .scalar '-' :: decimals, ⟨letters, decimals, rfl, ⟨hl, hupper⟩, hd, hdecimal⟩, ?_⟩
      rw [List.append_assoc, List.cons_append]
  · -- neither a hyphen is a letter, nor a line feed a digit
    have hhyphen : PyChar.isUpperAZ (.scalar '-') = false := by decide
    have hfeed : PyChar.isDecimal (.scalar '\n') = false := by decide
    intro h
    rcases h with ⟨letters, decimals, rfl, ⟨hl, hupper⟩, hd, hdecimal⟩
      | ⟨_, ⟨letters, decimals, rfl, ⟨hl, hupper⟩, hd, hdecimal⟩, rfl⟩
    · refine ⟨letters, decimals, decimals, [], hl, hd, span_eq_iff.mpr ⟨rfl, hupper, ?_⟩,
        span_eq_iff.mpr ⟨(List.append_nil _).symm, hdecimal, ?_⟩, Or.inl rfl⟩
      · simp [hhyphen]
      · simp
    · refine ⟨letters, decimals ++ [.scalar '\n'], decimals, [.scalar '\n'], hl, hd,
        span_eq_iff.mpr ⟨?_, hupper, ?_⟩, span_eq_iff.mpr ⟨rfl, hdecimal, ?_⟩, Or.inr rfl⟩
      · rw [List.append_assoc, List.cons_append]
      · simp [hhyphen]
      · simp [hfeed]

/-- A canonical id does not end in a line feed. -/
theorem not_canonical_of_lineFeed {value : PyStr} (h : LineFeedId value) : ¬ Canonical value := by
  obtain ⟨v, _, rfl⟩ := h
  intro hc
  obtain ⟨letters, decimals, hvalue, _, hd, hdecimal⟩ := hc
  have hlast := congrArg List.getLast? hvalue
  obtain ⟨front, last, rfl⟩ := List.eq_nil_or_concat' decimals |>.resolve_left hd
  rw [List.getLast?_concat, ← List.cons_append, ← List.append_assoc, List.getLast?_concat] at hlast
  have hdec := hdecimal last (by simp)
  rw [← Option.some.inj hlast] at hdec
  exact absurd hdec (by decide)

/-- The characters of an accepted id. -/
theorem mem_of_wellFormed {value : PyStr} (h : isWellFormedCaseId value = true) {c : PyChar} (hc : c ∈ value) :
    c.isUpperAZ = true ∨ c.isDecimal = true ∨ c = .scalar '-' ∨ c = .scalar '\n' := by
  have hcanonical : ∀ v, Canonical v → c ∈ v →
      c.isUpperAZ = true ∨ c.isDecimal = true ∨ c = .scalar '-' ∨ c = .scalar '\n' := by
    intro v hv hmem
    obtain ⟨letters, decimals, rfl, ⟨_, hupper⟩, _, hdecimal⟩ := hv
    rcases List.mem_append.mp hmem with hmem | hmem
    · exact Or.inl (hupper c hmem)
    · rcases List.mem_cons.mp hmem with rfl | hmem
      · exact Or.inr (Or.inr (Or.inl rfl))
      · exact Or.inr (Or.inl (hdecimal c hmem))
  rcases isWellFormed_iff.mp h with hv | ⟨v, hv, rfl⟩
  · exact hcanonical value hv hc
  · rcases List.mem_append.mp hc with hc | hc
    · exact hcanonical v hv hc
    · exact Or.inr (Or.inr (Or.inr (List.mem_singleton.mp hc)))

theorem colon_notMem_of_wellFormed {value : PyStr} (h : isWellFormedCaseId value = true) :
    PyChar.scalar ':' ∉ value := by
  intro hc
  rcases mem_of_wellFormed h hc with h | h | h | h <;> exact absurd h (by decide)

theorem encodable_of_wellFormed {value : PyStr} (h : isWellFormedCaseId value = true) : PyStr.Encodable value := by
  rw [PyStr.encodable_iff]
  intro n hc
  rcases mem_of_wellFormed h hc with h | h | h | h <;> cases h

/-! ## The registry -/

/-- Every registered case id is canonical. -/
def AllCanonical (r : CaseRegistry) : Prop := ∀ c ∈ r.cases, Canonical c

/-- An operation keeps the case ids canonical exactly if it registers none with a line feed. -/
theorem allCanonical_step {r : CaseRegistry} (h : AllCanonical r) (op : CaseRegistry.Op) :
    AllCanonical (registrar r op).2 ↔ ¬ RegistersLineFeed r op := by
  refine ⟨?_, ?_⟩
  · intro hnext hop
    obtain ⟨e, c, rfl, he, hfeed⟩ := hop
    have hnew : c ∉ r.cases := fun hc => not_canonical_of_lineFeed hfeed (h c hc)
    have happ : r.apply (.registerCase e c) = .ok { r with cases := r.cases.insert c e } :=
      registerCase_ok_iff.mpr ⟨⟨he, isWellFormed_iff.mpr (Or.inr hfeed), hnew⟩, rfl⟩
    refine not_canonical_of_lineFeed hfeed (hnext c ?_)
    unfold registrar
    rw [happ]
    exact (AList.mem_insert _).mpr (Or.inl rfl)
  · intro hop
    have hmutates := mutates r op
    generalize registrar r op = x at hmutates ⊢
    obtain ⟨result, r'⟩ := x
    cases hmutates with
    | nothing | client | engagement | principal => exact h
    | @case e c hadmits =>
        intro c' hc'
        rcases (AList.mem_insert _).mp hc' with rfl | hc'
        · rcases isWellFormed_iff.mp hadmits.format with hcanonical | hfeed
          · exact hcanonical
          · exact absurd ⟨e, _, rfl, hadmits.engagement, hfeed⟩ hop
        · exact h c' hc'

/--
**When only canonical case ids get in.**

On a string, `is_well_formed_case_id` decides whether it is canonical exactly if
the string is not a canonical id with a line feed behind it. And in a run of
registry operations, every case id that is ever registered is canonical exactly if
no operation registers such a string under a known engagement.
-/
theorem canonical_ids_iff (value : PyStr) (ops : List CaseRegistry.Op) :
    ((isWellFormedCaseId value = true ↔ Canonical value) ↔ ¬ LineFeedId value)
      ∧ ((∀ n, ∀ c ∈ (Machine.run registrar CaseRegistry.empty (ops.take n)).cases, Canonical c)
          ↔ ∀ pre op post, ops = pre ++ op :: post →
            ¬ RegistersLineFeed (Machine.run registrar CaseRegistry.empty pre) op) := by
  refine ⟨?_, ?_⟩
  · rw [isWellFormed_iff]
    refine ⟨?_, ?_⟩
    · intro hiff hfeed
      exact not_canonical_of_lineFeed hfeed (hiff.mp (Or.inr hfeed))
    · intro hfeed
      exact ⟨fun h => h.resolve_right hfeed, Or.inl⟩
  · have hempty : AllCanonical CaseRegistry.empty := fun c hc => absurd hc (AList.notMem_empty c)
    exact Machine.run_take_iff (P := AllCanonical) (G := fun r op => ¬ RegistersLineFeed r op)
      (fun r op (_ : op ∈ ops) h => allCanonical_step h op) hempty

/-- A case id with a line feed behind it is recognised, registered and attached to. -/
theorem lineFeed_registered :
    let caseId : CaseId := "CASE-1\n"
    let r := Machine.run registrar CaseRegistry.empty
      [.addClient "C", .addEngagement "E" "C", .addPrincipal "P" "C" none, .registerCase "E" caseId]
    isWellFormedCaseId caseId = true ∧ ¬ Canonical caseId
      ∧ r.engagementForCase caseId = some (PyStr.ofString "E")
      ∧ (authorise r "P" caseId 0).kind = .authorised := by
  intro caseId r
  have hcanonical : Canonical (PyStr.ofString "CASE-1") := by
    refine ⟨PyStr.ofString "CASE", PyStr.ofString "1", rfl, ⟨by decide, by decide⟩, by decide, by decide⟩
  have hfeed : LineFeedId caseId := ⟨PyStr.ofString "CASE-1", hcanonical, rfl⟩
  exact ⟨isWellFormed_iff.mpr (Or.inr hfeed), not_canonical_of_lineFeed hfeed, rfl, rfl⟩

end Intake.Proof
