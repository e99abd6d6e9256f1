import Intake.Lib.History
import Intake.Proof.Composition

/-!
# Authority as a matter of record

The registry is four tables, and the gate follows three lookups through them. What
the tables hold is a matter of what was asked for before: the last engagement entry
and the last enrolment that succeeded, and the *first* registration of the case.
Whether an entry succeeds is again a matter of what came before it.

So the gate needs no registry at all. `recorded_run` reads the tables off the list
of operations, and `authority_of_record` says of any run of all three services when
a sender may attach to a case, in terms of the calls made so far.
-/

namespace Intake.Proof

open History

/-! ## What is allowed, and when -/

/-- The engagement was entered, under a client that existed then. -/
def Founded (pre : List CaseRegistry.Op) (e : EngagementId) : Prop :=
  ∃ before k after, pre = before ++ .addEngagement e k :: after ∧ .addClient k ∈ before

/-- What the operations before one must have done for it to succeed, a case that is taken apart. -/
def Allowed (pre : List CaseRegistry.Op) : CaseRegistry.Op → Prop
  | .addClient _ => True
  | .addEngagement _ k => .addClient k ∈ pre
  | .addPrincipal _ k _ => .addClient k ∈ pre
  | .registerCase e c => isWellFormedCaseId c = true ∧ Founded pre e

/-- Enters the engagement. -/
def Assigns (e : EngagementId) (op : CaseRegistry.Op) : Prop := ∃ k, op = .addEngagement e k

/-- Enters the principal. -/
def Enrols (p : PrincipalId) (op : CaseRegistry.Op) : Prop := ∃ k t, op = .addPrincipal p k t

/-- Registers the case. -/
def Opens (c : CaseId) (op : CaseRegistry.Op) : Prop := ∃ e, op = .registerCase e c

/-- **The tables are a record of the operations.** -/
structure Recorded (ops : List CaseRegistry.Op) (r : CaseRegistry) : Prop where
  clients : ∀ k, k ∈ r.clients ↔ .addClient k ∈ ops
  /-- The last entry counts. -/
  engagements : ∀ e k, r.engagements.lookup e = some k ↔ Last Allowed (Assigns e) ops (.addEngagement e k)
  /-- The last enrolment counts. -/
  principals : ∀ p k t, r.principals.lookup p = some ⟨k, t⟩ ↔ Last Allowed (Enrols p) ops (.addPrincipal p k t)
  /-- The first registration counts. -/
  cases : ∀ c e, r.cases.lookup c = some e ↔ First Allowed (Opens c) ops (.registerCase e c)

/-! ## One operation -/

section Step

variable {ops : List CaseRegistry.Op} {r : CaseRegistry}

theorem Recorded.founded (h : Recorded ops r) (e : EngagementId) : e ∈ r.engagements ↔ Founded ops e := by
  have hever : Founded ops e ↔ Ever Allowed (Assigns e) ops := by
    refine ⟨?_, ?_⟩
    · rintro ⟨before, k, after, hcut, hk⟩
      exact ⟨before, _, after, hcut, ⟨k, rfl⟩, hk⟩
    · rintro ⟨before, _, after, hcut, ⟨k, rfl⟩, hk⟩
      exact ⟨before, k, after, hcut, hk⟩
  rw [hever, ever_iff_last, ← AList.lookup_isSome, Option.isSome_iff_exists]
  refine ⟨?_, ?_⟩
  · rintro ⟨k, hk⟩
    exact ⟨_, (h.engagements e k).mp hk⟩
  · rintro ⟨x, hx⟩
    obtain ⟨k, rfl⟩ : Assigns e x := by
      obtain ⟨_, _, _, hkind, _⟩ := hx
      exact hkind
    exact ⟨k, (h.engagements e k).mpr hx⟩

theorem Recorded.taken (h : Recorded ops r) (c : CaseId) : c ∈ r.cases ↔ Ever Allowed (Opens c) ops := by
  rw [ever_iff_first, ← AList.lookup_isSome, Option.isSome_iff_exists]
  refine ⟨?_, ?_⟩
  · rintro ⟨e, he⟩
    exact ⟨_, (h.cases c e).mp he⟩
  · rintro ⟨x, hx⟩
    obtain ⟨e, rfl⟩ : Opens c x := by
      obtain ⟨_, _, _, hkind, _⟩ := hx
      exact hkind
    exact ⟨e, (h.cases c e).mpr hx⟩

theorem not_opens_of_ne {op : CaseRegistry.Op} (hop : ∀ e c, op ≠ .registerCase e c) (c : CaseId) : ¬ Opens c op :=
  fun ⟨e, heq⟩ => hop e c heq

/-- **Which operations succeed** is a matter of record. -/
theorem Recorded.ok_iff (h : Recorded ops r) (op : CaseRegistry.Op) :
    (registrar r op).1 = .ok () ↔ Allowed ops op ∧ ∀ c, Opens c op → ¬ Ever Allowed (Opens c) ops := by
  unfold registrar
  cases op with
  | addClient k => exact iff_of_true rfl ⟨trivial, fun c hc => absurd hc (not_opens_of_ne (by simp) c)⟩
  | addEngagement e k =>
      simp only [CaseRegistry.apply, CaseRegistry.addEngagement, h.clients]
      by_cases hk : .addClient k ∈ ops
      · rw [if_neg (not_not.mpr hk)]
        exact iff_of_true rfl ⟨hk, fun c hc => absurd hc (not_opens_of_ne (by simp) c)⟩
      · rw [if_pos hk]
        exact iff_of_false (by simp) fun hallowed => hk hallowed.1
  | addPrincipal p k t =>
      simp only [CaseRegistry.apply, CaseRegistry.addPrincipal, h.clients]
      by_cases hk : .addClient k ∈ ops
      · rw [if_neg (not_not.mpr hk)]
        exact iff_of_true rfl ⟨hk, fun c hc => absurd hc (not_opens_of_ne (by simp) c)⟩
      · rw [if_pos hk]
        exact iff_of_false (by simp) fun hallowed => hk hallowed.1
  | registerCase e c =>
      simp only [CaseRegistry.apply]
      have hadmits : Admits r e c
          ↔ Allowed ops (.registerCase e c)
            ∧ ∀ c', Opens c' (.registerCase e c) → ¬ Ever Allowed (Opens c') ops := by
        refine ⟨?_, ?_⟩
        · intro hadmits
          refine ⟨⟨hadmits.format, (h.founded e).mp hadmits.engagement⟩, ?_⟩
          rintro c' ⟨e', hop⟩ htaken
          cases hop
          exact hadmits.fresh ((h.taken c).mpr htaken)
        · intro hallowed
          obtain ⟨⟨hformat, hfounded⟩, hfresh⟩ := hallowed
          exact ⟨(h.founded e).mpr hfounded, hformat, fun hc => hfresh c ⟨e, rfl⟩ ((h.taken c).mp hc)⟩
      rw [← hadmits]
      cases hreg : r.registerCase e c with
      | error err =>
          refine iff_of_false (by simp) fun hadmits => ?_
          cases hreg.symm.trans (registerCase_ok_iff.mpr ⟨hadmits, rfl⟩)
      | ok r' => exact iff_of_true rfl (registerCase_ok_iff.mp hreg).1

theorem not_assigns {e e' : EngagementId} {k : ClientId} (h : e' ≠ e) : ¬ Assigns e' (.addEngagement e k) :=
  fun ⟨_, hop⟩ => h (CaseRegistry.Op.addEngagement.inj hop).1.symm

theorem not_enrols {p p' : PrincipalId} {k : ClientId} {t : Option Instant} (h : p' ≠ p) :
    ¬ Enrols p' (.addPrincipal p k t) :=
  fun ⟨_, _, hop⟩ => h (CaseRegistry.Op.addPrincipal.inj hop).1.symm

theorem not_opens {c c' : CaseId} {e : EngagementId} (h : c' ≠ c) : ¬ Opens c' (.registerCase e c) :=
  fun ⟨_, hop⟩ => h (CaseRegistry.Op.registerCase.inj hop).2.symm

/-- **One operation**, recorded. -/
theorem recorded_step (h : Recorded ops r) (op : CaseRegistry.Op) :
    Recorded (ops ++ [op]) (registrar r op).2 := by
  have hok := h.ok_iff op
  have hmutates := mutates r op
  generalize registrar r op = x at hok hmutates ⊢
  obtain ⟨result, r'⟩ := x
  -- an operation of another kind is skipped
  have hclients : (∀ k, op ≠ .addClient k) → ∀ k, k ∈ r.clients ↔ .addClient k ∈ ops ++ [op] := by
    intro hop k
    rw [h.clients, List.mem_append, List.mem_singleton, or_iff_left (hop k).symm]
  have hengagements : (∀ e k, op ≠ .addEngagement e k) → ∀ e k, r.engagements.lookup e = some k
      ↔ Last Allowed (Assigns e) (ops ++ [op]) (.addEngagement e k) := by
    intro hop e k
    rw [h.engagements, last_skip]
    rintro ⟨⟨k', hkind⟩, _⟩
    exact hop e k' hkind
  have hprincipals : (∀ p k t, op ≠ .addPrincipal p k t) → ∀ p k t, r.principals.lookup p = some ⟨k, t⟩
      ↔ Last Allowed (Enrols p) (ops ++ [op]) (.addPrincipal p k t) := by
    intro hop p k t
    rw [h.principals, last_skip]
    rintro ⟨⟨k', t', hkind⟩, _⟩
    exact hop p k' t' hkind
  have hcases : (∀ e c, op ≠ .registerCase e c) → ∀ c e, r.cases.lookup c = some e
      ↔ First Allowed (Opens c) (ops ++ [op]) (.registerCase e c) := by
    intro hop c e
    rw [h.cases, first_skip fun hkind => not_opens_of_ne hop c hkind.1]
  cases hmutates with
  | nothing op err =>
      have hfails : ¬ (Allowed ops op ∧ ∀ c, Opens c op → ¬ Ever Allowed (Opens c) ops) :=
        fun hboth => by cases hok.mpr hboth
      refine ⟨hclients ?_, fun e k => ?_, fun p k t => ?_, fun c e => ?_⟩
      · rintro k rfl
        exact hfails ⟨trivial, fun c ⟨_, hop⟩ => by cases hop⟩
      · rw [h.engagements, last_skip]
        rintro ⟨⟨k', rfl⟩, hallowed⟩
        exact hfails ⟨hallowed, fun c ⟨_, hop⟩ => by cases hop⟩
      · rw [h.principals, last_skip]
        rintro ⟨⟨k', t', rfl⟩, hallowed⟩
        exact hfails ⟨hallowed, fun c ⟨_, hop⟩ => by cases hop⟩
      · rw [h.cases, first_concat, or_iff_left]
        rintro ⟨hnone, ⟨e', rfl⟩, hallowed, _⟩
        exact hfails ⟨hallowed, fun c' ⟨_, hop⟩ => by cases hop; exact hnone⟩
  | client k =>
      refine ⟨fun k' => ?_, hengagements (by simp), hprincipals (by simp), hcases (by simp)⟩
      rw [Finset.mem_insert, h.clients, List.mem_append, List.mem_singleton, or_comm,
        CaseRegistry.Op.addClient.injEq]
  | @engagement e k hk =>
      refine ⟨hclients (by simp), fun e' k' => ?_, hprincipals (by simp), hcases (by simp)⟩
      have hallowed : Allowed ops (.addEngagement e k) := (h.clients k).mp hk
      by_cases he : e' = e
      · subst he
        rw [AList.lookup_insert, last_success ⟨k, rfl⟩ hallowed, Option.some.injEq,
          CaseRegistry.Op.addEngagement.injEq, and_iff_right rfl, eq_comm]
      · rw [AList.lookup_insert_ne he]
        rw [h.engagements, last_skip fun hkind => not_assigns he hkind.1]
  | @principal p k t hk =>
      refine ⟨hclients (by simp), hengagements (by simp), fun p' k' t' => ?_, hcases (by simp)⟩
      have hallowed : Allowed ops (.addPrincipal p k t) := (h.clients k).mp hk
      by_cases hp : p' = p
      · subst hp
        rw [AList.lookup_insert, last_success ⟨k, t, rfl⟩ hallowed, Option.some.injEq,
          CaseRegistry.Op.addPrincipal.injEq, and_iff_right rfl, Principal.mk.injEq, @eq_comm _ k, @eq_comm _ t]
      · rw [AList.lookup_insert_ne hp]
        rw [h.principals, last_skip fun hkind => not_enrols hp hkind.1]
  | @case e c hadmits =>
      refine ⟨hclients (by simp), hengagements (by simp), hprincipals (by simp), fun c' e' => ?_⟩
      have hallowed : Allowed ops (.registerCase e c) := ⟨hadmits.format, (h.founded e).mp hadmits.engagement⟩
      by_cases hc : c' = c
      · subst hc
        rw [AList.lookup_insert, first_success (fun htaken => hadmits.fresh ((h.taken c').mpr htaken)) ⟨e, rfl⟩
          hallowed, Option.some.injEq, CaseRegistry.Op.registerCase.injEq, and_iff_left rfl, eq_comm]
      · rw [AList.lookup_insert_ne hc]
        rw [h.cases, first_skip fun hkind => not_opens hc hkind.1]

end Step

/-! ## Whole runs -/

theorem recorded_run (ops : List CaseRegistry.Op) : Recorded ops (Machine.run registrar CaseRegistry.empty ops) := by
  induction ops using List.reverseRecOn with
  | nil =>
      refine ⟨fun k => ?_, fun e k => ?_, fun p k t => ?_, fun c e => ?_⟩
      · exact iff_of_false (Finset.notMem_empty k) List.not_mem_nil
      · exact iff_of_false nofun not_last_nil
      · exact iff_of_false nofun not_last_nil
      · exact iff_of_false nofun not_first_nil
  | append_singleton ops op ih =>
      rw [Machine.run_concat]
      exact recorded_step ih op

/--
**Authority is a matter of record.**

In any run of all three services from an empty registry: a sender may attach to a
case exactly if the case id is well formed, and the first registration of the case,
the last entry of its engagement and the last enrolment of the sender, among those
that succeeded, name one engagement and one client, and the enrolment is not
revoked. The next operation succeeds exactly if the calls made before allow it and
it registers no case a second time.
-/
theorem authority_of_record (env : OfficeEnv) (ids : Stream' PyStr) (as : List Assignment) :
    let o := Machine.run (office env) (Office.init CaseRegistry.empty ids) as
    let ops := as.filterMap registryOp
    (∀ p c t, (authorise o.world.registry p c t).kind = .authorised
        ↔ isWellFormedCaseId c = true ∧ ∃ e k revokedAt, First Allowed (Opens c) ops (.registerCase e c)
          ∧ Last Allowed (Assigns e) ops (.addEngagement e k)
          ∧ Last Allowed (Enrols p) ops (.addPrincipal p k revokedAt) ∧ ∀ u ∈ revokedAt, t < u)
      ∧ ∀ op clock, (office env o ⟨.desk (.registry op), clock⟩).1 = .desk (.registry (.ok ()))
        ↔ Allowed ops op ∧ ∀ c, Opens c op → ¬ Ever Allowed (Opens c) ops := by
  intro o ops
  have hrecorded : Recorded ops o.world.registry := by
    rw [office_registry]
    exact recorded_run ops
  refine ⟨fun p c t => ?_, fun op clock => ?_⟩
  · rw [authorise_kind, ChainIntact]
    simp only [hrecorded.cases, hrecorded.engagements, hrecorded.principals]
  · rw [← hrecorded.ok_iff op, office_desk]
    show Answer.desk (perform env.desk (o.world.during clock) (.registry op)).1 = _ ↔ _
    unfold perform registrar
    simp only [World.during]
    cases o.world.registry.apply op <;> simp

end Intake.Proof
