import Intake.Lib.Machine
import Intake.System

/-!
# Who owns a case

A case belongs to an engagement and an engagement to a client; the gate follows
both links. The first is written once: `register_case` refuses a case id it knows.
The second is not. `add_engagement` checks the client and then assigns, so an
engagement entered a second time takes all its cases along to another client.

That is the only way for a case to change hands.
-/

namespace Intake.Proof

/-- The registry, one operation at a time. An operation that raises leaves it as it is. -/
def registrar : Machine CaseRegistry CaseRegistry.Op (Except PyError Unit) := fun r op =>
  match r.apply op with
  | .error err => (.error err, r)
  | .ok r' => (.ok (), r')

/-- The case is registered under the engagement, and the engagement belongs to the client. -/
structure OwnedBy (r : CaseRegistry) (c : CaseId) (e : EngagementId) (k : ClientId) : Prop where
  engagement : r.engagementForCase c = some e
  client : r.engagements.lookup e = some k

/-- Enters an engagement again, under another client that exists. -/
def Reassigns (r : CaseRegistry) (e : EngagementId) (k : ClientId) (op : CaseRegistry.Op) : Prop :=
  ∃ k', op = .addEngagement e k' ∧ k' ≠ k ∧ k' ∈ r.clients

/-! ## One operation -/

/-- The registry lets the case in. -/
structure Admits (r : CaseRegistry) (e : EngagementId) (c : CaseId) : Prop where
  engagement : e ∈ r.engagements
  format : isWellFormedCaseId c = true
  fresh : c ∉ r.cases

theorem registerCase_ok_iff {r r' : CaseRegistry} {e : EngagementId} {c : CaseId} :
    r.registerCase e c = .ok r' ↔ Admits r e c ∧ r' = { r with cases := r.cases.insert c e } := by
  unfold CaseRegistry.registerCase
  by_cases he : e ∈ r.engagements
  case neg =>
    rw [if_pos he]
    exact iff_of_false (by simp) fun h => he h.1.engagement
  by_cases hc : isWellFormedCaseId c = true
  case neg =>
    rw [if_neg (not_not.mpr he), if_pos hc]
    exact iff_of_false (by simp) fun h => hc h.1.format
  by_cases hnew : c ∈ r.cases
  case pos =>
    rw [if_neg (not_not.mpr he), if_neg (not_not.mpr hc), if_pos hnew]
    exact iff_of_false (by simp) fun h => h.1.fresh hnew
  rw [if_neg (not_not.mpr he), if_neg (not_not.mpr hc), if_neg hnew, Except.ok.injEq, eq_comm]
  exact ⟨fun h => ⟨⟨he, hc, hnew⟩, h⟩, And.right⟩

/-- **What an operation enters**, after which checks. -/
inductive Mutates (r : CaseRegistry) : CaseRegistry.Op → Except PyError Unit → CaseRegistry → Prop where
  | nothing (op : CaseRegistry.Op) (err : PyError) : Mutates r op (.error err) r
  | client (k : ClientId) : Mutates r (.addClient k) (.ok ()) { r with clients := insert k r.clients }
  | engagement {e : EngagementId} {k : ClientId} (hk : k ∈ r.clients) :
      Mutates r (.addEngagement e k) (.ok ()) { r with engagements := r.engagements.insert e k }
  | principal {p : PrincipalId} {k : ClientId} (t : Option Instant) (hk : k ∈ r.clients) :
      Mutates r (.addPrincipal p k t) (.ok ()) { r with principals := r.principals.insert p ⟨k, t⟩ }
  | case {e : EngagementId} {c : CaseId} (h : Admits r e c) :
      Mutates r (.registerCase e c) (.ok ()) { r with cases := r.cases.insert c e }

/-- **Check, then write**: an operation enters one thing, or raises and enters nothing. -/
theorem mutates (r : CaseRegistry) (op : CaseRegistry.Op) :
    Mutates r op (registrar r op).1 (registrar r op).2 := by
  unfold registrar
  cases op with
  | addClient k => exact .client k
  | addEngagement e k =>
      by_cases hk : k ∈ r.clients
      · simp only [CaseRegistry.apply, CaseRegistry.addEngagement, if_neg (not_not.mpr hk)]
        exact .engagement hk
      · simp only [CaseRegistry.apply, CaseRegistry.addEngagement, if_pos hk]
        exact .nothing _ _
  | addPrincipal p k t =>
      by_cases hk : k ∈ r.clients
      · simp only [CaseRegistry.apply, CaseRegistry.addPrincipal, if_neg (not_not.mpr hk)]
        exact .principal t hk
      · simp only [CaseRegistry.apply, CaseRegistry.addPrincipal, if_pos hk]
        exact .nothing _ _
  | registerCase e c =>
      simp only [CaseRegistry.apply]
      cases hreg : r.registerCase e c with
      | error err => exact .nothing _ _
      | ok r' =>
          obtain ⟨hadmits, rfl⟩ := registerCase_ok_iff.mp hreg
          exact .case hadmits

/-- A case that is let in is a new one, so the others stay where they are. -/
theorem engagementForCase_insert {r : CaseRegistry} {e : EngagementId} {c : CaseId} (h : Admits r e c) {c' : CaseId}
    {e' : EngagementId} (hc' : r.engagementForCase c' = some e') :
    CaseRegistry.engagementForCase { r with cases := r.cases.insert c e } c' = some e' := by
  have hne : c' ≠ c := by
    intro hcc
    subst hcc
    rw [CaseRegistry.engagementForCase, AList.lookup_eq_none.mpr h.fresh] at hc'
    cases hc'
  exact (AList.lookup_insert_ne hne).trans hc'

/-- **A case is registered once.** -/
theorem engagementForCase_step {r : CaseRegistry} {c : CaseId} {e : EngagementId}
    (h : r.engagementForCase c = some e) (op : CaseRegistry.Op) :
    (registrar r op).2.engagementForCase c = some e := by
  have hmutates := mutates r op
  generalize registrar r op = x at hmutates ⊢
  obtain ⟨result, r'⟩ := x
  cases hmutates with
  | nothing | client | engagement | principal => exact h
  | case hadmits => exact engagementForCase_insert hadmits h

/-- An engagement keeps its client, unless it is entered again under another one. -/
theorem engagements_step {r : CaseRegistry} {e : EngagementId} {k : ClientId}
    (h : r.engagements.lookup e = some k) {op : CaseRegistry.Op} (hop : ¬ Reassigns r e k op) :
    (registrar r op).2.engagements.lookup e = some k := by
  have hmutates := mutates r op
  generalize registrar r op = x at hmutates ⊢
  obtain ⟨result, r'⟩ := x
  cases hmutates with
  | nothing | client | principal | case => exact h
  | @engagement e' k' hk' =>
      by_cases he : e = e'
      · subst he
        have hk : k' = k := by
          by_contra hne
          exact hop ⟨k', rfl, hne, hk'⟩
        rw [hk]
        exact AList.lookup_insert _
      · exact (AList.lookup_insert_ne he).trans h

/-- A reassignment succeeds, and takes the engagement away. -/
theorem reassigns_step {r : CaseRegistry} {e : EngagementId} {k : ClientId} {op : CaseRegistry.Op}
    (h : Reassigns r e k op) : (registrar r op).2.engagements.lookup e ≠ some k := by
  obtain ⟨k', rfl, hne, hk'⟩ := h
  have happ : r.apply (.addEngagement e k') = .ok { r with engagements := r.engagements.insert e k' } :=
    if_neg (not_not.mpr hk')
  unfold registrar
  rw [happ]
  intro hlookup
  rw [AList.lookup_insert] at hlookup
  exact hne (Option.some.inj hlookup)

/-- One operation leaves the case with its owner exactly if it does not reassign the engagement. -/
theorem owner_step {r : CaseRegistry} {c : CaseId} {e : EngagementId} {k : ClientId} (h : OwnedBy r c e k)
    (op : CaseRegistry.Op) : OwnedBy (registrar r op).2 c e k ↔ ¬ Reassigns r e k op := by
  refine ⟨fun hnext hop => reassigns_step hop hnext.client, ?_⟩
  intro hop
  exact ⟨engagementForCase_step h.engagement op, engagements_step h.client hop⟩

/-! ## The gate -/

/-- Only a principal of the owner can attach to the case. -/
theorem OwnedBy.authorised {r : CaseRegistry} {c : CaseId} {e : EngagementId} {k : ClientId}
    (h : OwnedBy r c e k) {p : PrincipalId} {t : Instant} (hg : (authorise r p c t).kind = .authorised) :
    ∃ revokedAt, r.principals.lookup p = some ⟨k, revokedAt⟩ := by
  obtain ⟨_, e', k', revokedAt, hc, he, hp, _⟩ := authorise_kind.mp hg
  obtain rfl : e' = e := Option.some.inj (hc.symm.trans h.engagement)
  obtain rfl : k' = k := Option.some.inj (he.symm.trans h.client)
  exact ⟨revokedAt, hp⟩

/-! ## Runs -/

/--
**When a case keeps its owner.**

Take a registry in which a case is registered under an engagement of client `k`,
and any operations on it. In every state they lead to, the case is registered
under that engagement, the engagement belongs to `k`, and only principals of `k`
can attach to the case: exactly if no operation enters the engagement again under
another existing client.
-/
theorem owner_kept_iff {r : CaseRegistry} {c : CaseId} {e : EngagementId} {k : ClientId}
    (howned : OwnedBy r c e k) (ops : List CaseRegistry.Op) :
    (∀ n,
        let r' := Machine.run registrar r (ops.take n)
        OwnedBy r' c e k
          ∧ ∀ p t, (authorise r' p c t).kind = .authorised →
            ∃ revokedAt, r'.principals.lookup p = some ⟨k, revokedAt⟩)
      ↔ ∀ pre op post, ops = pre ++ op :: post → ¬ Reassigns (Machine.run registrar r pre) e k op := by
  have hkept := Machine.run_take_iff (P := fun r => OwnedBy r c e k) (G := fun r op => ¬ Reassigns r e k op)
    (fun r op (_ : op ∈ ops) h => owner_step h op) howned
  rw [← hkept]
  refine forall_congr' fun n => ⟨And.left, ?_⟩
  intro hrun
  exact ⟨hrun, fun p t hg => hrun.authorised hg⟩

/-- A case stays with its owner while cases, principals and other engagements come and go. -/
theorem owner_kept_busy :
    let ops : List CaseRegistry.Op :=
      [.addEngagement "E3" "C2", .registerCase "E2" "CASE-1", .addPrincipal "P" "C2" none]
    ∀ n,
      let r' := Machine.run registrar Sample.registry (ops.take n)
      OwnedBy r' "CASE-1" "E" "C"
        ∧ ∀ p t, (authorise r' p "CASE-1" t).kind = .authorised →
          ∃ revokedAt, r'.principals.lookup p = some ⟨"C", revokedAt⟩ := by
  intro ops
  refine (owner_kept_iff ⟨rfl, rfl⟩ ops).mpr ?_
  intro pre op post hcut hreassigns
  obtain ⟨k', rfl, _⟩ := hreassigns
  have hmem : CaseRegistry.Op.addEngagement "E" k' ∈ ops := by
    rw [hcut]
    simp
  simp [ops] at hmem
  exact absurd hmem.1 (by decide)

/-- Entering the engagement again hands its case over to another client's principal. -/
theorem owner_lost :
    let r := Sample.registry
    let call := registrar r (.addEngagement "E" "C2")
    OwnedBy r "CASE-1" "E" "C"
      ∧ (authorise r "P2" "CASE-1" 0).kind = .triage
      ∧ call.1 = .ok ()
      ∧ OwnedBy call.2 "CASE-1" "E" "C2"
      ∧ (authorise call.2 "P2" "CASE-1" 0).kind = .authorised :=
  ⟨⟨rfl, rfl⟩, rfl, rfl, ⟨rfl, rfl⟩, rfl⟩

end Intake.Proof
