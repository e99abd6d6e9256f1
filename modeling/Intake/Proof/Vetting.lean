import Intake.Proof.Composition
import Intake.Proof.Gate
import Intake.Proof.FailClosed

/-!
# Nothing unvetted is screened

Adapters reach outside, and ledgers are kept for good, so both should come from
manifests that passed the gate and from cases that are really there. The gate reads
the registry once, at the start of a run, and the registry goes on changing.

It changes in one direction. A case that was registered stays registered, under the
engagement it was registered under. So what the gate saw of a case is still true of
every query and every ledger, whenever they are looked at.
-/

namespace Intake.Proof

open EvidenceService

/-- The manifest was screened in the run with these adapters, when the gate let it pass. -/
def Passed (env : OfficeEnv) (o : Office) (as : List Assignment) (manifest : CaseManifest) (table : AdapterTable) :
    Prop :=
  ∃ pre clock post, as = pre ++ ⟨.screen manifest table.adapters, clock⟩ :: post
    ∧ ValidManifest env.sha256 manifest (Machine.run (office env) o pre).world.registry

/-! ## What one assignment asks and stores -/

/-- The queries of some attempts, also if one of them raises. -/
theorem attemptAll_asked (env : EvidenceEnv) (fetch : Adapters) (manifest : CaseManifest)
    (srcs : List SourceId) (w : EvidenceWorld) :
    ∃ asked, (attemptAll env fetch manifest w srcs).2.calls = w.calls ++ asked ∧ asked.length ≤ srcs.length
      ∧ ∀ query ∈ asked, ∃ src, buildQuery env manifest src = .ok query := by
  have hnone : ∀ (w : EvidenceWorld) (srcs : List SourceId), ∃ asked, w.calls = w.calls ++ asked
      ∧ asked.length ≤ srcs.length ∧ ∀ query ∈ asked, ∃ src, buildQuery env manifest src = .ok query :=
    fun w srcs => ⟨[], (List.append_nil _).symm, Nat.zero_le _, fun query hq => absurd hq List.not_mem_nil⟩
  induction srcs generalizing w with
  | nil => exact hnone w []
  | cons src rest ih =>
      unfold attemptAll
      cases hquery : buildQuery env manifest src with
      | error err => exact hnone w _
      | ok query =>
          have hcalls := (attempt_solo env fetch w manifest query).2.2
          have hfirst : [query].length ≤ (src :: rest).length := Nat.succ_le_succ (Nat.zero_le _)
          have hone : ∀ q ∈ [query], ∃ src, buildQuery env manifest src = .ok q := by
            intro q hq
            exact ⟨src, List.mem_singleton.mp hq ▸ hquery⟩
          dsimp only
          generalize attempt env fetch w manifest query = x at hcalls ⊢
          obtain ⟨result, w₁⟩ := x
          cases result with
          | error err => exact ⟨[query], hcalls, hfirst, hone⟩
          | ok record =>
              obtain ⟨asked, hrest, hfew, hasked⟩ := ih w₁
              have hlength : ([query] ++ asked).length ≤ (src :: rest).length := Nat.succ_le_succ hfew
              have hall : ∀ q ∈ [query] ++ asked, ∃ src, buildQuery env manifest src = .ok q := by
                intro q hq
                rcases List.mem_append.mp hq with hq | hq
                · exact hone q hq
                · exact hasked q hq
              have hgrown : (attemptAll env fetch manifest w₁ rest).2.calls = w.calls ++ ([query] ++ asked) := by
                rw [hrest, hcalls, List.append_assoc]
              dsimp only
              generalize attemptAll env fetch manifest w₁ rest = y at hgrown ⊢
              obtain ⟨restResult, w₂⟩ := y
              cases restResult with
              | error err => exact ⟨[query] ++ asked, hgrown, hlength, hall⟩
              | ok records => exact ⟨[query] ++ asked, hgrown, hlength, hall⟩

/-- A run makes queries only for a manifest that the gate lets pass, and at most one of each source. -/
theorem run_asked (env : EvidenceEnv) (registry : CaseRegistry) (fetch : Adapters) (w : EvidenceWorld)
    (manifest : CaseManifest) :
    ∃ asked, (run env registry fetch w manifest).2.calls = w.calls ++ asked ∧ asked.length ≤ 3
      ∧ ∀ query ∈ asked, ValidManifest env.sha256 manifest registry
        ∧ ∃ src, buildQuery env manifest src = .ok query := by
  have hnone : ∃ asked, w.calls = w.calls ++ asked ∧ asked.length ≤ 3 ∧ ∀ query ∈ asked,
      ValidManifest env.sha256 manifest registry ∧ ∃ src, buildQuery env manifest src = .ok query :=
    ⟨[], (List.append_nil _).symm, Nat.zero_le _, fun query hq => absurd hq List.not_mem_nil⟩
  cases hvalid : validateManifest env.sha256 manifest registry with
  | error err => rw [run, hvalid]; exact hnone
  | ok reason =>
      cases reason with
      | some reason => rw [run, hvalid]; exact hnone
      | none =>
          obtain ⟨asked, hcalls, hfew, hasked⟩ := attemptAll_asked env fetch manifest SourceId.all w
          have hpass := validateManifest_eq_none.mp hvalid
          rw [run_of_valid hvalid]
          generalize attemptAll env fetch manifest w SourceId.all = x at hcalls ⊢
          obtain ⟨result, w₁⟩ := x
          cases result with
          | error err => exact ⟨asked, hcalls, hfew, fun query hq => ⟨hpass, hasked query hq⟩⟩
          | ok records =>
              exact ⟨asked, (deriveFindings_solo w₁ records).2.2.trans hcalls, hfew,
                fun query hq => ⟨hpass, hasked query hq⟩⟩

/-- The queries an assignment adds. -/
def askedBy (env : OfficeEnv) (o : Office) (a : Assignment) : List EvidenceQuery :=
  (office env o a).2.calls.drop o.calls.length

/-- The ledger an assignment adds. -/
def storedBy (env : OfficeEnv) (o : Office) (a : Assignment) : List FindingsLedger :=
  match (office env o a).1 with
  | .desk _ => []
  | .screen result => returned result
  | .notConstructed _ => []

theorem office_calls (env : OfficeEnv) (o : Office) (a : Assignment) :
    (office env o a).2.calls = o.calls ++ askedBy env o a
      ∧ ∀ query ∈ askedBy env o a, ∃ manifest, ∃ table : AdapterTable, a.job = .screen manifest table.adapters
        ∧ ValidManifest env.sha256 manifest o.world.registry
        ∧ ∃ src, buildQuery env.evidence manifest src = .ok query := by
  -- nothing is asked by an assignment that leaves the calls as they are
  have hsilent : ∀ {a}, (office env o a).2.calls = o.calls →
      (office env o a).2.calls = o.calls ++ askedBy env o a ∧ askedBy env o a = [] := by
    intro a hcalls
    have hnone : askedBy env o a = [] := by rw [askedBy, hcalls, List.drop_length]
    exact ⟨by rw [hnone, hcalls, List.append_nil], hnone⟩
  obtain ⟨job, clock⟩ := a
  cases job with
  | desk call =>
      obtain ⟨hcalls, hnone⟩ := hsilent (a := ⟨.desk call, clock⟩) rfl
      exact ⟨hcalls, fun query hq => absurd (hnone ▸ hq) List.not_mem_nil⟩
  | screen manifest adapters =>
      rcases AdapterTable.ofMapping_cases adapters with ⟨text, htext⟩ | ⟨table, rfl⟩
      · have hsame : (office env o ⟨.screen manifest adapters, clock⟩).2.calls = o.calls := by
          rw [office_notConstructed env o manifest htext]
        obtain ⟨hcalls, hnone⟩ := hsilent hsame
        exact ⟨hcalls, fun query hq => absurd (hnone ▸ hq) List.not_mem_nil⟩
      · obtain ⟨asked, hcalls, _, hasked⟩ := run_asked env.evidence o.world.registry table.fetch
          (({ o with world := o.world.during clock } : Office).evidence) manifest
        have hgrown : (office env o ⟨.screen manifest table.adapters, clock⟩).2.calls = o.calls ++ asked := by
          rw [office_screen]
          exact hcalls
        have hnew : askedBy env o ⟨.screen manifest table.adapters, clock⟩ = asked := by
          rw [askedBy, hgrown, List.drop_left]
        rw [hnew]
        exact ⟨hgrown, fun query hq => ⟨manifest, table, rfl, hasked query hq⟩⟩

theorem office_ledgers (env : OfficeEnv) (o : Office) (a : Assignment) :
    (office env o a).2.ledgers = o.ledgers ++ storedBy env o a
      ∧ ∀ ledger ∈ storedBy env o a, ∃ manifest, ∃ table : AdapterTable, a.job = .screen manifest table.adapters
        ∧ ValidManifest env.sha256 manifest o.world.registry
        ∧ FailClosed env.evidence manifest table.fetch ledger
        ∧ ledger.caseId = manifest.caseId ∧ ledger.manifestRevision = manifest.revision := by
  obtain ⟨job, clock⟩ := a
  cases job with
  | desk call => exact ⟨(List.append_nil _).symm, fun ledger hl => absurd hl List.not_mem_nil⟩
  | screen manifest adapters =>
      rcases AdapterTable.ofMapping_cases adapters with ⟨text, htext⟩ | ⟨table, rfl⟩
      · rw [storedBy, office_notConstructed env o manifest htext]
        exact ⟨(List.append_nil _).symm, fun ledger hl => absurd hl List.not_mem_nil⟩
      · rw [storedBy, office_screen]
        have hsaved := screens_step env.evidence (({ o with world := o.world.during clock } : Office).evidence)
          ⟨manifest, o.world.registry, table.fetch⟩
        refine ⟨hsaved.1, fun ledger hledger => ?_⟩
        cases hrun : (run env.evidence o.world.registry table.fetch
            (({ o with world := o.world.during clock } : Office).evidence) manifest).1 with
        | error err =>
            rw [hrun] at hledger
            exact absurd hledger List.not_mem_nil
        | ok saved =>
            rw [hrun] at hledger
            rw [List.mem_singleton.mp hledger]
            obtain ⟨hvalid, records, w₁, _, hsame⟩ := run_ok hrun
            exact ⟨manifest, table, rfl, validateManifest_eq_none.mp hvalid, failClosed_of_returned hrun,
              by rw [hsame]; rfl, by rw [hsame]; rfl⟩

/-! ## Whole runs -/

/-- **A registered case stays where it is**, whatever all three services do. -/
theorem engagementForCase_office {env : OfficeEnv} {o : Office} {c : CaseId} {e : EngagementId}
    (h : o.world.registry.engagementForCase c = some e) (as : List Assignment) :
    (Machine.run (office env) o as).world.registry.engagementForCase c = some e := by
  rw [office_registry]
  exact Machine.run_invariant (P := fun r : CaseRegistry => r.engagementForCase c = some e)
    (fun r op hr => engagementForCase_step hr op) h _

/-- What the gate saw of the case is still true at the end of the run. -/
theorem Passed.owner {env : OfficeEnv} {o : Office} {as : List Assignment} {manifest : CaseManifest}
    {table : AdapterTable} (h : Passed env o as manifest table) :
    (Machine.run (office env) o as).world.registry.engagementForCase manifest.caseId
      = some manifest.engagementId := by
  obtain ⟨pre, clock, post, rfl, hvalid⟩ := h
  rw [Machine.run_append]
  exact engagementForCase_office hvalid.owner _

/--
**Nothing unvetted is screened.**

In every run of all three services, every query an adapter was ever handed was
built from a manifest that the gate let pass in that run, and so was every ledger
in the store. Queries and ledgers are about cases that the registry still holds,
under the engagement their manifest named.
-/
theorem evidence_vetted (env : OfficeEnv) (registry : CaseRegistry) (ids : Stream' PyStr) (as : List Assignment) :
    let o := Machine.run (office env) (Office.init registry ids) as
    (∀ query ∈ o.calls, ∃ manifest table src, Passed env (Office.init registry ids) as manifest table
        ∧ buildQuery env.evidence manifest src = .ok query
        ∧ o.world.registry.engagementForCase query.caseId = some manifest.engagementId)
      ∧ ∀ ledger ∈ o.ledgers, ∃ manifest table, Passed env (Office.init registry ids) as manifest table
        ∧ ledger.caseId = manifest.caseId ∧ ledger.manifestRevision = manifest.revision
        ∧ FailClosed env.evidence manifest table.fetch ledger
        ∧ o.world.registry.engagementForCase ledger.caseId = some manifest.engagementId := by
  intro o
  refine ⟨?_, ?_⟩
  · intro query hquery
    rcases Machine.run_origin (M := office env) (fun o a => (office_calls env o a).1) hquery with
      hinit | ⟨pre, a, post, hcut, hnew⟩
    · exact absurd hinit List.not_mem_nil
    · obtain ⟨manifest, table, hjob, hvalid, src, hbuilt⟩ := (office_calls env _ a).2 query hnew
      obtain ⟨job, clock⟩ := a
      subst hjob
      have hpassed : Passed env (Office.init registry ids) as manifest table := ⟨pre, clock, post, hcut, hvalid⟩
      have hcase : query.caseId = manifest.caseId := by
        unfold buildQuery at hbuilt
        split at hbuilt
        · cases hbuilt
        · split at hbuilt
          · cases hbuilt
          · rw [← Except.ok.inj hbuilt]
      exact ⟨manifest, table, src, hpassed, hbuilt, hcase ▸ hpassed.owner⟩
  · intro ledger hledger
    rcases Machine.run_origin (M := office env) (fun o a => (office_ledgers env o a).1) hledger with
      hinit | ⟨pre, a, post, hcut, hnew⟩
    · exact absurd hinit List.not_mem_nil
    · obtain ⟨manifest, table, hjob, hvalid, hclosed, hcase, hrevision⟩ := (office_ledgers env _ a).2 ledger hnew
      obtain ⟨job, clock⟩ := a
      subst hjob
      have hpassed : Passed env (Office.init registry ids) as manifest table := ⟨pre, clock, post, hcut, hvalid⟩
      exact ⟨manifest, table, hpassed, hcase, hrevision, hclosed, hcase ▸ hpassed.owner⟩

end Intake.Proof
