import Intake.Lib.Machine
import Intake.Proof.Screen

/-!
# The store of ledgers over many runs

The store only ever grows, by exactly the ledgers the runs return. The lookup is
newest first, so it is not a snapshot: a later run for the same case and revision
is what it returns from then on, and nothing keeps such a run from happening.
-/

namespace Intake.Proof

open EvidenceService EventLog

/-- A run, with the registry and the adapter behaviour it will find. -/
structure ScreenRequest where
  manifest : CaseManifest
  registry : CaseRegistry
  fetch : Adapters

/-- The evidence service over one store. -/
def screens (env : EvidenceEnv) : Machine EvidenceWorld ScreenRequest (Except ScreenError FindingsLedger) :=
  fun w req => run env req.registry req.fetch w req.manifest

/-- The ledger of a run that returned. -/
def returned : Except ScreenError FindingsLedger → List FindingsLedger
  | .ok ledger => [ledger]
  | .error _ => []

/-- The pair a ledger is looked up by. -/
def IsFor (caseId : CaseId) (revision : Int) (ledger : FindingsLedger) : Bool :=
  ledger.caseId = caseId && ledger.manifestRevision = revision

/-- **One run** saves what it returns, and files it under the pair of its manifest. -/
theorem screens_step (env : EvidenceEnv) (w : EvidenceWorld) (req : ScreenRequest) :
    (screens env w req).2.ledgers = w.ledgers ++ returned (screens env w req).1
      ∧ ∀ ledger, (screens env w req).1 = .ok ledger →
        IsFor req.manifest.caseId req.manifest.revision ledger = true := by
  have hnothing : ∀ err : ScreenError, w.ledgers = w.ledgers ++ returned (.error err) :=
    fun _ => (List.append_nil _).symm
  have hnone : ∀ (err : ScreenError) (ledger : FindingsLedger), Except.error err = Except.ok ledger →
      IsFor req.manifest.caseId req.manifest.revision ledger = true := by
    intro err ledger h
    cases h
  obtain ⟨manifest, registry, fetch⟩ := req
  unfold screens
  dsimp only
  -- there are three ways not to save: the gate raises, the gate refuses, or a source raises
  cases hvalid : validateManifest env.sha256 manifest registry with
  | error err => rw [run, hvalid]; exact ⟨hnothing err, hnone err⟩
  | ok reason =>
      cases reason with
      | some reason => rw [run, hvalid]; exact ⟨hnothing _, hnone _⟩
      | none =>
          have hledgers := attemptAll_ledgers env fetch manifest SourceId.all w
          rw [run_of_valid hvalid]
          generalize attemptAll env fetch manifest w SourceId.all = x at hledgers ⊢
          obtain ⟨result, w₁⟩ := x
          cases result with
          | error err => exact ⟨hledgers.trans (hnothing err), hnone err⟩
          | ok records =>
              refine ⟨?_, ?_⟩
              · exact congrArg (· ++ [_]) ((deriveFindings_solo w₁ records).2.1.trans hledgers)
              · intro ledger hledger
                rw [← Except.ok.inj hledger]
                simp [IsFor, ledgerFrom]

/--
**The store is append-only, and its lookup is newest first.**

Over any sequence of runs the store keeps every ledger it held, and gains those
the runs returned, each filed under the pair of its manifest. What the lookup
returns for a pair is the newest of the gained ledgers of that pair, and without
one what it returned before.
-/
theorem ledgers_append_only (env : EvidenceEnv) (w : EvidenceWorld) (reqs : List ScreenRequest) :
    let replies := Machine.outputs (screens env) w reqs
    let w' := Machine.run (screens env) w reqs
    w'.ledgers = w.ledgers ++ replies.flatMap returned
      ∧ List.Forall₂ (fun req reply => ∀ ledger, reply = .ok ledger →
          ledger.caseId = req.manifest.caseId ∧ ledger.manifestRevision = req.manifest.revision) reqs replies
      ∧ (∀ caseId revision, w'.ledgerFor caseId revision
          = (latest (IsFor caseId revision) (replies.flatMap returned)).or (w.ledgerFor caseId revision))
      ∧ ∀ caseId revision, (∀ ledger, .ok ledger ∈ replies → IsFor caseId revision ledger = false) →
          w'.ledgerFor caseId revision = w.ledgerFor caseId revision := by
  intro replies w'
  have hgrown : w'.ledgers = w.ledgers ++ replies.flatMap returned :=
    Machine.run_log (fun w req => (screens_step env w req).1) w reqs
  have hlookup : ∀ caseId revision, w'.ledgerFor caseId revision
      = (latest (IsFor caseId revision) (replies.flatMap returned)).or (w.ledgerFor caseId revision) := by
    intro caseId revision
    show latest (IsFor caseId revision) w'.ledgers = _
    rw [hgrown, latest_append]
    rfl
  refine ⟨hgrown, ?_, hlookup, ?_⟩
  · refine Machine.run_outputs (fun w req ledger hledger => ?_) w reqs
    simpa [IsFor] using (screens_step env w req).2 ledger hledger
  · intro caseId revision hnone
    have hunmatched : latest (IsFor caseId revision) (replies.flatMap returned) = none := by
      rw [latest_eq_none]
      intro ledger hledger
      obtain ⟨reply, hreply, hin⟩ := List.mem_flatMap.mp hledger
      cases reply with
      | error err => exact absurd hin List.not_mem_nil
      | ok saved =>
          rw [List.mem_singleton.mp hin]
          exact hnone saved hreply
    rw [hlookup, hunmatched, Option.none_or]

/-- Running one manifest twice replaces what the lookup returns, although the first ledger is kept. -/
theorem ledger_replaced :
    let screen := fun status => ScreenRequest.mk Sample.manifest Sample.registry
      (Sample.adapters status "raw")
    let first := Machine.run (screens Sample.evidenceEnv) Sample.evidenceWorld [screen .notFound]
    let second := Machine.run (screens Sample.evidenceEnv) first [screen .found]
    createDueDiligenceManifest .newDeliverableReady (some .dueDiligence) "CASE-1" "E" "US-CA" Sample.geometry
        "v1" = .ok Sample.manifest
      ∧ (first.ledgerFor "CASE-1" 1).isSome
      ∧ first.ledgerFor "CASE-1" 1 ≠ second.ledgerFor "CASE-1" 1
      ∧ (second.ledgers.filter (IsFor "CASE-1" 1)).length = 2 := by
  decide +kernel

end Intake.Proof
