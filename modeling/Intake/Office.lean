import Intake.System
import Intake.Adapters

/-!
# The three services together

All three services are handed their collaborators. Given the same ones they share
the registry, the clock and the id generator. The log and the two queues belong to
the intake and the classification service, the store of ledgers to the evidence
service.

Intake and classification are constructed once. The adapters of a screen differ from
run to run in what they answer, so here each screen constructs its evidence service,
over the store of those before it.

An assignment is one call of one service, or a change of the registry, with the
clock readings it will see.
-/

namespace Intake

/-- What the three services are constructed with, besides the state they share. -/
structure OfficeEnv where
  /-- `hashlib.sha256(...).hexdigest()` -/
  sha256 : ByteArray → String
  /-- The classifier, given everything it was shown before; `none` is an `Exception`. -/
  classify : List MessageProjection → MessageProjection → Option ClassificationProposal
  /-- `str` of a float -/
  floatStr : PyFloat → String
  bufferM : PyFloat

/-- What the intake and the classification service need of it. -/
def OfficeEnv.desk (env : OfficeEnv) : Env := ⟨env.sha256, env.classify⟩

/-- What the evidence service needs of it. -/
def OfficeEnv.evidence (env : OfficeEnv) : EvidenceEnv := ⟨env.sha256, env.floatStr, env.bufferM⟩

/-- The state of all three services. -/
structure Office where
  world : World
  /-- `InMemoryEvidenceStore._ledgers`, oldest first. -/
  ledgers : List FindingsLedger
  /-- The calls made to adapters so far. -/
  calls : List EvidenceQuery

namespace Office

/-- Nothing stored, over some registry. -/
def init (registry : CaseRegistry) (ids : Stream' PyStr) : Office := ⟨World.init registry ids, [], []⟩

/-- The state as the evidence service sees it. -/
def evidence (o : Office) : EvidenceWorld := ⟨o.ledgers, o.world.clock, o.world.ids, o.calls⟩

/-- What the evidence service leaves: it moves the clock and the id generator on, and writes its store. -/
def withEvidence (o : Office) (e : EvidenceWorld) : Office where
  world := { o.world with clock := e.clock, ids := e.ids }
  ledgers := e.ledgers
  calls := e.calls

end Office

/-- A call of one of the services, or a change of the registry. -/
inductive Job where
  | desk (call : Call)
  /-- `EvidenceService(...)` with this mapping, of adapters as they behave now, and its `run`. -/
  | screen (manifest : CaseManifest) (adapters : Dict SourceId SourceAdapter)

/-- A job, and what the clock shows while it is done. -/
structure Assignment where
  job : Job
  clock : Stream' Instant

/-- What a job returns or raises. -/
inductive Answer where
  | desk (reply : Reply)
  | screen (result : Except ScreenError FindingsLedger)
  /-- The `ValueError` of `EvidenceService.__init__`: there is no service to run. -/
  | notConstructed (text : PyStr)

/-- **All three services over one state.** -/
def office (env : OfficeEnv) : Machine Office Assignment Answer := fun o a =>
  let o := { o with world := o.world.during a.clock }
  match a.job with
  | .desk call =>
      let (reply, world) := perform env.desk o.world call
      (.desk reply, { o with world })
  | .screen manifest adapters =>
      match AdapterTable.ofMapping adapters with
      | .error text => (.notConstructed text, o)
      | .ok table =>
          let (result, e) := EvidenceService.run env.evidence o.world.registry table.fetch o.evidence manifest
          (.screen result, o.withEvidence e)

namespace Sample

/-- All three services over the collaborators of the test suite, with a classifier that raises. -/
def officeEnv : OfficeEnv :=
  { sha256 := fun _ => "", classify := fun _ _ => none, floatStr := fun _ => "100.0", bufferM := ⟨0⟩ }

end Sample

end Intake
