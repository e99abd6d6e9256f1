import Intake.Service
import Intake.Classification
import Intake.Lib.Machine

/-!
# The system

The two services over one shared state, as a machine. A request is a call with
the clock readings it will see; the registry changes between calls, through its
own mutators or through the service.
-/

namespace Intake

/-- A call for a message. -/
inductive MessageCall where
  | handleIntake (message : IntakeMessage)
  | propose (message : IntakeMessage) (text : PyStr)
  | confirm (message : IntakeMessage) (decision : HumanDecision)
  deriving DecidableEq, Repr

/-- The message a call is for. -/
def MessageCall.message : MessageCall → IntakeMessage
  | .handleIntake m => m
  | .propose m _ => m
  | .confirm m _ => m

/-- Anything that can happen to the shared state. -/
inductive Call where
  | message (call : MessageCall)
  /-- `IntakeService.register_case` -/
  | registerCase (engagementId : EngagementId) (caseId : CaseId)
  /-- A mutation of the registry behind the services' back. -/
  | registry (op : CaseRegistry.Op)
  deriving DecidableEq, Repr

/-- What a call returns or raises. -/
inductive Reply where
  | intake (result : Except PyError AuthorisationDecision)
  | proposal (result : ProposalResult)
  | confirmation (result : Except PyError ConfirmResult)
  | registry (result : Except PyError Unit)

/-- Serve one message call. -/
def serve (env : Env) (w : World) : MessageCall → Reply × World
  | .handleIntake m => let (r, w) := IntakeService.handleIntake w m; (.intake r, w)
  | .propose m text => let (r, w) := ClassificationService.propose env w m text; (.proposal r, w)
  | .confirm m d => let (r, w) := ClassificationService.confirm w m d; (.confirmation r, w)

/-- Serve any call. -/
def perform (env : Env) (w : World) : Call → Reply × World
  | .message call => serve env w call
  | .registerCase e c => let (r, w) := IntakeService.registerCase env w e c; (.registry r, w)
  | .registry op =>
      match w.registry.apply op with
      | .error err => (.registry (.error err), w)
      | .ok registry => (.registry (.ok ()), { w with registry })

/-- A call, and what the clock shows while it runs. -/
structure Request where
  call : Call
  clock : Stream' Instant

/-- The shared state when a request's call starts. -/
def World.during (w : World) (clock : Stream' Instant) : World := { w with clock }

/-- **The system.** -/
def system (env : Env) : Machine World Request Reply :=
  fun w req => perform env (w.during req.clock) req.call

/-! ## The world of the test suite -/

namespace Sample

/-- The registry of `tests/conftest.py`: two clients, each with one engagement, principal and case. -/
def registry : CaseRegistry :=
  [CaseRegistry.Op.addClient "C", .addClient "C2", .addEngagement "E" "C", .addEngagement "E2" "C2",
    .addPrincipal "P" "C" none, .addPrincipal "P2" "C2" none, .registerCase "E" "CASE-1",
    .registerCase "E2" "CASE-2"].foldl
    (fun r op => match r.apply op with
      | .ok r => r
      | .error _ => r)
    CaseRegistry.empty

/-- A generator that never repeats itself. -/
def ids : Stream' PyStr := fun n => List.replicate (n + 1) (PyChar.scalar 'i')

def world : World := World.init registry ids

/-- Message `M1`, from a principal, claiming some cases. -/
def message (principalId : PrincipalId) (claimedCaseIds : List CaseId) : IntakeMessage :=
  { messageId := "M1", principalId, claimedCaseIds, bodyDigest := "sha256:body" }

/-- A classifier with one preset answer. -/
def env (answer : Option ClassificationProposal) : Env where
  sha256 := fun _ => ""
  classify := fun _ _ => answer

/-- A call at a fixed instant. -/
def request (call : MessageCall) : Request := ⟨.message call, Stream'.const 0⟩

end Sample

end Intake
