import Intake.Office
import Intake.Proof.Restart
import Intake.Proof.Ownership
import Intake.Proof.Snapshot

/-!
# The services side by side

Intake and classification write a log and two queues, the evidence service a store
of ledgers. What all three have in common is the registry, the clock and the id
generator. The evidence service reads the registry and never writes it, and where
the generator stands decides nothing but ids.

So the three services can be verified one by one. Whatever is screened in between,
intake and classification behave as if there were no evidence service. And a
screen is a function of the registry's history, the manifest and the adapters: no
message, and no earlier screen, has any part in it.
-/

namespace Intake.Sample

/-- Three adapters that find nothing, for the whole area. -/
def table : AdapterTable := .ofFetch (adapters .notFound "raw")

end Intake.Sample

namespace Intake.Proof

open IntakeService EventLog

/-! ## Intake and classification -/

/-- The request an assignment makes of intake and classification, if it does. -/
def deskRequest (a : Assignment) : Option Request :=
  match a.job with
  | .desk call => some ⟨call, a.clock⟩
  | .screen _ _ => none

def deskReply : Answer → Option Reply
  | .desk reply => some reply
  | .screen _ => none
  | .notConstructed _ => none

/-- An assignment of the desk is a request of the system. -/
theorem office_desk (env : OfficeEnv) (o : Office) (call : Call) (clock : Stream' Instant) :
    office env o ⟨.desk call, clock⟩
      = (.desk (system env.desk o.world ⟨call, clock⟩).1,
        { o with world := (system env.desk o.world ⟨call, clock⟩).2 }) := rfl

/-- A screen is a run of the evidence service that was constructed for it. -/
theorem office_screen (env : OfficeEnv) (o : Office) (manifest : CaseManifest) (table : AdapterTable)
    (clock : Stream' Instant) :
    let start : Office := { o with world := o.world.during clock }
    let ran := EvidenceService.run env.evidence o.world.registry table.fetch start.evidence manifest
    office env o ⟨.screen manifest table.adapters, clock⟩ = (.screen ran.1, start.withEvidence ran.2) := by
  unfold office
  dsimp only
  rw [AdapterTable.ofMapping_adapters]
  rfl

/-- Without a service there is no run. -/
theorem office_notConstructed (env : OfficeEnv) (o : Office) (manifest : CaseManifest)
    {adapters : Dict SourceId SourceAdapter} {text : PyStr} (h : AdapterTable.ofMapping adapters = .error text)
    (clock : Stream' Instant) :
    office env o ⟨.screen manifest adapters, clock⟩
      = (.notConstructed text, { o with world := o.world.during clock }) := by
  unfold office
  dsimp only
  rw [h]

/-- A screen moves clock and generator on, and leaves the rest of the world as it is. -/
theorem office_screen_world (env : OfficeEnv) (o : Office) (manifest : CaseManifest)
    (adapters : Dict SourceId SourceAdapter) (clock : Stream' Instant) :
    ∃ clock' ids, (office env o ⟨.screen manifest adapters, clock⟩).2.world
      = { o.world with clock := clock', ids := ids } := by
  rcases AdapterTable.ofMapping_cases adapters with ⟨text, htext⟩ | ⟨table, rfl⟩
  · rw [office_notConstructed env o manifest htext]
    exact ⟨_, _, rfl⟩
  · rw [office_screen]
    exact ⟨_, _, rfl⟩

/-- What a screen returns or raises is no reply of the desk. -/
theorem deskReply_screen (env : OfficeEnv) (o : Office) (manifest : CaseManifest)
    (adapters : Dict SourceId SourceAdapter) (clock : Stream' Instant) :
    deskReply (office env o ⟨.screen manifest adapters, clock⟩).1 = none := by
  rcases AdapterTable.ofMapping_cases adapters with ⟨text, htext⟩ | ⟨table, rfl⟩
  · rw [office_notConstructed env o manifest htext]
    rfl
  · rw [office_screen]
    rfl

/-- What intake and classification keep, screens keep too, unless it is about clock or generator. -/
theorem office_invariant (env : OfficeEnv) {P : World → Prop}
    (step : ∀ w req, P w → P (system env.desk w req).2)
    (moved : ∀ w clock ids, P w → P { w with clock := clock, ids := ids }) {o : Office} (h : P o.world)
    (as : List Assignment) : P (Machine.run (office env) o as).world := by
  refine Machine.run_invariant (P := fun o : Office => P o.world) (fun o a ho => ?_) h as
  obtain ⟨job, clock⟩ := a
  cases job with
  | desk call =>
      rw [office_desk]
      exact step o.world ⟨call, clock⟩ ho
  | screen manifest adapters =>
      obtain ⟨_, _, hworld⟩ := office_screen_world env o manifest adapters clock
      rw [hworld]
      exact moved o.world _ _ ho

/--
**Intake and classification do not notice the evidence service.**

In any run of all three services, over any id generator, the answers to the calls
of intake, classification and registry are those of the run of these calls alone,
over any other generator. Registry, log, queues and classifier end up the same,
generated ids apart.
-/
theorem desk_alone (env : OfficeEnv) (registry : CaseRegistry) (ids ids' : Stream' PyStr)
    (as : List Assignment) :
    let o := Machine.run (office env) (Office.init registry ids) as
    let alone := Machine.run (system env.desk) (World.init registry ids') (as.filterMap deskRequest)
    (Machine.outputs (office env) (Office.init registry ids) as).filterMap deskReply
        = Machine.outputs (system env.desk) (World.init registry ids') (as.filterMap deskRequest)
      ∧ o.world.registry = alone.registry
      ∧ o.world.audit.map unidentified = alone.audit.map unidentified
      ∧ o.world.triage.items.map unlabelledItem = alone.triage.items.map unlabelledItem
      ∧ o.world.clarifications.items.map unlabelledTask = alone.clarifications.items.map unlabelledTask
      ∧ o.world.classified = alone.classified := by
  intro o alone
  have hinit : SameMemory True (Office.init registry ids).world (World.init registry ids') :=
    (SameMemory.refl True (World.init registry ids')).congr _ _ _ _
  obtain ⟨houts, hmemory⟩ := Machine.run_selected (M := office env) (N := system env.desk)
    (R := fun o w => SameMemory True o.world w) deskRequest deskReply
    (fun o w a req ha h => by
      obtain ⟨job, clock⟩ := a
      cases job with
      | screen manifest adapters => cases ha
      | desk call =>
          obtain rfl := Option.some.inj ha
          obtain ⟨hreply, hw⟩ := h.step env.desk ⟨call, clock⟩
          rw [office_desk]
          exact ⟨congrArg some hreply, hw⟩)
    (fun o w a ha h => by
      obtain ⟨job, clock⟩ := a
      cases job with
      | desk call => cases ha
      | screen manifest adapters =>
          obtain ⟨_, _, hworld⟩ := office_screen_world env o manifest adapters clock
          rw [hworld]
          exact ⟨deskReply_screen env o manifest adapters clock, h.congr _ _ _ _⟩)
    hinit as
  exact ⟨houts, hmemory.registry, hmemory.events, hmemory.triage trivial, hmemory.clarifications trivial,
    hmemory.classified⟩

/-! ## Screens -/

/-- A record without its generated id. -/
def unlabelledRecord (r : EvidenceRecord) : EvidenceRecord := { r with recordId := [] }

/-- A ledger without the ids of ledger, records and findings. -/
def unlabelledLedger (l : FindingsLedger) : FindingsLedger :=
  { l with ledgerId := [], records := l.records.map unlabelledRecord, findings := l.findings.map findingCore }

/--
Two worlds of the evidence service, and what they are after like steps: the clock
moved alike, like queries were made, and no ledger was stored.
-/
structure Abreast (e₁ e₂ e₁' e₂' : EvidenceWorld) : Prop where
  clock : e₁'.clock = e₂'.clock
  stored₁ : e₁'.ledgers = e₁.ledgers
  stored₂ : e₂'.ledgers = e₂.ledgers
  calls : ∃ asked, e₁'.calls = e₁.calls ++ asked ∧ e₂'.calls = e₂.calls ++ asked

theorem Abreast.refl {e₁ e₂ : EvidenceWorld} (h : e₁.clock = e₂.clock) : Abreast e₁ e₂ e₁ e₂ :=
  ⟨h, rfl, rfl, [], (List.append_nil _).symm, (List.append_nil _).symm⟩

theorem Abreast.trans {e₁ e₂ e₁' e₂' e₁'' e₂'' : EvidenceWorld} (h : Abreast e₁ e₂ e₁' e₂')
    (h' : Abreast e₁' e₂' e₁'' e₂'') : Abreast e₁ e₂ e₁'' e₂'' := by
  obtain ⟨asked, h₁, h₂⟩ := h.calls
  obtain ⟨asked', h₁', h₂'⟩ := h'.calls
  exact ⟨h'.clock, h'.stored₁.trans h.stored₁, h'.stored₂.trans h.stored₂, asked ++ asked',
    by rw [h₁', h₁, List.append_assoc], by rw [h₂', h₂, List.append_assoc]⟩

section Screens

open EvidenceService

variable {e₁ e₂ : EvidenceWorld} (env : EvidenceEnv) (fetch : Adapters) (manifest : CaseManifest)

/-- An attempt reads the clock once. -/
theorem attempt_clock (query : EvidenceQuery) (e : EvidenceWorld) :
    (attempt env fetch e manifest query).2.clock = e.clock.tail := by
  unfold attempt
  cases fetch query.sourceId query with
  | raised typeName =>
      dsimp only
      unfold failureRecord
      cases sha env (failureEnvelope query.sourceId typeName) <;> rfl
  | returned result =>
      dsimp only
      cases sha env result.raw <;> rfl

/-- An attempt, beside one in another world that shows the same clock. -/
theorem attempt_abreast (h : e₁.clock = e₂.clock) (query : EvidenceQuery) :
    (attempt env fetch e₁ manifest query).1.map unlabelledRecord
        = (attempt env fetch e₂ manifest query).1.map unlabelledRecord
      ∧ Abreast e₁ e₂ (attempt env fetch e₁ manifest query).2 (attempt env fetch e₂ manifest query).2 := by
  have hmoved := attempt_clock env fetch manifest query
  obtain ⟨_, hstored₁, hcalls₁⟩ := attempt_solo env fetch e₁ manifest query
  obtain ⟨_, hstored₂, hcalls₂⟩ := attempt_solo env fetch e₂ manifest query
  refine ⟨?_, by rw [hmoved, hmoved, h], hstored₁, hstored₂, [query], hcalls₁, hcalls₂⟩
  unfold attempt
  cases fetch query.sourceId query with
  | raised typeName =>
      dsimp only
      unfold failureRecord
      cases sha env (failureEnvelope query.sourceId typeName) with
      | none => rfl
      | some rawHash =>
          simp only [EvidenceWorld.now, Except.map, unlabelledRecord, h]
  | returned result =>
      dsimp only
      cases sha env result.raw with
      | none => rfl
      | some rawHash =>
          simp only [EvidenceWorld.now, Except.map, unlabelledRecord, h]

/-- All attempts: they raise alike, or make like records. -/
theorem attemptAll_abreast (h : e₁.clock = e₂.clock) (srcs : List SourceId) :
    (attemptAll env fetch manifest e₁ srcs).1.map (List.map unlabelledRecord)
        = (attemptAll env fetch manifest e₂ srcs).1.map (List.map unlabelledRecord)
      ∧ Abreast e₁ e₂ (attemptAll env fetch manifest e₁ srcs).2 (attemptAll env fetch manifest e₂ srcs).2 := by
  induction srcs generalizing e₁ e₂ with
  | nil => exact ⟨rfl, Abreast.refl h⟩
  | cons src rest ih =>
      unfold attemptAll
      cases buildQuery env manifest src with
      | error err => exact ⟨rfl, Abreast.refl h⟩
      | ok query =>
          obtain ⟨hrecord, hmoved⟩ := attempt_abreast env fetch manifest h query
          dsimp only
          generalize attempt env fetch e₁ manifest query = x₁ at hrecord hmoved ⊢
          generalize attempt env fetch e₂ manifest query = x₂ at hrecord hmoved ⊢
          obtain ⟨r₁, v₁⟩ := x₁
          obtain ⟨r₂, v₂⟩ := x₂
          cases r₁ <;> cases r₂ <;> simp only [Except.map, reduceCtorEq, Except.error.injEq, Except.ok.injEq] at hrecord
          case error.error err₁ err₂ => exact ⟨by rw [hrecord], hmoved⟩
          case ok.ok record₁ record₂ =>
            obtain ⟨hrest, hmoved'⟩ := ih hmoved.clock
            dsimp only
            generalize attemptAll env fetch manifest v₁ rest = y₁ at hrest hmoved' ⊢
            generalize attemptAll env fetch manifest v₂ rest = y₂ at hrest hmoved' ⊢
            obtain ⟨s₁, u₁⟩ := y₁
            obtain ⟨s₂, u₂⟩ := y₂
            cases s₁ <;> cases s₂ <;>
              simp only [Except.map, reduceCtorEq, Except.error.injEq, Except.ok.injEq] at hrest
            case error.error err₁ err₂ => exact ⟨by rw [hrest], hmoved.trans hmoved'⟩
            case ok.ok records₁ records₂ =>
              refine ⟨?_, hmoved.trans hmoved'⟩
              simp only [Except.map, List.map_cons, hrecord, hrest]

/-- Like records make like findings. -/
theorem deriveFindings_abreast (h : e₁.clock = e₂.clock) {rs₁ rs₂ : List EvidenceRecord}
    (hrs : rs₁.map unlabelledRecord = rs₂.map unlabelledRecord) :
    (deriveFindings e₁ rs₁).1.map findingCore = (deriveFindings e₂ rs₂).1.map findingCore
      ∧ Abreast e₁ e₂ (deriveFindings e₁ rs₁).2 (deriveFindings e₂ rs₂).2 := by
  induction rs₁ generalizing e₁ e₂ rs₂ with
  | nil =>
      obtain rfl := List.map_eq_nil_iff.mp hrs.symm
      exact ⟨rfl, Abreast.refl h⟩
  | cons r₁ rs₁ ih =>
      cases rs₂ with
      | nil => cases hrs
      | cons r₂ rs₂ =>
          obtain ⟨hr, hrest⟩ := List.cons_eq_cons.mp hrs
          have hmoved : Abreast e₁ e₂ (deriveFinding e₁ r₁).2 (deriveFinding e₂ r₂).2 :=
            ⟨h, rfl, rfl, [], (List.append_nil _).symm, (List.append_nil _).symm⟩
          have hfinding : findingCore (deriveFinding e₁ r₁).1 = findingCore (deriveFinding e₂ r₂).1 := by
            have hsource := congrArg EvidenceRecord.sourceId hr
            have hstatus := congrArg EvidenceRecord.status hr
            dsimp only [unlabelledRecord] at hsource hstatus
            simp only [deriveFinding, findingCore, hsource, hstatus, List.map_cons, List.map_nil]
          obtain ⟨hfindings, hmoved'⟩ := ih hmoved.clock hrest
          exact ⟨List.cons_eq_cons.mpr ⟨hfinding, hfindings⟩, hmoved.trans hmoved'⟩

/-- **Two runs of one manifest**, over one registry and with one behaviour of the adapters. -/
theorem run_abreast (h : e₁.clock = e₂.clock) (registry : CaseRegistry) :
    (run env registry fetch e₁ manifest).1.map unlabelledLedger
        = (run env registry fetch e₂ manifest).1.map unlabelledLedger
      ∧ ∃ asked, (run env registry fetch e₁ manifest).2.calls = e₁.calls ++ asked
        ∧ (run env registry fetch e₂ manifest).2.calls = e₂.calls ++ asked := by
  unfold run
  cases validateManifest env.sha256 manifest registry with
  | error err => exact ⟨rfl, [], (List.append_nil _).symm, (List.append_nil _).symm⟩
  | ok reason =>
      cases reason with
      | some reason => exact ⟨rfl, [], (List.append_nil _).symm, (List.append_nil _).symm⟩
      | none =>
          obtain ⟨hrecords, hmoved⟩ :=
            attemptAll_abreast env fetch manifest h SourceId.all
          dsimp only
          generalize attemptAll env fetch manifest e₁ SourceId.all = x₁ at hrecords hmoved ⊢
          generalize attemptAll env fetch manifest e₂ SourceId.all = x₂ at hrecords hmoved ⊢
          obtain ⟨r₁, v₁⟩ := x₁
          obtain ⟨r₂, v₂⟩ := x₂
          cases r₁ <;> cases r₂ <;>
            simp only [Except.map, reduceCtorEq, Except.error.injEq, Except.ok.injEq] at hrecords
          case error.error err₁ err₂ => exact ⟨by rw [hrecords], hmoved.calls⟩
          case ok.ok records₁ records₂ =>
            obtain ⟨hfindings, hmoved'⟩ := deriveFindings_abreast hmoved.clock hrecords
            refine ⟨?_, (hmoved.trans hmoved').calls⟩
            simp only [Except.map, unlabelledLedger, hrecords]
            exact congrArg _ (by rw [hfindings])

end Screens

/-! ## The registry's part -/

/-- The change of the registry an assignment asks for, if it asks for one. -/
def registryOp (a : Assignment) : Option CaseRegistry.Op :=
  match a.job with
  | .desk (.registerCase e c) => some (.registerCase e c)
  | .desk (.registry op) => some op
  | .desk (.message _) => none
  | .screen _ _ => none

/-- Only these assignments change the registry, and they change it as the registry alone does. -/
theorem office_registry_step (env : OfficeEnv) (o : Office) (a : Assignment) :
    (office env o a).2.world.registry
      = ((registryOp a).map fun op => (registrar o.world.registry op).2).getD o.world.registry := by
  obtain ⟨job, clock⟩ := a
  cases job with
  | screen manifest adapters =>
      obtain ⟨_, _, hworld⟩ := office_screen_world env o manifest adapters clock
      rw [hworld]
      rfl
  | desk call =>
      rw [office_desk]
      cases call with
      | message call =>
          obtain ⟨f, _, happ⟩ := system_served env.desk o.world call clock
          exact happ.registry
      | registerCase e c =>
          show (registerCase env.desk (o.world.during clock) e c).2.registry
            = (registrar o.world.registry (.registerCase e c)).2
          have hspec := registerCase_spec env.desk (o.world.during clock) e c
          unfold registrar
          generalize registerCase env.desk (o.world.during clock) e c = x at hspec ⊢
          cases hspec with
          | refused h | lost h | recorded h =>
              have hop : o.world.registry.apply (.registerCase e c) = _ := h
              rw [hop]
              rfl
      | registry op =>
          show (perform env.desk (o.world.during clock) (.registry op)).2.registry
            = (registrar o.world.registry op).2
          unfold perform registrar
          simp only [World.during]
          cases o.world.registry.apply op <;> rfl

theorem office_registry (env : OfficeEnv) (o : Office) (as : List Assignment) :
    (Machine.run (office env) o as).world.registry
      = Machine.run registrar o.world.registry (as.filterMap registryOp) := by
  induction as generalizing o with
  | nil => rfl
  | cons a as ih =>
      rw [Machine.run_cons, ih, office_registry_step]
      cases ha : registryOp a with
      | none => rw [List.filterMap_cons_none ha]; rfl
      | some op => rw [List.filterMap_cons_some ha]; rfl

/--
**A screen stands alone.**

In any run of all three services, a screen whose mapping the constructor refuses
changes nothing. What any other screen returns or raises, generated ids apart, is
what the evidence service returns or raises in an empty world, over the registry
that the registry operations of the run lead to. It makes the same queries, and
stores what it returns. Nothing that was logged, queued or screened before has any
influence.
-/
theorem screen_alone (env : OfficeEnv) (registry : CaseRegistry) (ids ids' : Stream' PyStr)
    (pre : List Assignment) (manifest : CaseManifest) (adapters : Dict SourceId SourceAdapter)
    (clock : Stream' Instant) :
    let o := Machine.run (office env) (Office.init registry ids) pre
    let after := office env o ⟨.screen manifest adapters, clock⟩
    (∃ text, AdapterTable.ofMapping adapters = .error text
        ∧ after = (.notConstructed text, { o with world := o.world.during clock }))
      ∨ ∃ table, AdapterTable.ofMapping adapters = .ok table ∧
        let alone := EvidenceService.run env.evidence (Machine.run registrar registry (pre.filterMap registryOp))
          table.fetch (EvidenceWorld.init clock ids') manifest
        ∃ result, after.1 = .screen result
          ∧ result.map unlabelledLedger = alone.1.map unlabelledLedger
          ∧ after.2.ledgers = o.ledgers ++ returned result
          ∧ after.2.calls = o.calls ++ alone.2.calls := by
  intro o after
  rcases AdapterTable.ofMapping_cases adapters with ⟨text, htext⟩ | ⟨table, rfl⟩
  · exact Or.inl ⟨text, htext, office_notConstructed env o manifest htext clock⟩
  refine Or.inr ⟨table, AdapterTable.ofMapping_adapters table, ?_⟩
  intro alone
  have hregistry : o.world.registry = Machine.run registrar registry (pre.filterMap registryOp) :=
    office_registry env _ pre
  have hclock : ({ o with world := o.world.during clock } : Office).evidence.clock
      = (EvidenceWorld.init clock ids').clock := rfl
  obtain ⟨hresult, asked, hcalls, hcalls'⟩ := run_abreast env.evidence table.fetch manifest
    hclock o.world.registry
  rw [hregistry] at hresult hcalls'
  have hafter := office_screen env o manifest table clock
  refine ⟨_, congrArg Prod.fst hafter, ?_, ?_, ?_⟩
  · rw [← hresult, ← hregistry]
  · rw [show after = _ from hafter]
    exact (screens_step env.evidence _ ⟨manifest, o.world.registry, table.fetch⟩).1
  · rw [show after = _ from hafter, show alone.2.calls = asked from hcalls']
    exact hcalls

end Intake.Proof
