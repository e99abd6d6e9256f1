import Intake.Lib.Clock
import Intake.Proof.Composition
import Mathlib.Data.Int.Order.Basic

/-!
# The order of time

The three services read one clock: for the gate, for the stamp of an event and for
the retrieval of a record. Many readings are compared with something and thrown
away. What is written bears a reading that was taken when it was written, and log
and store grow only at their ends.

So if the clock never goes back, the log is in the order of time, and so is the
store, record by record, whatever the calls were and however they were interleaved.
-/

namespace Intake.Proof

open EvidenceService Clock

/-- The order of time is that of the integers. -/
local instance : Preorder Instant := Int.instLinearOrder.toPreorder

/-! ## One screen -/

section Screens

variable (env : EvidenceEnv) (fetch : Adapters) (manifest : CaseManifest) {w : EvidenceWorld} {stamps : List Instant}

/-- A record bears the first reading of its attempt. -/
theorem attempt_retrievedAt {query : EvidenceQuery} {r : EvidenceRecord}
    (h : (attempt env fetch w manifest query).1 = .ok r) : r.retrievedAt = w.clock.head := by
  unfold attempt at h
  cases hfetch : fetch query.sourceId query with
  | raised typeName =>
      rw [hfetch] at h
      dsimp only at h
      unfold failureRecord at h
      cases hsha : sha env (failureEnvelope query.sourceId typeName) with
      | none => rw [hsha] at h; cases h
      | some rawHash => rw [hsha] at h; cases h; rfl
  | returned result =>
      rw [hfetch] at h
      dsimp only at h
      cases hsha : sha env result.raw with
      | none => rw [hsha] at h; cases h
      | some rawHash => rw [hsha] at h; cases h; rfl

/-- All attempts: the records of those that end are stamped one after the other. -/
theorem attemptAll_stamped (h : Stamped w.clock stamps) (srcs : List SourceId) :
    Stamped (attemptAll env fetch manifest w srcs).2.clock stamps
      ∧ ∀ records, (attemptAll env fetch manifest w srcs).1 = .ok records →
        Stamped (attemptAll env fetch manifest w srcs).2.clock (stamps ++ records.map EvidenceRecord.retrievedAt) := by
  induction srcs generalizing w stamps with
  | nil =>
      refine ⟨h, fun records hr => ?_⟩
      rw [← Except.ok.inj hr, List.map_nil, List.append_nil]
      exact h
  | cons src rest ih =>
      unfold attemptAll
      cases buildQuery env manifest src with
      | error err => exact ⟨h, fun _ hr => by cases hr⟩
      | ok query =>
          have hclock := attempt_clock env fetch manifest query w
          have hstamp : ∀ r, (attempt env fetch w manifest query).1 = .ok r → r.retrievedAt = w.clock.head :=
            fun r hr => attempt_retrievedAt env fetch manifest hr
          dsimp only
          generalize attempt env fetch w manifest query = x at hclock hstamp ⊢
          obtain ⟨result, w₁⟩ := x
          have hpassed : w₁.clock = w.clock.tail := hclock
          cases result with
          | error err => exact ⟨hpassed ▸ h.tail, fun _ hr => by cases hr⟩
          | ok record =>
              have hrecord : Stamped w₁.clock (stamps ++ [record.retrievedAt]) := by
                rw [hpassed, hstamp record rfl]
                exact h.stamp
              have hfailed := (ih (w := w₁) (hpassed ▸ h.tail)).1
              have hended := (ih hrecord).2
              dsimp only
              generalize attemptAll env fetch manifest w₁ rest = y at hfailed hended ⊢
              obtain ⟨others, w₂⟩ := y
              cases others with
              | error err => exact ⟨hfailed, fun _ hr => by cases hr⟩
              | ok records =>
                  refine ⟨hfailed, fun all hall => ?_⟩
                  rw [← Except.ok.inj hall, List.map_cons, List.append_cons]
                  exact hended records rfl

theorem deriveFindings_clock (w : EvidenceWorld) (records : List EvidenceRecord) :
    (deriveFindings w records).2.clock = w.clock := by
  induction records generalizing w with
  | nil => rfl
  | cons r records ih => exact ih (deriveFinding w r).2

/-- The stamps of the store. -/
def retrievals (ledgers : List FindingsLedger) : List Instant :=
  (ledgers.flatMap FindingsLedger.records).map EvidenceRecord.retrievedAt

/-- A screen stamps what it stores, and the clock passes everything else. -/
theorem run_stamped (registry : CaseRegistry) (h : Stamped w.clock stamps)
    (hstore : Stamped w.clock (retrievals w.ledgers)) :
    Stamped (run env registry fetch w manifest).2.clock stamps
      ∧ Stamped (run env registry fetch w manifest).2.clock
        (retrievals (run env registry fetch w manifest).2.ledgers) := by
  cases hvalid : validateManifest env.sha256 manifest registry with
  | error err => rw [run, hvalid]; exact ⟨h, hstore⟩
  | ok reason =>
      cases reason with
      | some reason => rw [run, hvalid]; exact ⟨h, hstore⟩
      | none =>
          have hpassed := (attemptAll_stamped env fetch manifest h SourceId.all).1
          obtain ⟨hfailed, hended⟩ := attemptAll_stamped env fetch manifest hstore SourceId.all
          have hstored := attemptAll_ledgers env fetch manifest SourceId.all w
          rw [run_of_valid hvalid]
          generalize attemptAll env fetch manifest w SourceId.all = x at hpassed hfailed hended hstored ⊢
          obtain ⟨result, w₁⟩ := x
          have hsame : w₁.ledgers = w.ledgers := hstored
          cases result with
          | error err =>
              refine ⟨hpassed, ?_⟩
              show Stamped w₁.clock (retrievals w₁.ledgers)
              rw [hsame]
              exact hfailed
          | ok records =>
              show Stamped (deriveFindings w₁ records).2.clock stamps
                ∧ Stamped (deriveFindings w₁ records).2.clock
                  (retrievals ((deriveFindings w₁ records).2.ledgers ++ [ledgerFrom manifest w₁ records]))
              rw [deriveFindings_clock, (deriveFindings_solo w₁ records).2.1, hsame]
              unfold retrievals
              rw [List.flatMap_append, List.map_append, List.flatMap_singleton]
              exact ⟨hpassed, hended records rfl⟩

end Screens

/-! ## All three services -/

/-- The stamps of the log. -/
def stampings (w : World) : List Instant := w.audit.map AuditEvent.stampedAt

/-- **Log and store in the order of time.** -/
structure Chronological (o : Office) : Prop where
  log : Stamped o.world.clock (stampings o.world)
  store : Stamped o.world.clock (retrievals o.ledgers)

theorem perform_chronological (env : Env) {stored : List Instant} {w : World}
    (h : Stamped w.clock (stampings w) ∧ Stamped w.clock stored) (call : Call) :
    Stamped (perform env w call).2.clock (stampings (perform env w call).2)
      ∧ Stamped (perform env w call).2.clock stored := by
  refine perform_preserves (P := fun w => Stamped w.clock (stampings w) ∧ Stamped w.clock stored)
    (fun _ h => h) (fun _ h => ⟨h.1.tail, h.2.tail⟩) (fun w d h => ⟨?_, h.2.tail⟩) (fun _ _ _ h => h)
    (fun _ _ h => h) (fun _ _ h => h) (fun _ _ h => h) h call
  show Stamped w.clock.tail ((w.audit ++ [_]).map AuditEvent.stampedAt)
  rw [List.map_append]
  exact h.1.stamp

theorem office_chronological {env : OfficeEnv} {o : Office} {a : Assignment} (h : Chronological o)
    (hclock : ∃ n, a.clock = o.world.clock.drop n) : Chronological (office env o a).2 := by
  obtain ⟨job, clock⟩ := a
  obtain ⟨n, rfl⟩ := hclock
  have hlog := h.log.drop n
  have hstore := h.store.drop n
  cases job with
  | desk call =>
      obtain ⟨hlog', hstore'⟩ :=
        perform_chronological env.desk (w := o.world.during (o.world.clock.drop n)) ⟨hlog, hstore⟩ call
      exact ⟨hlog', hstore'⟩
  | screen manifest adapters =>
      rcases AdapterTable.ofMapping_cases adapters with ⟨text, htext⟩ | ⟨table, rfl⟩
      · rw [office_notConstructed env o manifest htext]
        exact ⟨hlog, hstore⟩
      · have hend := run_stamped env.evidence table.fetch manifest
          (w := ({ o with world := o.world.during (o.world.clock.drop n) } : Office).evidence)
          o.world.registry hlog hstore
        rw [office_screen]
        exact ⟨hend.1, hend.2⟩

/--
**Log and store are in the order of time.**

Take any run of all three services on one clock that never goes back: every call
sees what the calls before it left of the clock, or something later. The events of
the log are in the order of their stamps, the records of the store in the order of
their retrieval, and the clock has passed them all.
-/
theorem time_is_kept (env : OfficeEnv) (registry : CaseRegistry) (ids : Stream' PyStr) (clock : Stream' Instant)
    (as : List Assignment) :
    let start : Office := { Office.init registry ids with world := (World.init registry ids).during clock }
    let o := Machine.run (office env) start as
    (∀ n, clock.get n ≤ clock.get (n + 1)) →
    (∀ pre a post, as = pre ++ a :: post →
      ∃ n, a.clock = (Machine.run (office env) start pre).world.clock.drop n) →
    (o.world.audit.map AuditEvent.stampedAt).Pairwise (· ≤ ·)
      ∧ ((o.ledgers.flatMap FindingsLedger.records).map EvidenceRecord.retrievedAt).Pairwise (· ≤ ·)
      ∧ (∀ e ∈ o.world.audit, e.stampedAt ≤ o.world.clock.head)
      ∧ ∀ ledger ∈ o.ledgers, ∀ r ∈ ledger.records, r.retrievedAt ≤ o.world.clock.head := by
  intro start o hsteady hclock
  have hall : Chronological o :=
    Machine.run_guarded (P := Chronological) (G := fun o a => ∃ n, a.clock = o.world.clock.drop n)
      (fun _ _ h ha => office_chronological h ha) ⟨stamped_nil hsteady, stamped_nil hsteady⟩ hclock
  refine ⟨hall.log.sorted, hall.store.sorted, fun e he => ?_, fun ledger hledger r hr => ?_⟩
  · exact hall.log.past _ (List.mem_map_of_mem he)
  · exact hall.store.past _ (List.mem_map_of_mem (List.mem_flatMap.mpr ⟨ledger, hledger, hr⟩))

/-- Jobs done one after the other, each on the clock that the one before left. -/
def inTurn (env : OfficeEnv) : Office → List Job → List Assignment
  | _, [] => []
  | o, job :: jobs =>
      let a : Assignment := ⟨job, o.world.clock⟩
      a :: inTurn env (office env o a).2 jobs

theorem inTurn_clock (env : OfficeEnv) {jobs : List Job} {o : Office} {pre post : List Assignment} {a : Assignment}
    (h : inTurn env o jobs = pre ++ a :: post) : a.clock = (Machine.run (office env) o pre).world.clock := by
  induction jobs generalizing o pre with
  | nil => exact absurd h.symm (List.append_ne_nil_of_right_ne_nil pre (List.cons_ne_nil a post))
  | cons job jobs ih =>
      cases pre with
      | nil =>
          obtain ⟨rfl, _⟩ := List.cons_eq_cons.mp h
          rfl
      | cons b pre =>
          obtain ⟨rfl, hrest⟩ := List.cons_eq_cons.mp h
          rw [Machine.run_cons]
          exact ih hrest

end Intake.Proof

namespace Intake.Sample

/-- A clock that ticks with every reading. -/
def ticking : Stream' Instant := fun n => n

/-- A case is registered, a message proposed and confirmed, and a site screened in between. -/
def jobs : List Job :=
  [.desk (.registerCase "E" "CASE-3"), .desk (.message (.propose (message "P" []) "text")),
    .screen manifest table.adapters, .desk (.message (.confirm (message "P" []) { reviewerId := "R" }))]

end Intake.Sample

namespace Intake.Proof

/-- These jobs on that clock: three events and a ledger of three records. -/
theorem time_is_kept_sample :
    let start : Office := { Office.init Sample.registry Sample.ids with
      world := (World.init Sample.registry Sample.ids).during Sample.ticking }
    let o := Machine.run (office Sample.officeEnv) start (inTurn Sample.officeEnv start Sample.jobs)
    (o.world.audit.length = 3 ∧ o.ledgers.map (fun ledger => ledger.records.length) = [3])
      ∧ (o.world.audit.map AuditEvent.stampedAt).Pairwise (· ≤ ·)
      ∧ ((o.ledgers.flatMap FindingsLedger.records).map EvidenceRecord.retrievedAt).Pairwise (· ≤ ·)
      ∧ (∀ e ∈ o.world.audit, e.stampedAt ≤ o.world.clock.head)
      ∧ ∀ ledger ∈ o.ledgers, ∀ r ∈ ledger.records, r.retrievedAt ≤ o.world.clock.head := by
  intro start o
  have hsteady : ∀ n, Sample.ticking.get n ≤ Sample.ticking.get (n + 1) := by
    intro n
    show (n : Int) ≤ ((n + 1 : ℕ) : Int)
    omega
  have hclock : ∀ pre a post, inTurn Sample.officeEnv start Sample.jobs = pre ++ a :: post →
      ∃ n, a.clock = (Machine.run (office Sample.officeEnv) start pre).world.clock.drop n :=
    fun pre a post hcut => ⟨0, inTurn_clock Sample.officeEnv hcut⟩
  have hcounts : o.world.audit.length = 3 ∧ o.ledgers.map (fun ledger => ledger.records.length) = [3] := by
    decide +kernel
  exact ⟨hcounts, time_is_kept Sample.officeEnv Sample.registry Sample.ids Sample.ticking
    (inTurn Sample.officeEnv start Sample.jobs) hsteady hclock⟩

end Intake.Proof
