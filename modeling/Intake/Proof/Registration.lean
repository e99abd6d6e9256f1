import Intake.Lib.Separated
import Intake.Proof.CaseIds
import Intake.Proof.Served

/-!
# Registrations and their events

`register_case` of the service mutates the registry first and hashes the engagement
and the case id afterwards. Hashing can raise: an engagement id may hold a lone
surrogate, and then the case is registered, the caller sees an exception that the
docstring does not mention, and no event is ever written for it.

That is the only way for the registry and the log to drift apart.
-/

namespace Intake.Sample

/-- Hashes without collisions; the classifier is never asked. -/
def hexEnv : Env := { sha256 := hexdigest, classify := fun _ _ => none }

/-- A client, one engagement, and two attempts to register the same case under it. -/
def registering (e : EngagementId) : List Request :=
  [⟨.registry (.addClient "C"), Stream'.const 0⟩, ⟨.registry (.addEngagement e "C"), Stream'.const 0⟩,
    ⟨.registerCase e "CASE-1", Stream'.const 0⟩, ⟨.registerCase e "CASE-1", Stream'.const 0⟩]

theorem registering_service (e : EngagementId) :
    ∀ req ∈ registering e, ∀ e' c, req.call ≠ .registry (.registerCase e' c) := by
  intro req hreq e' c hcall
  simp only [registering, List.mem_cons, List.not_mem_nil, or_false] at hreq
  rcases hreq with rfl | rfl | rfl | rfl <;> cases hcall

end Intake.Sample

namespace Intake.Proof

open IntakeService

/-- The `registry.case_registered` events of the log, without their stamps. -/
def registrations (w : World) : List AuditDraft := w.trail.filter fun d => d.action = .caseRegistered

/-- What the service hashes for a registration. -/
def subject (e : EngagementId) (c : CaseId) : PyStr := e ++ PyStr.ofString ":" ++ c

/-- A registration through the service that the registry lets in, under an engagement id that cannot be encoded. -/
def LosesEvent (w : World) (req : Request) : Prop :=
  ∃ e c, req.call = .registerCase e c ∧ Admits w.registry e c ∧ ¬ PyStr.Encodable e

/-- **The cases are the case ids of the events, one event each.** -/
def CasesLogged (w : World) : Prop :=
  ((registrations w).map AuditDraft.caseId).Perm (w.registry.cases.keys.map some)

/-- An event carries the digest of its case and the engagement it is registered under. -/
def SubjectsLogged (env : Env) (w : World) : Prop :=
  ∀ d ∈ registrations w, ∃ c e, (d.caseId = some c ∧ isWellFormedCaseId c = true)
    ∧ w.registry.engagementForCase c = some e ∧ digest env (subject e c) = some d.subjectDigest

/-! ## What is hashed -/

/-- A case id is free of colons, so the subject can be taken apart. -/
theorem subject_inj {e e' : EngagementId} {c c' : CaseId} (hc : isWellFormedCaseId c = true)
    (hc' : isWellFormedCaseId c' = true) (h : subject e c = subject e' c') : e = e' ∧ c = c' := by
  unfold subject at h
  rw [List.append_assoc, List.append_assoc] at h
  exact Separated.last_inj (colon_notMem_of_wellFormed hc) (colon_notMem_of_wellFormed hc') h

theorem digest_subject_isSome {env : Env} {e : EngagementId} {c : CaseId} (hc : isWellFormedCaseId c = true) :
    (digest env (subject e c)).isSome ↔ PyStr.Encodable e := by
  unfold digest subject
  rw [PyStr.sha256Text_isSome, PyStr.encodable_append, PyStr.encodable_append]
  exact ⟨fun h => h.1.1, fun h => ⟨⟨h, PyStr.encodable_ofString _⟩, encodable_of_wellFormed hc⟩⟩

/-! ## One registration -/

/-- **What `register_case` of the service does** to the registry and the log. -/
inductive Registers (env : Env) (w : World) (e : EngagementId) (c : CaseId) : Except PyError Unit → World → Prop where
  | refused (h : ¬ Admits w.registry e c) (err : PyError) {w' : World} (hreg : w'.registry = w.registry)
      (haudit : w'.audit = w.audit) : Registers env w e c (.error err) w'
  | lost (h : Admits w.registry e c) (he : ¬ PyStr.Encodable e) {w' : World}
      (hreg : w'.registry = { w.registry with cases := w.registry.cases.insert c e })
      (haudit : w'.audit = w.audit) : Registers env w e c (.error .unicodeEncodeError) w'
  | recorded (h : Admits w.registry e c) (he : PyStr.Encodable e) {w' : World} {d : AuditDraft}
      (hreg : w'.registry = { w.registry with cases := w.registry.cases.insert c e })
      (htrail : w'.trail = w.trail ++ [d]) (haction : d.action = .caseRegistered) (hcase : d.caseId = some c)
      (hdigest : digest env (subject e c) = some d.subjectDigest) : Registers env w e c (.ok ()) w'

theorem registerCase_registers (env : Env) (w : World) (e : EngagementId) (c : CaseId) :
    Registers env w e c (registerCase env w e c).1 (registerCase env w e c).2 := by
  have hspec := registerCase_spec env w e c
  generalize registerCase env w e c = x at hspec ⊢
  cases hspec with
  | refused hreg =>
      refine .refused ?_ _ rfl rfl
      intro h
      rw [registerCase_ok_iff.mpr ⟨h, rfl⟩] at hreg
      cases hreg
  | lost hreg hdigest =>
      obtain ⟨hadmits, rfl⟩ := registerCase_ok_iff.mp hreg
      have hsome : (digest env (subject e c)).isSome ↔ PyStr.Encodable e := digest_subject_isSome hadmits.format
      rw [subject, hdigest] at hsome
      exact .lost hadmits (fun he => absurd (hsome.mpr he) (by simp)) rfl rfl
  | recorded hreg hdigest =>
      obtain ⟨hadmits, rfl⟩ := registerCase_ok_iff.mp hreg
      have hsome : (digest env (subject e c)).isSome ↔ PyStr.Encodable e := digest_subject_isSome hadmits.format
      rw [subject, hdigest] at hsome
      exact .recorded hadmits (hsome.mp rfl) rfl (World.trail_append _ _) rfl rfl hdigest

/-- A registration as a step of the system; the clock that comes with the call changes nothing of this. -/
theorem system_registers (env : Env) (w : World) (e : EngagementId) (c : CaseId) (clock : Stream' Instant) :
    ∃ result, (system env w ⟨.registerCase e c, clock⟩).1 = .registry result
      ∧ Registers env w e c result (system env w ⟨.registerCase e c, clock⟩).2 := by
  have hregisters := registerCase_registers env (w.during clock) e c
  refine ⟨(registerCase env (w.during clock) e c).1, rfl, ?_⟩
  have hnext : (system env w ⟨.registerCase e c, clock⟩).2 = (registerCase env (w.during clock) e c).2 := rfl
  rw [hnext]
  generalize (registerCase env (w.during clock) e c).1 = result at hregisters ⊢
  generalize (registerCase env (w.during clock) e c).2 = w' at hregisters ⊢
  cases hregisters with
  | refused h err hreg haudit => exact .refused (w := w) h err hreg haudit
  | lost h he hreg haudit => exact .lost (w := w) h he hreg haudit
  | recorded h he hreg htrail haction hcase hdigest =>
      exact .recorded (w := w) h he hreg htrail haction hcase hdigest

/-! ## The other steps -/

theorem registrations_append {w w' : World} {ds : List AuditDraft} (h : w'.trail = w.trail ++ ds) :
    registrations w' = registrations w ++ ds.filter fun d => d.action = .caseRegistered := by
  rw [registrations, h, List.filter_append]
  rfl

theorem registrations_of_audit {w w' : World} (h : w'.audit = w.audit) : registrations w' = registrations w := by
  unfold registrations World.trail
  rw [h]

/-- No call for a message writes a registration, or touches the registry. -/
theorem message_frame (env : Env) (w : World) (call : MessageCall) (clock : Stream' Instant) :
    (system env w ⟨.message call, clock⟩).2.registry = w.registry
      ∧ registrations (system env w ⟨.message call, clock⟩).2 = registrations w := by
  obtain ⟨f, hs, happ⟩ := system_served env w call clock
  refine ⟨happ.registry, ?_⟩
  have hnone : f.drafts.filter (fun d => d.action = .caseRegistered) = [] := by
    refine List.filter_eq_nil_iff.mpr ?_
    intro d hd
    have hwrote := hs.wrote d hd
    cases hwrote <;> exact of_decide_eq_true rfl
  have happend := registrations_append happ.trail
  rw [hnone, List.append_nil] at happend
  exact happend

/-- A call of a mutator is one step of the registry, and the log does not see it. -/
theorem mutator_frame (env : Env) (w : World) (op : CaseRegistry.Op) (clock : Stream' Instant) :
    (system env w ⟨.registry op, clock⟩).2 = { w.during clock with registry := (registrar w.registry op).2 } := by
  have hregistry : (w.during clock).registry = w.registry := rfl
  unfold system perform registrar
  dsimp only
  rw [hregistry]
  cases w.registry.apply op <;> rfl

/-- Only `register_case` writes to the dictionary of cases. -/
theorem cases_of_setup {r : CaseRegistry} {op : CaseRegistry.Op} (hop : ∀ e c, op ≠ .registerCase e c) :
    (registrar r op).2.cases = r.cases := by
  have hmutates := mutates r op
  generalize registrar r op = x at hmutates ⊢
  obtain ⟨result, r'⟩ := x
  cases hmutates with
  | nothing | client | engagement | principal => rfl
  | case h => exact absurd rfl (hop _ _)

theorem keys_of_admitted {r : CaseRegistry} {e : EngagementId} {c : CaseId} (h : Admits r e c) :
    (r.cases.insert c e).keys = c :: r.cases.keys := by
  rw [AList.insert_of_notMem h.fresh]
  rfl

/-! ## The two invariants -/

/-- A call keeps cases and events in step exactly if it does not lose an event. -/
theorem casesLogged_step {env : Env} {w : World} {req : Request}
    (hreq : ∀ e c, req.call ≠ .registry (.registerCase e c)) (h : CasesLogged w) :
    CasesLogged (system env w req).2 ↔ ¬ LosesEvent w req := by
  obtain ⟨call, clock⟩ := req
  cases call with
  | message call =>
      obtain ⟨hreg, hevents⟩ := message_frame env w call clock
      unfold CasesLogged
      rw [hreg, hevents]
      refine iff_of_true h ?_
      intro hlost
      obtain ⟨e, c, hcall, _⟩ := hlost
      cases hcall
  | registry op =>
      rw [mutator_frame]
      have hcases := cases_of_setup (r := w.registry) fun e c hop => hreq e c (congrArg Call.registry hop)
      refine iff_of_true ?_ ?_
      · unfold CasesLogged
        dsimp only
        rw [hcases]
        exact h
      · intro hlost
        obtain ⟨e, c, hcall, _⟩ := hlost
        cases hcall
  | registerCase e c =>
      obtain ⟨result, _, hregisters⟩ := system_registers env w e c clock
      generalize (system env w ⟨.registerCase e c, clock⟩).2 = w' at hregisters ⊢
      unfold CasesLogged at h ⊢
      cases hregisters with
      | refused hadmits err hreg haudit =>
          rw [registrations_of_audit haudit, hreg]
          refine iff_of_true h ?_
          intro hlost
          obtain ⟨e', c', hcall, hadmits', _⟩ := hlost
          cases hcall
          exact hadmits hadmits'
      | lost hadmits he hreg haudit =>
          refine iff_of_false ?_ (not_not.mpr ⟨e, c, rfl, hadmits, he⟩)
          -- there is one case more, and no event more
          intro hnext
          rw [registrations_of_audit haudit, hreg, keys_of_admitted hadmits] at hnext
          have hlength := h.length_eq
          have hlength' := hnext.length_eq
          rw [hlength, List.length_map, List.length_map, List.length_cons] at hlength'
          omega
      | @recorded hadmits he _ d hreg htrail haction hcase hdigest =>
          refine iff_of_true ?_ ?_
          · rw [registrations_append htrail, List.filter_cons_of_pos (by simpa using haction), List.filter_nil,
              hreg, keys_of_admitted hadmits, List.map_append, List.map_cons, List.map_cons, hcase]
            exact (List.perm_append_singleton _ _).trans (h.cons _)
          · intro hlost
            obtain ⟨e', c', hcall, _, he'⟩ := hlost
            cases hcall
            exact he' he

/-- Events stay true while cases are only added. -/
theorem SubjectsLogged.mono {env : Env} {w w' : World} (h : SubjectsLogged env w)
    (hevents : registrations w' = registrations w)
    (hcases : ∀ c e, w.registry.engagementForCase c = some e → w'.registry.engagementForCase c = some e) :
    SubjectsLogged env w' := by
  intro d hd
  rw [hevents] at hd
  obtain ⟨c, e, hcase, hc, hdigest⟩ := h d hd
  exact ⟨c, e, hcase, hcases c e hc, hdigest⟩

theorem subjectsLogged_step {env : Env} (w : World) (req : Request) (h : SubjectsLogged env w) :
    SubjectsLogged env (system env w req).2 := by
  obtain ⟨call, clock⟩ := req
  cases call with
  | message call =>
      obtain ⟨hreg, hevents⟩ := message_frame env w call clock
      refine h.mono hevents ?_
      intro c e hc
      rw [hreg]
      exact hc
  | registry op =>
      rw [mutator_frame]
      exact SubjectsLogged.mono h rfl fun c e hc => engagementForCase_step hc op
  | registerCase e c =>
      obtain ⟨result, _, hregisters⟩ := system_registers env w e c clock
      generalize (system env w ⟨.registerCase e c, clock⟩).2 = w' at hregisters ⊢
      cases hregisters with
      | refused hadmits err hreg haudit =>
          refine h.mono (registrations_of_audit haudit) ?_
          intro c' e' hc'
          rw [hreg]
          exact hc'
      | lost hadmits he hreg haudit =>
          refine h.mono (registrations_of_audit haudit) ?_
          intro c' e' hc'
          rw [hreg]
          exact engagementForCase_insert hadmits hc'
      | @recorded hadmits he _ d hreg htrail haction hcase hdigest =>
          intro d' hd'
          rw [hreg]
          rw [registrations_append htrail, List.mem_append] at hd'
          rcases hd' with hd' | hd'
          · obtain ⟨c', e', hcase', hc', hdigest'⟩ := h d' hd'
            exact ⟨c', e', hcase', engagementForCase_insert hadmits hc', hdigest'⟩
          · obtain rfl : d' = d := List.mem_singleton.mp (List.mem_of_mem_filter hd')
            exact ⟨c, e, ⟨hcase, hadmits.format⟩, AList.lookup_insert _, hdigest⟩

/-! ## Registrations that raise -/

/-- A registration that raises changes nothing, unless it loses its event. -/
theorem raised_step {env : Env} {w : World} {req : Request} {e : EngagementId} {c : CaseId} {err : PyError}
    (hcall : req.call = .registerCase e c) (herr : (system env w req).1 = .registry (.error err))
    (hlost : ¬ LosesEvent w req) :
    (system env w req).2.registry = w.registry ∧ (system env w req).2.audit = w.audit := by
  obtain ⟨call, clock⟩ := req
  cases hcall
  obtain ⟨result, hreply, hregisters⟩ := system_registers env w e c clock
  rw [hreply] at herr
  cases herr
  generalize (system env w ⟨.registerCase e c, clock⟩).2 = w' at hregisters ⊢
  cases hregisters with
  | refused hadmits err hreg haudit => exact ⟨hreg, haudit⟩
  | lost hadmits he => exact absurd ⟨e, c, rfl, hadmits, he⟩ hlost

/-! ## Runs -/

/--
**When registrations and their events do not drift apart.**

Take any calls on an empty registry and an empty log, with cases registered only
through the service. Then in every state the registered cases are the case ids of
the registration events, each in exactly one event; an event's digest is that of one
engagement and one case id only, if SHA-256 does not collide; and a `register_case`
that raises changes neither the registry nor the log: exactly if no call registers a
case that the registry lets in under an engagement id with a lone surrogate.
-/
theorem registrations_logged_iff (env : Env) (ids : Stream' PyStr) {reqs : List Request}
    (hservice : ∀ req ∈ reqs, ∀ e c, req.call ≠ .registry (.registerCase e c)) :
    ((∀ n,
        let w := Machine.run (system env) (World.init CaseRegistry.empty ids) (reqs.take n)
        CasesLogged w
          ∧ (Function.Injective env.sha256 → ∀ d ∈ registrations w, ∃ c e,
            d.caseId = some c ∧ w.registry.engagementForCase c = some e
              ∧ digest env (subject e c) = some d.subjectDigest
              ∧ ∀ c' e', isWellFormedCaseId c' = true → digest env (subject e' c') = some d.subjectDigest →
                c' = c ∧ e' = e))
      ∧ ∀ pre req post, reqs = pre ++ req :: post →
          let w := Machine.run (system env) (World.init CaseRegistry.empty ids) pre
          ∀ e c err, req.call = .registerCase e c → (system env w req).1 = .registry (.error err) →
            (system env w req).2.registry = w.registry ∧ (system env w req).2.audit = w.audit)
      ↔ ∀ pre req post, reqs = pre ++ req :: post →
          ¬ LosesEvent (Machine.run (system env) (World.init CaseRegistry.empty ids) pre) req := by
  have hlogged := Machine.run_take_iff (M := system env) (P := CasesLogged)
    (G := fun w req => ¬ LosesEvent w req) (s := World.init CaseRegistry.empty ids)
    (fun w req hmem h => casesLogged_step (hservice req hmem) h) (List.Perm.refl [])
  refine ⟨fun h => hlogged.mp fun n => (h.1 n).1, ?_⟩
  intro hlost
  refine ⟨fun n => ⟨hlogged.mpr hlost n, ?_⟩, ?_⟩
  · intro hinj d hd
    have hsubjects : SubjectsLogged env
        (Machine.run (system env) (World.init CaseRegistry.empty ids) (reqs.take n)) :=
      Machine.run_invariant subjectsLogged_step (fun d hd => absurd hd List.not_mem_nil) _
    obtain ⟨c, e, ⟨hcase, hformat⟩, hc, hdigest⟩ := hsubjects d hd
    refine ⟨c, e, hcase, hc, hdigest, ?_⟩
    intro c' e' hformat' hdigest'
    obtain ⟨he, hcc⟩ := subject_inj hformat' hformat (PyStr.sha256Text_inj hinj hdigest' hdigest)
    exact ⟨hcc, he⟩
  · intro pre req post hcut w e c err hcall herr
    exact raised_step hcall herr (hlost pre req post hcut)

/-- An engagement with a plain id: the second attempt raises, and there is one case and one event. -/
theorem registrations_logged_plain :
    let w n := Machine.run (system Sample.hexEnv) (World.init CaseRegistry.empty Sample.ids)
      ((Sample.registering "E").take n)
    (∀ n, CasesLogged (w n) ∧ ∀ d ∈ registrations (w n), ∃ c e, d.caseId = some c
        ∧ (w n).registry.engagementForCase c = some e ∧ digest Sample.hexEnv (subject e c) = some d.subjectDigest
        ∧ ∀ c' e', isWellFormedCaseId c' = true →
            digest Sample.hexEnv (subject e' c') = some d.subjectDigest → c' = c ∧ e' = e)
      ∧ (w 4).registry.engagementForCase "CASE-1" = some (PyStr.ofString "E")
      ∧ (registrations (w 4)).length = 1 := by
  intro w
  have hkept := (registrations_logged_iff Sample.hexEnv Sample.ids (Sample.registering_service "E")).mpr ?_
  · refine ⟨fun n => ⟨(hkept.1 n).1, (hkept.1 n).2 Sample.hexdigest_injective⟩, rfl, rfl⟩
  · intro pre req post hcut hlost
    obtain ⟨e, c, hcall, _, he⟩ := hlost
    have hmem : req ∈ Sample.registering "E" := by
      rw [hcut]
      simp
    simp only [Sample.registering, List.mem_cons, List.not_mem_nil, or_false] at hmem
    rcases hmem with rfl | rfl | rfl | rfl <;> cases hcall <;> exact he (PyStr.encodable_ofString "E")

/-- An engagement id with a lone surrogate: the case is registered, the call raises, and there is no event. -/
theorem registration_unlogged :
    let w n := Machine.run (system Sample.hexEnv) (World.init CaseRegistry.empty Sample.ids)
      ((Sample.registering [.surrogate 0]).take n)
    let call := system Sample.hexEnv (w 2) ⟨.registerCase [.surrogate 0] "CASE-1", Stream'.const 0⟩
    call.1 = .registry (.error .unicodeEncodeError)
      ∧ (w 2).registry.engagementForCase "CASE-1" = none
      ∧ call.2.registry.engagementForCase "CASE-1" = some [PyChar.surrogate 0]
      ∧ call.2.audit = [] ∧ ¬ CasesLogged call.2 := by
  intro w call
  refine ⟨rfl, rfl, rfl, rfl, ?_⟩
  intro hlogged
  have hlength : 0 = 1 := hlogged.length_eq
  omega

end Intake.Proof
