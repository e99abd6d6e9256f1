import Intake.Proof.Tables
import Intake.Proof.Transcript
import Intake.Proof.Composition

/-!
# Revocation

A principal is not removed from the registry, it is entered with the instant from
which it is revoked. The gate compares that instant with the clock at every attach
request, and nothing but another entry of the principal moves it.

So once the clock has passed it, the principal gets nothing new: no event that
authorises it, no case among the candidates of its messages. What was authorised
before stays in the log, and is repeated to whoever asks with the same message id.
-/

namespace Intake.Proof

open IntakeService ClassificationService EventLog

/-- The principal is entered as revoked from `u` on. -/
def Revoked (r : CaseRegistry) (p : PrincipalId) (u : Instant) : Prop :=
  ∃ k, r.principals.lookup p = some ⟨k, some u⟩

/-! ## The gate -/

/-- **The gate turns a revoked principal away**, and says so, unless there is no such case at all. -/
theorem Revoked.authorise_eq {r : CaseRegistry} {p : PrincipalId} {u t : Instant} (h : Revoked r p u) (ht : u ≤ t)
    (c : CaseId) : authorise r p c t = deny .caseNotFound ∨ authorise r p c t = deny .authorisationRevoked := by
  obtain ⟨k, hk⟩ := h
  have hactive : (r.authorisationSnapshot p c t).principalActive = false := by
    simp only [CaseRegistry.authorisationSnapshot, hk]
    exact decide_eq_false (Int.not_lt.mpr ht)
  have hclient : (r.authorisationSnapshot p c t).principalClient.isNone = false := by
    simp only [CaseRegistry.authorisationSnapshot, hk]
    rfl
  unfold authorise evaluateAuthorisation
  by_cases hcase : (!(r.authorisationSnapshot p c t).casePresent
      || (r.authorisationSnapshot p c t).caseId.isNone) = true
  · exact Or.inl (if_pos hcase)
  · rw [if_neg hcase, hclient, hactive]
    exact Or.inr rfl

theorem Revoked.kind {r : CaseRegistry} {p : PrincipalId} {u t : Instant} (h : Revoked r p u) (ht : u ≤ t)
    (c : CaseId) : (authorise r p c t).kind = .triage := by
  rcases h.authorise_eq ht c with heq | heq <;> rw [heq] <;> rfl

/-- Only another entry of the principal lifts it. -/
theorem revoked_step {r : CaseRegistry} {p : PrincipalId} {u : Instant} (h : Revoked r p u) {op : CaseRegistry.Op}
    (hop : ∀ k t, op ≠ .addPrincipal p k t) : Revoked (registrar r op).2 p u := by
  have hmutates := mutates r op
  generalize registrar r op = x at hmutates ⊢
  obtain ⟨result, r'⟩ := x
  cases hmutates with
  | nothing | client | engagement | case => exact h
  | @principal p' k' t hk =>
      obtain ⟨k, hk⟩ := h
      have hne : p ≠ p' := fun hpp => hop k' t (hpp ▸ rfl)
      exact ⟨k, (AList.lookup_insert_ne hne).trans hk⟩

/-! ## One call -/

/-- An event of the principal that authorises nothing, and blames nothing but the revocation or the case. -/
def Withheld (p : PrincipalId) (d : AuditDraft) : Prop :=
  d.principalId = some p → (d.outcome ≠ .authorised ∧ d.outcome ≠ .followupAuthorised)
    ∧ ∀ detail ∈ d.detail, detail = .caseNotFound ∨ detail = .authorisationRevoked

theorem Revoked.detail {r : CaseRegistry} {p : PrincipalId} {u t : Instant} (h : Revoked r p u) (ht : u ≤ t)
    {c : CaseId} : ∀ detail ∈ (authorise r p c t).detail, detail = .caseNotFound ∨ detail = .authorisationRevoked := by
  intro detail hdetail
  rcases h.authorise_eq ht c with heq | heq <;> rw [heq] at hdetail
  · exact Or.inl (Option.some.inj hdetail).symm
  · exact Or.inr (Option.some.inj hdetail).symm

/-- What `_decide` says of a revoked principal. -/
theorem Revoked.decide {w : World} {m : IntakeMessage} {u : Instant} (h : Revoked w.registry m.principalId u)
    (ht : u ≤ w.clock.head) : ∀ detail ∈ (IntakeService.decide w m).1.detail,
      detail = .caseNotFound ∨ detail = .authorisationRevoked := by
  unfold IntakeService.decide
  split
  · exact fun detail hdetail => absurd hdetail (Option.not_mem_none detail)
  · exact h.detail ht
  · exact fun detail hdetail => absurd hdetail (Option.not_mem_none detail)

/-- A revoked principal is routed to no case, and the check says why. -/
theorem Routed.withheld {r : CaseRegistry} {t u : Instant} {m : IntakeMessage} {d : HumanDecision} {cid : PyStr}
    {o : ClassificationOutcome} {c : Option CaseId} {f : Effect} (h : Routed r t m d cid o c f)
    (hr : Revoked r m.principalId u) (ht : u ≤ t) :
    o ≠ .followupAuthorised ∧ ∀ x ∈ f.drafts, x.outcome = .triage
      ∧ ∀ detail ∈ x.detail, detail = .caseNotFound ∨ detail = .authorisationRevoked := by
  cases h with
  | authorised _ _ _ hg =>
      rw [hr.kind ht] at hg
      cases hg
  | @denied c' detail _ _ _ _ hg =>
      refine ⟨nofun, fun x hx => ?_⟩
      rw [List.mem_singleton.mp hx]
      have hdetail := hr.detail ht (c := c')
      rw [hg] at hdetail
      exact ⟨rfl, hdetail⟩
  | flagged | response | awaiting | ready | noCase =>
      exact ⟨nofun, fun x hx => absurd hx List.not_mem_nil⟩

/-- **A call withholds everything from a revoked principal.** -/
theorem Served.withheld {env : Env} {w : World} {call : MessageCall} {reply : Reply} {f : Effect}
    (h : Served env w call reply f) {p : PrincipalId} {u : Instant} (hr : Revoked w.registry p u)
    (hclock : ∀ n, u ≤ w.clock.get n) : ∀ d ∈ f.drafts, Withheld p d := by
  intro draft hd hp
  cases h with
  | intakeReplayed | proposeReplayed | proposeAfterIntake | confirmReplayed | confirmConflict =>
      exact absurd hd List.not_mem_nil
  | intakeAuthorised _ _ hg =>
      rw [List.mem_singleton.mp hd] at hp
      rw [Option.some.inj hp, hr.kind (hclock 0)] at hg
      cases hg
  | @intakeTriaged m reason detail _ _ _ hdecide =>
      rw [List.mem_singleton.mp hd] at hp ⊢
      refine ⟨⟨nofun, nofun⟩, ?_⟩
      have hdetail := Revoked.decide (w := w) (m := m) (Option.some.inj hp ▸ hr) (hclock 0)
      rw [hdecide] at hdetail
      exact hdetail
  | @proposeDenied m _ c detail _ _ _ _ _ hg =>
      rw [List.mem_singleton.mp hd] at hp ⊢
      refine ⟨⟨nofun, nofun⟩, ?_⟩
      have hdetail := hr.detail (hclock 0) (c := c)
      rw [← Option.some.inj hp, show authorise w.registry m.principalId c (w.clock.get 0) = deny detail from hg]
        at hdetail
      exact hdetail
  | proposeAsked _ _ _ ask =>
      cases ask with
      | _ =>
          rw [List.mem_singleton.mp hd]
          exact ⟨⟨nofun, nofun⟩, nofun⟩
  | @confirmed m d cid o c g _ _ hroute =>
      obtain ⟨n, hn⟩ := gateInstant_read w m d
      have ht : u ≤ gateInstant w m d := hn ▸ hclock n
      rcases List.mem_append.mp hd with hd | hd
      · rcases List.mem_append.mp hd with hd | hd
        · rw [mem_corrections hd]
          exact ⟨⟨nofun, nofun⟩, nofun⟩
        · obtain ⟨auth, hauth⟩ := hroute.drafts_eq draft hd
          rw [hauth] at hp
          obtain ⟨hout, hdetail⟩ := (hroute.withheld (Option.some.inj hp ▸ hr) ht).2 draft hd
          exact ⟨⟨by rw [hout]; nofun, by rw [hout]; nofun⟩, hdetail⟩
      · rw [List.mem_singleton.mp hd] at hp ⊢
        have hattached := (hroute.withheld (Option.some.inj hp ▸ hr) ht).1
        refine ⟨⟨?_, ?_⟩, nofun⟩
        · cases o <;> nofun
        · intro hout
          cases o <;> cases hout
          exact hattached rfl

/-! ## Whole runs -/

/-- One assignment of a run after the revocation. -/
structure After (p : PrincipalId) (u : Instant) (a : Assignment) : Prop where
  /-- The clock has passed it. -/
  clock : ∀ n, u ≤ a.clock.get n
  /-- The principal is not entered again. -/
  kept : ∀ k t, registryOp a ≠ some (.addPrincipal p k t)

/-- What an assignment adds to log and classifier once the principal is revoked. -/
structure Added (p : PrincipalId) (o o' : Office) : Prop where
  audit : ∃ new, o'.world.audit = o.world.audit ++ new ∧ ∀ e ∈ new, Withheld p e.toAuditDraft
  classified : ∃ shown, o'.world.classified = o.world.classified ++ shown
    ∧ ∀ x ∈ shown, x.principalId = p → x.candidateCaseIds = []

theorem Added.refl (p : PrincipalId) (o : Office) : Added p o o :=
  ⟨⟨[], (List.append_nil _).symm, fun _ he => absurd he List.not_mem_nil⟩,
    ⟨[], (List.append_nil _).symm, fun _ hx => absurd hx List.not_mem_nil⟩⟩

theorem Added.trans {p : PrincipalId} {o o' o'' : Office} (h : Added p o o') (h' : Added p o' o'') :
    Added p o o'' := by
  obtain ⟨new, hnew, hwithheld⟩ := h.audit
  obtain ⟨new', hnew', hwithheld'⟩ := h'.audit
  obtain ⟨shown, hshown, hnone⟩ := h.classified
  obtain ⟨shown', hshown', hnone'⟩ := h'.classified
  refine ⟨⟨new ++ new', by rw [hnew', hnew, List.append_assoc], ?_⟩,
    ⟨shown ++ shown', by rw [hshown', hshown, List.append_assoc], ?_⟩⟩
  · exact fun e he => (List.mem_append.mp he).elim (hwithheld e) (hwithheld' e)
  · exact fun x hx => (List.mem_append.mp hx).elim (hnone x) (hnone' x)

/-- A registration is nobody's. -/
theorem registerCase_anonymous (env : Env) (w : World) (e : EngagementId) (c : CaseId) :
    ∃ es, (registerCase env w e c).2.audit = w.audit ++ es ∧ ∀ x ∈ es, x.principalId = none := by
  have hspec := registerCase_spec env w e c
  generalize registerCase env w e c = x at hspec ⊢
  cases hspec with
  | refused | lost => exact ⟨[], (List.append_nil _).symm, fun _ hx => absurd hx List.not_mem_nil⟩
  | recorded =>
      refine ⟨_, rfl, fun x hx => ?_⟩
      rw [List.mem_singleton.mp hx]
      rfl

/-- A request of a desk that knows the revocation. -/
theorem system_withheld (env : Env) {w : World} (req : Request) {p : PrincipalId} {u : Instant}
    (hr : Revoked w.registry p u) (hclock : ∀ n, u ≤ req.clock.get n) :
    (∃ new, (system env w req).2.audit = w.audit ++ new ∧ ∀ e ∈ new, Withheld p e.toAuditDraft)
      ∧ ∃ shown, (system env w req).2.classified = w.classified ++ shown
        ∧ ∀ x ∈ shown, x.principalId = p → x.candidateCaseIds = [] := by
  refine ⟨?_, ?_⟩
  · obtain ⟨call, clock⟩ := req
    cases call with
    | message call =>
        obtain ⟨f, hs, happ⟩ := system_served env w call clock
        obtain ⟨es, hes, hdrafts⟩ := happ.appended
        refine ⟨es, hes, fun e he => hs.withheld hr hclock e.toAuditDraft ?_⟩
        rw [← hdrafts]
        exact List.mem_map_of_mem he
    | registerCase e c =>
        obtain ⟨es, hes, hnobody⟩ := registerCase_anonymous env (w.during clock) e c
        refine ⟨es, hes, fun x hx hp => ?_⟩
        rw [hnobody x hx] at hp
        cases hp
    | registry op =>
        obtain ⟨r, happ⟩ := registry_applied (w.during clock) op env
        obtain ⟨es, hes, hdrafts⟩ := happ.appended
        obtain rfl := List.map_eq_nil_iff.mp hdrafts
        exact ⟨[], hes, fun _ he => absurd he List.not_mem_nil⟩
  · obtain ⟨hclassified, hshown⟩ := system_shows env w req
    refine ⟨_, hclassified, fun x hx hp => ?_⟩
    obtain ⟨m, text, _, _, rfl⟩ := hshown x hx
    obtain ⟨n, hn⟩ := candidateInstant_read (w.during req.clock) m
    have ht : u ≤ candidateInstant (w.during req.clock) m := hn ▸ hclock n
    refine List.filter_eq_nil_iff.mpr fun c _ => ?_
    rw [decide_eq_true_iff, show m.principalId = p from hp, hr.kind ht]
    nofun

theorem office_withheld (env : OfficeEnv) {o : Office} {a : Assignment} {p : PrincipalId} {u : Instant}
    (hr : Revoked o.world.registry p u) (ha : After p u a) :
    Added p o (office env o a).2 ∧ Revoked (office env o a).2.world.registry p u := by
  refine ⟨?_, ?_⟩
  · obtain ⟨job, clock⟩ := a
    cases job with
    | screen manifest adapters =>
        obtain ⟨_, _, hworld⟩ := office_screen_world env o manifest adapters clock
        have hsame := Added.refl p o
        refine ⟨?_, ?_⟩
        · rw [hworld]
          exact hsame.audit
        · rw [hworld]
          exact hsame.classified
    | desk call =>
        obtain ⟨haudit, hclassified⟩ := system_withheld env.desk ⟨call, clock⟩ hr ha.clock
        exact ⟨haudit, hclassified⟩
  · rw [office_registry_step]
    cases hop : registryOp a with
    | none => exact hr
    | some op => exact revoked_step hr fun k t hadd => ha.kept k t (hop.trans (congrArg some hadd))

/--
**Revocation is final.**

Take any state of any run of all three services in which a principal is entered as
revoked from some instant on, and any further run whose clock has passed that
instant and that does not enter the principal again. No event is added that
authorises the principal or attaches a message of its to a case, denials blame the
revocation or a case that does not exist, and no projection of its messages carries
a candidate. The principal stays revoked.
-/
theorem revocation_final (env : OfficeEnv) (registry : CaseRegistry) (ids : Stream' PyStr)
    (pre post : List Assignment) (p : PrincipalId) (u : Instant) :
    let o := Machine.run (office env) (Office.init registry ids) pre
    let o' := Machine.run (office env) o post
    Revoked o.world.registry p u → (∀ a ∈ post, After p u a) →
    (∃ new, o'.world.audit = o.world.audit ++ new ∧ ∀ e ∈ new, Withheld p e.toAuditDraft)
      ∧ (∃ shown, o'.world.classified = o.world.classified ++ shown
        ∧ ∀ x ∈ shown, x.principalId = p → x.candidateCaseIds = [])
      ∧ Revoked o'.world.registry p u := by
  intro o o' hr hafter
  have hrun : Added p o o' ∧ Revoked o'.world.registry p u := by
    refine Machine.run_guarded (P := fun o' : Office => Added p o o' ∧ Revoked o'.world.registry p u)
      (G := fun _ a => After p u a) (fun o₁ a h ha => ?_) ⟨Added.refl p o, hr⟩ fun mid a rest hcut => ?_
    · obtain ⟨hadded, hrevoked⟩ := office_withheld env h.2 ha
      exact ⟨h.1.trans hadded, hrevoked⟩
    · exact hafter a (hcut ▸ List.mem_append_right _ List.mem_cons_self)
  exact ⟨hrun.1.audit, hrun.1.classified, hrun.2⟩

/-- A principal that is revoked while its message is on the way is not attached to its own case. -/
theorem revocation_final_sample :
    let o := Machine.run (office Sample.officeEnv) (Office.init Sample.registry Sample.ids)
      [⟨.desk (.registry (.addPrincipal "P" "C" (some 0))), Stream'.const 0⟩]
    let o' := Machine.run (office Sample.officeEnv) o
      [⟨.desk (.message (.handleIntake (Sample.message "P" ["CASE-1"]))), Stream'.const 0⟩]
    ∃ new, o'.world.audit = o.world.audit ++ new ∧ ∀ e ∈ new, Withheld "P" e.toAuditDraft := by
  intro o o'
  refine (revocation_final Sample.officeEnv Sample.registry Sample.ids
    [⟨.desk (.registry (.addPrincipal "P" "C" (some 0))), Stream'.const 0⟩]
    [⟨.desk (.message (.handleIntake (Sample.message "P" ["CASE-1"]))), Stream'.const 0⟩] "P" 0
    ⟨"C", by decide⟩ ?_).1
  intro a ha
  rw [List.mem_singleton.mp ha]
  exact ⟨fun n => le_refl 0, nofun⟩

end Intake.Proof
