import Intake.Proof.Observer

/-!
# Client isolation

What a client can learn from the answers to its own messages does not depend on
what the registry holds about other clients. The registries of two runs may differ
in everything that is not the client's, at every step anew; the gate may then deny
for different causes, and the only place where the difference surfaces is the
audit-only detail.

The two-run argument is `serve_twin` for an observer who sees everything but that
detail. What remains is that such an observer cannot tell agreeing registries
apart by the gate: `gateAlike_of_agree`.
-/

namespace Intake.Proof

open IntakeService ClassificationService

/-! ## Registries that agree on a client -/

/-- The client a case belongs to. -/
def owner (r : CaseRegistry) (c : CaseId) : Option ClientId := (r.cases.lookup c).bind r.engagements.lookup

/-- `k`-agreement: the same principals of `k`, revoked at the same time, and the same cases of `k`. -/
structure AgreeOn (k : ClientId) (r₁ r₂ : CaseRegistry) : Prop where
  principals : ∀ p t, r₁.principals.lookup p = some ⟨k, t⟩ ↔ r₂.principals.lookup p = some ⟨k, t⟩
  cases : ∀ c, owner r₁ c = some k ↔ owner r₂ c = some k

/-- For a principal of `k`, the chain is the case's owner and the principal's revocation. -/
theorem chainIntact_iff_owner {r : CaseRegistry} {p : PrincipalId} {k : ClientId} {revokedAt : Option Instant}
    (hp : r.principals.lookup p = some ⟨k, revokedAt⟩) (c : CaseId) (t : Instant) :
    ChainIntact r p c t ↔ owner r c = some k ∧ ∀ u ∈ revokedAt, t < u := by
  refine ⟨?_, ?_⟩
  · intro hchain
    obtain ⟨e, k', revoked', hc, he, hp', hactive⟩ := hchain
    obtain ⟨rfl, rfl⟩ := Principal.mk.inj (Option.some.inj (hp'.symm.trans hp))
    exact ⟨by rw [owner, hc]; exact he, hactive⟩
  · intro h
    obtain ⟨howner, hactive⟩ := h
    obtain ⟨e, hc, he⟩ := Option.bind_eq_some_iff.mp howner
    exact ⟨e, k, revokedAt, hc, he, hp, hactive⟩

/-- **Agreeing registries have one gate**, up to the detail of a denial. -/
theorem gateAlike_of_agree {o : Observer} (ho : o.detail = false) {k : ClientId} {r₁ r₂ : CaseRegistry}
    (h : AgreeOn k r₁ r₂) {p : PrincipalId} {revokedAt : Option Instant}
    (hp : r₁.principals.lookup p = some ⟨k, revokedAt⟩) : GateAlike o p r₁ r₂ := by
  intro c t
  have hkind : (authorise r₁ p c t).kind = .authorised ↔ (authorise r₂ p c t).kind = .authorised := by
    rw [authorise_kind, authorise_kind, chainIntact_iff_owner hp,
      chainIntact_iff_owner ((h.principals p revokedAt).mp hp), h.cases c]
  -- one kind on both sides: an authorisation echoes the case, a denial differs in its detail only
  cases h₁ : (authorise r₁ p c t).kind with
  | authorised => rw [authorise_of_authorised h₁, authorise_of_authorised (hkind.mp h₁)]
  | triage =>
      have h₂ : (authorise r₂ p c t).kind = .triage := by
        cases h₂ : (authorise r₂ p c t).kind with
        | triage => rfl
        | authorised => exact (hkind.mpr h₂).symm.trans h₁
      obtain ⟨detail₁, hd₁⟩ := authorise_of_triage h₁
      obtain ⟨detail₂, hd₂⟩ := authorise_of_triage h₂
      simp [hd₁, hd₂, Observer.decision, deny, ho]

/-- Registering a case under another client's engagement is invisible to `k`. -/
theorem agreeOn_registerCase {k : ClientId} {r r' : CaseRegistry} {e : EngagementId} {c : CaseId}
    (h : r.registerCase e c = .ok r') (he : r.engagements.lookup e ≠ some k) : AgreeOn k r r' := by
  unfold CaseRegistry.registerCase at h
  split_ifs at h with _ _ hc
  obtain rfl := Except.ok.inj h
  refine ⟨fun _ _ => Iff.rfl, fun c' => ?_⟩
  by_cases hcc : c' = c
  · -- the new case had no owner before, and has another one now
    subst hcc
    have hnew : owner r c' = none := by
      rw [owner, AList.lookup_eq_none.mpr hc, Option.bind_none]
    rw [hnew]
    simpa [owner] using he
  · simp [owner, AList.lookup_insert_ne hcc]

/-! ## Two runs -/

/-- A message call, with the registry and the clock readings it will find. -/
structure Hosted where
  call : MessageCall
  registry : CaseRegistry
  clock : Stream' Instant

/-- The two services over a registry that is somebody else's business. -/
def hosted (env : Env) : Machine World Hosted Reply :=
  fun w x => serve env { w with registry := x.registry, clock := x.clock } x.call

/-- The same call for a message of a principal of `k`, over registries that agree on `k`. -/
structure SameFor (k : ClientId) (x y : Hosted) : Prop where
  call : x.call = y.call
  clock : x.clock = y.clock
  registry : AgreeOn k x.registry y.registry
  sender : ∃ revokedAt, x.registry.principals.lookup x.call.message.principalId = some ⟨k, revokedAt⟩

/-- An answer without the audit-only detail: kind, case id and reason of a decision are kept. -/
def withoutDetail : Reply → Reply
  | .intake r => .intake (r.map fun d => { d with detail := none })
  | r => r

/-- An event without the audit-only detail. -/
def eventWithoutDetail (e : AuditEvent) : AuditEvent := { e with detail := none }

/-- Sees everything but the audit-only detail. -/
def client : Observer := { detail := false, model := true }

theorem client_reply : client.reply = withoutDetail := by
  funext r
  cases r <;> rfl

theorem client_log (l : List AuditEvent) : client.log l = l.map eventWithoutDetail := by
  rw [Observer.log, ← List.filterMap_eq_map]
  refine List.filterMap_congr fun e _ => ?_
  obtain ⟨⟨_, _, _, _, _, _, _, _, _, _, classification⟩, _, _, _⟩ := e
  cases classification <;> rfl

/-- What the two runs have in common, whatever their registries are. -/
abbrev Indistinct (w₁ w₂ : World) : Prop := Alike client (fun _ _ => True) w₁ w₂

/-- **One hosted call.** -/
theorem hosted_twin (env : Env) {k : ClientId} {w₁ w₂ : World} {x y : Hosted} (h : Indistinct w₁ w₂)
    (hxy : SameFor k x y) :
    withoutDetail (hosted env w₁ x).1 = withoutDetail (hosted env w₂ y).1
      ∧ Indistinct (hosted env w₁ x).2 (hosted env w₂ y).2 := by
  obtain ⟨call, r₁, clock⟩ := x
  obtain ⟨call', r₂, clock'⟩ := y
  obtain ⟨rfl, rfl, hagree, revokedAt, hp⟩ := hxy
  have hstart : Alike client (GateAlike client call.message.principalId)
      { w₁ with registry := r₁, clock } { w₂ with registry := r₂, clock } :=
    { h with
      registry := gateAlike_of_agree rfl hagree hp
      clock := rfl
      fixed := Or.inl rfl }
  have hmodel : ModelAlike client env env := fun _ _ => rfl
  obtain ⟨hreply, hw⟩ := serve_twin hmodel call hstart
  exact ⟨client_reply ▸ hreply, { hw with registry := trivial }⟩

theorem Indistinct.queues {w₁ w₂ : World} (h : Indistinct w₁ w₂) :
    w₁.classified = w₂.classified ∧ w₁.triage = w₂.triage ∧ w₁.clarifications = w₂.clarifications
      ∧ w₁.audit.map eventWithoutDetail = w₂.audit.map eventWithoutDetail := by
  refine ⟨h.classified, KeyedQueue.ext_items ?_, KeyedQueue.ext_items ?_, ?_⟩
  · have hitem : client.item = id := rfl
    simpa [hitem] using h.triage
  · have htask : client.task = id := rfl
    simpa [htask] using h.clarifications
  · rw [← client_log, ← client_log, h.audit]

/--
**Client isolation.**

Two runs make the same calls for messages of principals of `k`, with the same
clock, ids and classifier, over registries that agree on `k` at every step. They
are answered alike, the classifier is shown the same projections, the queues are
equal after every call, and the logs differ in the audit-only detail at most. A
case of another client is one of the differences allowed.
-/
theorem client_isolation (env : Env) (k : ClientId) (ids : Stream' PyStr) (r₁ r₂ : CaseRegistry)
    (xs ys : List Hosted) (hxy : List.Forall₂ (SameFor k) xs ys) :
    List.Forall₂ (fun reply reply' => withoutDetail reply = withoutDetail reply')
        (Machine.outputs (hosted env) (World.init r₁ ids) xs)
        (Machine.outputs (hosted env) (World.init r₂ ids) ys)
      ∧ (∀ n,
        let w₁ := Machine.run (hosted env) (World.init r₁ ids) (xs.take n)
        let w₂ := Machine.run (hosted env) (World.init r₂ ids) (ys.take n)
        w₁.classified = w₂.classified ∧ w₁.triage = w₂.triage ∧ w₁.clarifications = w₂.clarifications
          ∧ w₁.audit.map eventWithoutDetail = w₂.audit.map eventWithoutDetail)
      ∧ ∀ (r r' : CaseRegistry) (e : EngagementId) (c : CaseId), r.registerCase e c = .ok r' →
        r.engagements.lookup e ≠ some k → AgreeOn k r r' := by
  have hinit : Indistinct (World.init r₁ ids) (World.init r₂ ids) :=
    ⟨trivial, rfl, rfl, rfl, rfl, rfl, fun _ => rfl, Or.inl rfl⟩
  have hruns : ∀ {xs ys : List Hosted}, List.Forall₂ (SameFor k) xs ys → _ := fun hxy =>
    Machine.run_related (M := hosted env) (N := hosted env) (R := Indistinct) (I := SameFor k)
      (O := fun reply reply' => withoutDetail reply = withoutDetail reply')
      (fun _ _ _ _ h hxy => hosted_twin env h hxy) hinit hxy
  exact ⟨(hruns hxy).1, fun n => (hruns (List.forall₂_take n hxy)).2.queues,
    fun _ _ _ _ hr he => agreeOn_registerCase hr he⟩

/-- A case that does not exist and a case of another client are refused in the same words. -/
theorem client_isolation_refusal :
    let elsewhere : CaseRegistry :=
      { Sample.registry with cases := Sample.registry.cases.insert "CASE-3" "E2" }
    let call := MessageCall.handleIntake (Sample.message "P" ["CASE-3"])
    List.Forall₂ (fun reply reply' => withoutDetail reply = withoutDetail reply')
      (Machine.outputs (hosted (Sample.env none)) (World.init Sample.registry Sample.ids)
        [⟨call, Sample.registry, Stream'.const 0⟩])
      (Machine.outputs (hosted (Sample.env none)) (World.init Sample.registry Sample.ids)
        [⟨call, elsewhere, Stream'.const 0⟩]) := by
  intro elsewhere call
  have hagree : AgreeOn "C" Sample.registry elsewhere :=
    agreeOn_registerCase (e := "E2") (c := "CASE-3") rfl (by decide)
  have hsame : SameFor "C" ⟨call, Sample.registry, Stream'.const 0⟩ ⟨call, elsewhere, Stream'.const 0⟩ :=
    ⟨rfl, rfl, hagree, none, rfl⟩
  exact (client_isolation (Sample.env none) "C" Sample.ids Sample.registry Sample.registry _ _
    (List.Forall₂.cons hsame List.Forall₂.nil)).1

end Intake.Proof
