import Intake.Proof.Ownership

/-!
# Referential integrity of the registry

Four dictionaries refer to one another by id, and nothing is ever removed. Each
mutator checks the ids it refers to before it writes, so every reference leads
somewhere, also after overwriting an entry and after a call that raised in between.

The gate rests on this. Its branch for a case whose engagement has no client is
never taken, the format check of its read model hides no registered case, and the
detail of a denial names a link that is broken.
-/

namespace Intake.Proof

/-! ## The mutators, statement by statement -/

/-- Code that mutates the registry and may raise. An exception does not undo what was written before it. -/
abbrev Mutator := ExceptT PyError (StateM CaseRegistry) Unit

namespace Mutator

/-- `if condition: raise err` -/
def raiseIf (condition : CaseRegistry → Bool) (err : PyError) : Mutator := do
  if condition (← get) then
    throw err

def addClient (clientId : ClientId) : Mutator :=
  modify fun r => { r with clients := insert clientId r.clients }

def addEngagement (engagementId : EngagementId) (clientId : ClientId) : Mutator := do
  raiseIf (fun r => clientId ∉ r.clients) (.keyError clientId)
  modify fun r => { r with engagements := r.engagements.insert engagementId clientId }

def addPrincipal (principalId : PrincipalId) (clientId : ClientId) (revokedAt : Option Instant) : Mutator := do
  raiseIf (fun r => clientId ∉ r.clients) (.keyError clientId)
  modify fun r => { r with principals := r.principals.insert principalId ⟨clientId, revokedAt⟩ }

def registerCase (engagementId : EngagementId) (caseId : CaseId) : Mutator := do
  raiseIf (fun r => engagementId ∉ r.engagements) (.keyError engagementId)
  raiseIf (fun _ => ¬ isWellFormedCaseId caseId) (.valueError "malformed case id" caseId)
  raiseIf (fun r => caseId ∈ r.cases) (.valueError "case already registered" caseId)
  modify fun r => { r with cases := r.cases.insert caseId engagementId }

/-- The code of an operation. -/
def ofOp : CaseRegistry.Op → Mutator
  | .addClient k => addClient k
  | .addEngagement e k => addEngagement e k
  | .addPrincipal p k t => addPrincipal p k t
  | .registerCase e c => registerCase e c

theorem run_raiseIf (condition : CaseRegistry → Bool) (err : PyError) (rest : Mutator) (r : CaseRegistry) :
    (raiseIf condition err >>= fun _ => rest).run.run r
      = if condition r then (.error err, r) else rest.run.run r := by
  have hraise : (raiseIf condition err).run.run r = if condition r then (.error err, r) else (.ok (), r) := by
    show (if condition r then throw err else pure () : Mutator).run.run r = _
    split_ifs <;> rfl
  rw [ExceptT.run_bind, StateT.run_bind, hraise]
  split_ifs <;> rfl

theorem run_modify (f : CaseRegistry → CaseRegistry) (r : CaseRegistry) :
    (modify f : Mutator).run.run r = (.ok (), f r) := rfl

end Mutator

/-- The registry, one call at a time, as the mutators leave it. -/
def mutators : Machine CaseRegistry CaseRegistry.Op (Except PyError Unit) := fun r op =>
  (Mutator.ofOp op).run.run r

/-- **Nothing is written before a mutator raises.** -/
theorem mutators_eq : mutators = registrar := by
  funext r op
  unfold mutators registrar Mutator.ofOp CaseRegistry.apply
  cases op with
  | addClient k => rfl
  | addEngagement e k =>
      dsimp only
      rw [Mutator.addEngagement, Mutator.run_raiseIf, Mutator.run_modify, CaseRegistry.addEngagement]
      by_cases hk : k ∈ r.clients <;> simp [hk]
  | addPrincipal p k t =>
      dsimp only
      rw [Mutator.addPrincipal, Mutator.run_raiseIf, Mutator.run_modify, CaseRegistry.addPrincipal]
      by_cases hk : k ∈ r.clients <;> simp [hk]
  | registerCase e c =>
      dsimp only
      rw [Mutator.registerCase, Mutator.run_raiseIf, Mutator.run_raiseIf, Mutator.run_raiseIf,
        Mutator.run_modify, CaseRegistry.registerCase]
      by_cases he : e ∈ r.engagements
      case neg => simp [he]
      by_cases hc : isWellFormedCaseId c = true
      case neg => simp [he, hc]
      by_cases hnew : c ∈ r.cases <;> simp [he, hc, hnew]

/-! ## The invariant -/

/-- **Every reference leads somewhere**, and every case id has the right format. -/
structure Integrity (r : CaseRegistry) : Prop where
  caseEngagement : ∀ c e, r.engagementForCase c = some e → e ∈ r.engagements
  engagementClient : ∀ e k, r.engagements.lookup e = some k → k ∈ r.clients
  principalClient : ∀ p m, r.principals.lookup p = some m → m.clientId ∈ r.clients
  caseFormat : ∀ c ∈ r.cases, isWellFormedCaseId c = true

theorem integrity_empty : Integrity CaseRegistry.empty where
  caseEngagement _ _ h := absurd h (by simp [CaseRegistry.engagementForCase, CaseRegistry.empty])
  engagementClient _ _ h := absurd h (by simp [CaseRegistry.empty])
  principalClient _ _ h := absurd h (by simp [CaseRegistry.empty])
  caseFormat c h := absurd h (AList.notMem_empty c)

/-- An entry of a dictionary after an assignment is the assigned one or an older one. -/
theorem lookup_insert_cases {κ α : Type} [DecidableEq κ] {d : Dict κ α} {k x : κ} {v y : α}
    (h : (d.insert k v).lookup x = some y) : (x = k ∧ y = v) ∨ d.lookup x = some y := by
  by_cases hx : x = k
  · subst hx
    rw [AList.lookup_insert] at h
    exact Or.inl ⟨rfl, (Option.some.inj h).symm⟩
  · rw [AList.lookup_insert_ne hx] at h
    exact Or.inr h

theorem integrity_step (r : CaseRegistry) (op : CaseRegistry.Op) (h : Integrity r) :
    Integrity (registrar r op).2 := by
  have hmutates := mutates r op
  generalize registrar r op = x at hmutates ⊢
  obtain ⟨result, r'⟩ := x
  cases hmutates with
  | nothing => exact h
  | client k =>
      exact ⟨h.caseEngagement, fun e k' hk => Finset.mem_insert_of_mem (h.engagementClient e k' hk),
        fun p m hm => Finset.mem_insert_of_mem (h.principalClient p m hm), h.caseFormat⟩
  | @engagement e k hk =>
      refine ⟨?_, ?_, h.principalClient, h.caseFormat⟩
      · intro c e' hc
        exact (AList.mem_insert _).mpr (Or.inr (h.caseEngagement c e' hc))
      · intro e' k' hk'
        rcases lookup_insert_cases hk' with ⟨_, rfl⟩ | hold
        · exact hk
        · exact h.engagementClient e' k' hold
  | @principal p k t hk =>
      refine ⟨h.caseEngagement, h.engagementClient, ?_, h.caseFormat⟩
      intro p' m hm
      rcases lookup_insert_cases hm with ⟨_, rfl⟩ | hold
      · exact hk
      · exact h.principalClient p' m hold
  | @case e c hadmits =>
      refine ⟨?_, h.engagementClient, h.principalClient, ?_⟩
      · intro c' e' hc'
        rcases lookup_insert_cases hc' with ⟨_, rfl⟩ | hold
        · exact hadmits.engagement
        · exact h.caseEngagement c' e' hold
      · intro c' hc'
        rcases (AList.mem_insert _).mp hc' with rfl | hold
        · exact hadmits.format
        · exact h.caseFormat c' hold

theorem integrity_reachable (ops : List CaseRegistry.Op) :
    Integrity (Machine.run mutators CaseRegistry.empty ops) := by
  rw [mutators_eq]
  exact Machine.run_invariant integrity_step integrity_empty ops

/-! ## The read model and the gate -/

/-- What the detail of a denial says about the chain. -/
def BrokenLink (r : CaseRegistry) (p : PrincipalId) (c : CaseId) (t : Instant) : DenialDetail → Prop
  | .caseNotFound => r.engagementForCase c = none
  | .principalUnknown => r.principals.lookup p = none
  | .authorisationRevoked => ∃ k u, r.principals.lookup p = some ⟨k, some u⟩ ∧ u ≤ t
  | .clientMismatch => ∃ e k k' u, r.engagementForCase c = some e ∧ r.engagements.lookup e = some k
      ∧ r.principals.lookup p = some ⟨k', u⟩ ∧ k ≠ k'

variable {r : CaseRegistry}

/-- The read model is three lookups: its format check hides no case. -/
theorem Integrity.snapshot_eq (h : Integrity r) (p : PrincipalId) (c : CaseId) (t : Instant) :
    r.authorisationSnapshot p c t =
      { caseId := (r.engagementForCase c).map fun _ => c
        principalClient := (r.principals.lookup p).map Principal.clientId
        casePresent := (r.engagementForCase c).isSome
        caseEngagement := r.engagementForCase c
        engagementClient := (r.engagementForCase c).bind fun e => r.engagements.lookup e
        principalActive := (r.principals.lookup p).any fun m => m.revokedAt.all fun u => t < u } := by
  have hformat : (if isWellFormedCaseId c then r.cases.lookup c else none) = r.engagementForCase c := by
    by_cases hc : isWellFormedCaseId c = true
    · exact if_pos hc
    · rw [if_neg hc]
      exact (AList.lookup_eq_none.mpr fun hmem => hc (h.caseFormat c hmem)).symm
  unfold CaseRegistry.authorisationSnapshot
  rw [hformat]
  cases r.engagementForCase c <;> cases r.principals.lookup p with
  | none => rfl
  | some m =>
      obtain ⟨k, revokedAt⟩ := m
      cases revokedAt <;> rfl

/-- The engagement of a registered case has a client. -/
theorem Integrity.client_of_case (h : Integrity r) {c : CaseId} {e : EngagementId}
    (hc : r.engagementForCase c = some e) : ∃ k ∈ r.clients, r.engagements.lookup e = some k := by
  obtain ⟨k, hk⟩ := Option.isSome_iff_exists.mp (AList.lookup_isSome.mpr (h.caseEngagement c e hc))
  exact ⟨k, h.engagementClient e k hk, hk⟩

/-- **The reported cause is a cause**, whatever else is broken. -/
theorem Integrity.brokenLink (h : Integrity r) {p : PrincipalId} {c : CaseId} {t : Instant} {detail : DenialDetail}
    (hd : (authorise r p c t).detail = some detail) : BrokenLink r p c t detail := by
  rw [authorise, h.snapshot_eq p c t] at hd
  cases hc : r.engagementForCase c with
  | none =>
      rw [hc] at hd
      cases hd
      exact hc
  | some e =>
      obtain ⟨k, _, hk⟩ := h.client_of_case hc
      cases hp : r.principals.lookup p with
      | none =>
          rw [hc, hp] at hd
          cases hd
          exact hp
      | some m =>
          obtain ⟨k', revokedAt⟩ := m
          rw [hc, hp] at hd
          simp only [Option.bind_some, hk] at hd
          -- the chain is complete: what is left is the instant, then the comparison of the clients
          by_cases hactive : revokedAt.all fun u => t < u
          · by_cases hkk : k' = k
            · simp [evaluateAuthorisation, hactive, hkk] at hd
            · simp [evaluateAuthorisation, deny, hactive, hkk] at hd
              rw [← hd]
              exact ⟨e, k, k', revokedAt, hc, hk, hp, Ne.symm hkk⟩
          · cases revokedAt with
            | none => exact absurd rfl hactive
            | some u =>
                simp [evaluateAuthorisation, deny, hactive] at hd
                rw [← hd]
                refine ⟨k', u, hp, ?_⟩
                simpa using hactive

/-- A reachable registry has no case id the gate would not recognise, so the gate is the chain. -/
theorem Integrity.authorised_iff (h : Integrity r) {p : PrincipalId} {c : CaseId} {t : Instant} :
    (authorise r p c t).kind = .authorised ↔ ChainIntact r p c t := by
  rw [authorise_kind]
  refine and_iff_right_of_imp ?_
  intro hchain
  obtain ⟨e, _, _, hc, _⟩ := hchain
  exact h.caseFormat c (AList.lookup_isSome.mp (Option.isSome_iff_exists.mpr ⟨e, hc⟩))

/-! ## Runs -/

/--
**The registry keeps its references.**

Take any calls of the four mutators on an empty registry, with those that raise.
Every case then has a registered engagement, every engagement and every principal
a registered client, and every case id the right format; a call that raises leaves
the registry as it was. So a snapshot with a case has the client of its engagement,
and a denial for a client mismatch is about two registered clients.
-/
theorem registry_integrity (ops : List CaseRegistry.Op) :
    let r := Machine.run mutators CaseRegistry.empty ops
    Integrity r
      ∧ (∀ op err, (mutators r op).1 = .error err → (mutators r op).2 = r)
      ∧ ∀ p c t,
          ((r.authorisationSnapshot p c t).casePresent = true →
            ∃ k, (r.authorisationSnapshot p c t).engagementClient = some k)
          ∧ ((authorise r p c t).detail = some .clientMismatch →
            ∃ e k k' u, r.engagementForCase c = some e ∧ r.engagements.lookup e = some k
              ∧ r.principals.lookup p = some ⟨k', u⟩ ∧ k ∈ r.clients ∧ k' ∈ r.clients ∧ k ≠ k') := by
  intro r
  have h : Integrity r := integrity_reachable ops
  refine ⟨h, ?_, ?_⟩
  · intro op err herr
    rw [mutators_eq] at herr ⊢
    have hmutates := mutates r op
    rw [herr] at hmutates
    generalize (registrar r op).2 = r' at hmutates ⊢
    cases hmutates
    rfl
  · intro p c t
    refine ⟨?_, ?_⟩
    · intro hpresent
      rw [h.snapshot_eq] at hpresent ⊢
      obtain ⟨e, he⟩ := Option.isSome_iff_exists.mp hpresent
      obtain ⟨k, _, hk⟩ := h.client_of_case he
      exact ⟨k, by simp [he, hk]⟩
    · intro hd
      obtain ⟨e, k, k', u, hc, he, hp, hne⟩ := h.brokenLink hd
      exact ⟨e, k, k', u, hc, he, hp, h.engagementClient e k he, h.principalClient p _ hp, hne⟩

/--
**The gate authorises exactly the intact chains.**

In every reachable registry, for every principal, case id and instant: the gate
authorises if and only if the case is registered under an engagement whose client
the principal belongs to, and the principal is not revoked at that instant. An
authorisation returns the case id and nothing else. A denial returns the client-safe
reason, no case id, and for the audit the name of a link that is broken.
-/
theorem authorised_iff_intact (ops : List CaseRegistry.Op) (p : PrincipalId) (c : CaseId) (t : Instant) :
    let r := Machine.run mutators CaseRegistry.empty ops
    ((authorise r p c t).kind = .authorised ↔ ChainIntact r p c t)
      ∧ ((authorise r p c t).kind = .authorised →
          authorise r p c t = { kind := .authorised, caseId := some c, reason := none, detail := none })
      ∧ ((authorise r p c t).kind ≠ .authorised → ∃ detail,
          authorise r p c t =
              { kind := .triage, caseId := none, reason := some .notAuthorised, detail := some detail }
            ∧ BrokenLink r p c t detail) := by
  intro r
  have h : Integrity r := integrity_reachable ops
  refine ⟨h.authorised_iff, authorise_of_authorised, ?_⟩
  intro hdenied
  have htriage : (authorise r p c t).kind = .triage := by
    cases hkind : (authorise r p c t).kind with
    | authorised => exact absurd hkind hdenied
    | triage => rfl
  obtain ⟨detail, hdeny⟩ := authorise_of_triage htriage
  refine ⟨detail, hdeny, h.brokenLink ?_⟩
  rw [hdeny]
  rfl

end Intake.Proof
