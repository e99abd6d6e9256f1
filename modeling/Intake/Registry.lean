import Intake.Model
import Mathlib.Data.List.AList
import Mathlib.Data.Finset.Insert

/-!
# The case registry

`InMemoryCaseRegistry`: a set of clients and three dictionaries, mutated by four
operations that check before they write, and one read model, the authorisation
snapshot. Python dictionaries are `AList`s: nothing reads their order.
-/

namespace Intake

/-- A Python `dict`. -/
abbrev Dict (κ α : Type) := AList (fun _ : κ => α)

/-! ## Case ids -/

/-- The zeros of the blocks of ten decimal digits that `\d` matches in a `str` pattern. -/
def decimalZeros : List Nat :=
  [0x30, 0x660, 0x6f0, 0x7c0, 0x966, 0x9e6, 0xa66, 0xae6, 0xb66, 0xbe6, 0xc66, 0xce6, 0xd66, 0xde6,
    0xe50, 0xed0, 0xf20, 0x1040, 0x1090, 0x17e0, 0x1810, 0x1946, 0x19d0, 0x1a80, 0x1a90, 0x1b50,
    0x1bb0, 0x1c40, 0x1c50, 0xa620, 0xa8d0, 0xa900, 0xa9d0, 0xa9f0, 0xaa50, 0xabf0, 0xff10, 0x104a0,
    0x10d30, 0x10d40, 0x11066, 0x110f0, 0x11136, 0x111d0, 0x112f0, 0x11450, 0x114d0, 0x11650, 0x116c0,
    0x116d0, 0x116da, 0x11730, 0x118e0, 0x11950, 0x11bf0, 0x11c50, 0x11d50, 0x11da0, 0x11f50, 0x16130,
    0x16a60, 0x16ac0, 0x16b50, 0x16d70, 0x1ccf0, 0x1d7ce, 0x1d7d8, 0x1d7e2, 0x1d7ec, 0x1d7f6, 0x1e140,
    0x1e2f0, 0x1e4f0, 0x1e5f1, 0x1e950, 0x1fbf0]

/-- `\d`: a Unicode decimal digit. -/
def PyChar.isDecimal : PyChar → Bool
  | .scalar c => decimalZeros.any fun z => z ≤ c.toNat && c.toNat < z + 10
  | .surrogate _ => false

/-- `[A-Z]` -/
def PyChar.isUpperAZ : PyChar → Bool
  | .scalar c => 'A' ≤ c && c ≤ 'Z'
  | .surrogate _ => false

/--
`is_well_formed_case_id`: `re.match` of `^[A-Z]+-\d+$`.

The three classes are disjoint, so the greedy match never backtracks. `$` holds
at the end of the string, and before a line feed that ends it.
-/
def isWellFormedCaseId (value : PyStr) : Bool :=
  match value.span PyChar.isUpperAZ with
  | (_ :: _, .scalar '-' :: rest) =>
      match rest.span PyChar.isDecimal with
      | (_ :: _, []) => true
      | (_ :: _, [.scalar '\n']) => true
      | _ => false
  | _ => false

/-! ## The registry and its mutators -/

/-- A principal's client membership and revocation time. -/
structure Principal where
  clientId : ClientId
  revokedAt : Option Instant
  deriving DecidableEq, Repr

/-- `InMemoryCaseRegistry` -/
structure CaseRegistry where
  clients : Finset ClientId
  engagements : Dict EngagementId ClientId
  cases : Dict CaseId EngagementId
  principals : Dict PrincipalId Principal

namespace CaseRegistry

def empty : CaseRegistry := ⟨∅, ∅, ∅, ∅⟩

def addClient (r : CaseRegistry) (clientId : ClientId) : CaseRegistry :=
  { r with clients := insert clientId r.clients }

def addEngagement (r : CaseRegistry) (engagementId : EngagementId) (clientId : ClientId) :
    Except PyError CaseRegistry :=
  if clientId ∉ r.clients then
    .error (.keyError clientId)
  else
    .ok { r with engagements := r.engagements.insert engagementId clientId }

def addPrincipal (r : CaseRegistry) (principalId : PrincipalId) (clientId : ClientId)
    (revokedAt : Option Instant := none) : Except PyError CaseRegistry :=
  if clientId ∉ r.clients then
    .error (.keyError clientId)
  else
    .ok { r with principals := r.principals.insert principalId ⟨clientId, revokedAt⟩ }

def registerCase (r : CaseRegistry) (engagementId : EngagementId) (caseId : CaseId) :
    Except PyError CaseRegistry :=
  if engagementId ∉ r.engagements then
    .error (.keyError engagementId)
  else if ¬ isWellFormedCaseId caseId then
    .error (.valueError "malformed case id" caseId)
  else if caseId ∈ r.cases then
    .error (.valueError "case already registered" caseId)
  else
    .ok { r with cases := r.cases.insert caseId engagementId }

def engagementForCase (r : CaseRegistry) (caseId : CaseId) : Option EngagementId :=
  r.cases.lookup caseId

/-- A mutation of the registry, as a caller asks for it. -/
inductive Op where
  | addClient (clientId : ClientId)
  | addEngagement (engagementId : EngagementId) (clientId : ClientId)
  | addPrincipal (principalId : PrincipalId) (clientId : ClientId) (revokedAt : Option Instant)
  | registerCase (engagementId : EngagementId) (caseId : CaseId)
  deriving DecidableEq, Repr

/-- The registry an operation leaves, or the exception it raises before writing anything. -/
def apply (r : CaseRegistry) : Op → Except PyError CaseRegistry
  | .addClient k => .ok (r.addClient k)
  | .addEngagement e k => r.addEngagement e k
  | .addPrincipal p k t => r.addPrincipal p k t
  | .registerCase e c => r.registerCase e c

/-! ## The authorisation read model -/

/-- The relationship facts for an attach request. -/
def authorisationSnapshot (r : CaseRegistry) (principalId : PrincipalId) (caseId : CaseId)
    (asOf : Instant) : AuthorisationSnapshot :=
  let principal := r.principals.lookup principalId
  let principalClient := principal.map Principal.clientId
  let principalActive := match principal with
    | none => false
    | some p => match p.revokedAt with
      | none => true
      | some t => decide (asOf < t)
  let caseEngagement := if isWellFormedCaseId caseId then r.cases.lookup caseId else none
  let casePresent := caseEngagement.isSome
  let engagementClient := match caseEngagement with
    | none => none
    | some e => r.engagements.lookup e
  { caseId := if casePresent then some caseId else none
    principalClient, casePresent, caseEngagement, engagementClient, principalActive }

end CaseRegistry

/-! ## The gate -/

/-- `_deny` -/
def deny (detail : DenialDetail) : AuthorisationDecision where
  kind := .triage
  reason := some .notAuthorised
  detail := some detail

/-- Decide whether an attach request is authorised, from a resolved snapshot. -/
def evaluateAuthorisation (snapshot : AuthorisationSnapshot) : AuthorisationDecision :=
  if !snapshot.casePresent || snapshot.caseId.isNone then
    deny .caseNotFound
  else if snapshot.principalClient.isNone then
    deny .principalUnknown
  else if !snapshot.principalActive then
    deny .authorisationRevoked
  else if snapshot.engagementClient.isNone || snapshot.principalClient ≠ snapshot.engagementClient then
    deny .clientMismatch
  else
    { kind := .authorised, caseId := snapshot.caseId }

/-- `gate.authorise`: resolve and evaluate the authorisation chain for one case. -/
def authorise (registry : CaseRegistry) (principalId : PrincipalId) (caseId : CaseId)
    (asOf : Instant) : AuthorisationDecision :=
  evaluateAuthorisation (registry.authorisationSnapshot principalId caseId asOf)

/-! ## What the gate decides -/

/--
The `sender → client → engagement → case` chain is intact: the case is registered
under an engagement of the principal's client, and the principal is not revoked
at the given instant.
-/
def ChainIntact (r : CaseRegistry) (p : PrincipalId) (c : CaseId) (t : Instant) : Prop :=
  ∃ (e : EngagementId) (k : ClientId) (revokedAt : Option Instant),
    r.cases.lookup c = some e ∧ r.engagements.lookup e = some k
      ∧ r.principals.lookup p = some ⟨k, revokedAt⟩ ∧ ∀ u ∈ revokedAt, t < u

/-- The policy on its own: every link resolved, the principal active, one client on both sides. -/
theorem evaluateAuthorisation_kind {s : AuthorisationSnapshot} :
    (evaluateAuthorisation s).kind = .authorised ↔
      (s.casePresent = true ∧ s.caseId.isSome) ∧ s.principalActive = true
        ∧ ∃ k, s.principalClient = some k ∧ s.engagementClient = some k := by
  obtain ⟨caseId, principalClient, casePresent, caseEngagement, engagementClient, principalActive⟩ := s
  cases casePresent <;> cases caseId <;> cases principalClient <;> cases principalActive <;>
    cases engagementClient <;> simp [evaluateAuthorisation, deny]
  -- every fact is present: what is left is the comparison of the two clients
  rename_i k k'
  by_cases h : k = k' <;> simp [h, eq_comm]

/-- **The gate in one line**: it authorises the well-formed ids of intact chains. -/
theorem authorise_kind {r : CaseRegistry} {p : PrincipalId} {c : CaseId} {t : Instant} :
    (authorise r p c t).kind = .authorised ↔ isWellFormedCaseId c = true ∧ ChainIntact r p c t := by
  rw [authorise, evaluateAuthorisation_kind]
  unfold CaseRegistry.authorisationSnapshot ChainIntact
  by_cases hwf : isWellFormedCaseId c = true
  case neg => simp [hwf]
  cases hc : r.cases.lookup c with
  | none => simp [hwf]
  | some e =>
      cases hp : r.principals.lookup p with
      | none => simp [hwf]
      | some principal =>
          obtain ⟨k, revokedAt⟩ := principal
          cases revokedAt <;> simp [hwf, and_comm]

/-- The policy has two shapes of answer. -/
theorem evaluateAuthorisation_cases (s : AuthorisationSnapshot) :
    (∃ detail, evaluateAuthorisation s = deny detail)
      ∨ evaluateAuthorisation s = { kind := .authorised, caseId := s.caseId } := by
  unfold evaluateAuthorisation
  split_ifs
  · exact Or.inl ⟨_, rfl⟩
  · exact Or.inl ⟨_, rfl⟩
  · exact Or.inl ⟨_, rfl⟩
  · exact Or.inl ⟨_, rfl⟩
  · exact Or.inr rfl

/-- An authorised decision echoes the case id and nothing else. -/
theorem authorise_of_authorised {r : CaseRegistry} {p : PrincipalId} {c : CaseId} {t : Instant}
    (h : (authorise r p c t).kind = .authorised) :
    authorise r p c t = { kind := .authorised, caseId := some c } := by
  have hpresent := (evaluateAuthorisation_kind.mp h).1.1
  have hid : (r.authorisationSnapshot p c t).caseId = some c := by
    simp only [CaseRegistry.authorisationSnapshot] at hpresent ⊢
    rw [if_pos hpresent]
  rcases evaluateAuthorisation_cases (r.authorisationSnapshot p c t) with ⟨d, hd⟩ | hauth
  · rw [authorise, hd] at h
    exact absurd h (by simp [deny])
  · rw [authorise, hauth, hid]

/-- A denial carries the client-safe reason, an audit-only detail and no case metadata. -/
theorem authorise_of_triage {r : CaseRegistry} {p : PrincipalId} {c : CaseId} {t : Instant}
    (h : (authorise r p c t).kind = .triage) : ∃ detail, authorise r p c t = deny detail := by
  rcases evaluateAuthorisation_cases (r.authorisationSnapshot p c t) with hdeny | hauth
  · exact hdeny
  · rw [authorise, hauth] at h
    exact absurd h (by simp)

end Intake
