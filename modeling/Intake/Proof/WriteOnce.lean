import Intake.Proof.Served

/-!
# The log as a write-once register file

Three kinds of event are written only after a lookup of that very kind came back
empty: intake decisions, proposals and confirmations. So the log holds at most
one of each for a message id, and a lookup that succeeded once returns the same
event for ever.
-/

namespace Intake.Proof

open IntakeService ClassificationService EventLog

/-- The actions that guard themselves. -/
def OncePerMessage (a : AuditAction) : Prop :=
  a = .intakeDecision ∨ a = .classificationProposed ∨ a = .classificationConfirmed

/-! ## What the batches of one call look like -/

/-- A first confirmation writes no self-guarding event besides the confirmation itself. -/
theorem Routed.not_once {w : World} {r : CaseRegistry} {t : Instant} {m : IntakeMessage}
    {d : HumanDecision} {cid : PyStr} {o : ClassificationOutcome} {c : Option CaseId} {f : Effect}
    (h : Routed r t m d cid o c f) : ∀ y ∈ corrections w m d cid ++ f.drafts, ¬ OncePerMessage y.action := by
  intro y hy
  rcases List.mem_append.mp hy with hy | hy
  · rw [mem_corrections hy]
    rintro (h | h | h) <;> cases h
  · obtain ⟨auth, rfl⟩ := h.drafts_eq y hy
    rintro (h | h | h) <;> cases h

theorem confirmed_latest {w : World} {r : CaseRegistry} {t : Instant} {m : IntakeMessage}
    {d : HumanDecision} {cid : PyStr} {o : ClassificationOutcome} {c : Option CaseId} {f : Effect}
    (h : Routed r t m d cid o c f) (x : MessageId) {a : AuditAction} (ha : OncePerMessage a) :
    latest (AuditDraft.isFor x a) (corrections w m d cid ++ f.drafts) = none := by
  rw [AuditDraft.latest_isFor]
  intro y hy haction
  rw [← haction] at ha
  exact absurd ha (h.not_once y hy)

/-- **Check, then write.** A call writes a self-guarding event only after an empty lookup, and once. -/
theorem Served.once {env : Env} {w : World} {call : MessageCall} {reply : Reply} {f : Effect}
    (h : Served env w call reply f) (x : MessageId) {a : AuditAction} (ha : OncePerMessage a) :
    latest (AuditDraft.isFor x a) f.drafts = none
      ∨ (w.eventFor x a = none ∧ AtMostOnce (AuditDraft.isFor x a) f.drafts) := by
  -- a batch of one draft that names the message and the action whose lookup was empty
  have single : ∀ (d : AuditDraft), (∀ m, d.messageId = some m → w.eventFor m d.action = none) →
      latest (AuditDraft.isFor x a) [d] = none
        ∨ (w.eventFor x a = none ∧ AtMostOnce (AuditDraft.isFor x a) [d]) := by
    intro d hd
    rw [latest_singleton]
    by_cases hx : d.isFor x a = true
    · obtain ⟨rfl, hm⟩ := AuditDraft.isFor_iff.mp hx
      exact Or.inr ⟨hd x hm, by simp [AtMostOnce, hx]⟩
    · exact Or.inl (if_neg hx)
  cases h with
  | intakeReplayed | proposeReplayed | proposeAfterIntake | confirmReplayed | confirmConflict =>
      exact Or.inl rfl
  | intakeAuthorised h => exact single _ (fun _ hm => Option.some.inj hm ▸ h)
  | intakeTriaged h => exact single _ (fun _ hm => Option.some.inj hm ▸ h)
  | proposeDenied _ hi => exact single _ (fun _ hm => Option.some.inj hm ▸ hi)
  | proposeAsked h _ _ ask =>
      cases ask with
      | _ => exact single _ (fun _ hm => Option.some.inj hm ▸ h)
  | @confirmed m d cid o c f h _ hr =>
      have hnone := confirmed_latest (w := w) hr x ha
      rcases single (confirmationDraft m d o cid) (fun _ hm => Option.some.inj hm ▸ h) with hx | ⟨hw, hx⟩
      · exact Or.inl (by rw [latest_append, hx, hnone]; rfl)
      · exact Or.inr ⟨hw, AtMostOnce.append_left hnone hx⟩

/-! ## At most one event of each kind -/

/-- **One intake decision, one proposal, one confirmation per message.** -/
def WriteOnce (w : World) : Prop :=
  ∀ x a, OncePerMessage a → AtMostOnce (AuditDraft.isFor x a) w.trail

theorem writeOnce_init (registry : CaseRegistry) (ids : Stream' PyStr) :
    WriteOnce (World.init registry ids) :=
  fun _ _ _ => atMostOnce_nil _

/-- Registry calls are invisible to lookups by message. -/
theorem registered_latest {f : Effect} (h : ∀ d ∈ f.drafts, d.action = .caseRegistered ∧ d.messageId = none)
    (x : MessageId) (a : AuditAction) : latest (AuditDraft.isFor x a) f.drafts = none := by
  rw [AuditDraft.latest_isFor]
  intro d hd _
  simp [(h d hd).2]

theorem writeOnce_step {env : Env} (w : World) (req : Request) (h : WriteOnce w) :
    WriteOnce (system env w req).2 := by
  intro x a ha
  have hw := h x a ha
  rcases system_step env w req with ⟨call, f, _, hs, happ⟩ | ⟨r, f, hreg, _, _, _, happ⟩
  · -- either the batch has no such event, or the log had none
    rw [happ.trail]
    rcases hs.once x ha with hnone | ⟨hempty, honce⟩
    · exact hw.append_right hnone
    · exact AtMostOnce.append_left (World.eventFor_eq_none.mp hempty) honce
  · rw [happ.trail]
    exact hw.append_right (registered_latest hreg x a)

theorem writeOnce_reachable {env : Env} {w : World} (h : Reachable env w) : WriteOnce w :=
  h.invariant writeOnce_init writeOnce_step

/-! ## Lookups are stable -/

/-- A lookup that succeeds is not affected by appending drafts that do not match. -/
theorem eventFor_of_applied {w w' : World} {f : Effect} (h : Applied w f w') {x : MessageId}
    {a : AuditAction} (hf : latest (AuditDraft.isFor x a) f.drafts = none) :
    w'.eventFor x a = w.eventFor x a := by
  obtain ⟨es, hes, hdrafts⟩ := h.appended
  rw [World.eventFor, hes]
  refine latest_append_of_none ?_
  rw [← hdrafts, latest_map, Option.map_eq_none_iff] at hf
  exact hf

/-- **What was recorded once is what every later lookup returns.** -/
theorem eventFor_step {env : Env} {w : World} {x : MessageId} {a : AuditAction} (ha : OncePerMessage a)
    {e : AuditEvent} (h : w.eventFor x a = some e) (req : Request) :
    (system env w req).2.eventFor x a = some e := by
  rcases system_step env w req with ⟨call, f, _, hs, happ⟩ | ⟨r, f, hreg, _, _, _, happ⟩
  · rcases hs.once x ha with hnone | ⟨hempty, _⟩
    · rw [eventFor_of_applied happ hnone]; exact h
    · exact absurd (hempty.symm.trans h) (by simp)
  · rw [eventFor_of_applied happ (registered_latest hreg x a)]; exact h

theorem eventFor_run {env : Env} {w : World} {x : MessageId} {a : AuditAction} (ha : OncePerMessage a)
    {e : AuditEvent} (h : w.eventFor x a = some e) (reqs : List Request) :
    (Machine.run (system env) w reqs).eventFor x a = some e :=
  Machine.run_invariant (P := fun w : World => w.eventFor x a = some e)
    (fun _ req hw => eventFor_step ha hw req) h reqs

end Intake.Proof
