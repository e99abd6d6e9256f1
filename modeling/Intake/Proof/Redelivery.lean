import Intake.Lib.Delivery
import Intake.Proof.Finality
import Intake.Proof.Replay
import Intake.Proof.Composition

/-!
# At least once, exactly once

Both services look into the log before they write to it, so that a message may be
delivered again. The guards are apart: `handle_intake` looks for a decision,
`propose` for a proposal and then for a decision, `confirm` for a confirmation. A call
of the same kind for the same message has always left what it looks for, and for
`propose` so has `handle_intake`. Text, claims and the human's decision may differ.

So among the calls of a run only those count that repeat none before them in this
sense. The rest could have been lost: they change nothing, not even where the id
generator stands, and each is answered the same way for ever.
-/

namespace Intake

/-- The second call finds in the log what the first one left there. -/
def MessageCall.repeats : MessageCall → MessageCall → Bool
  | .handleIntake m, .handleIntake m' => m.messageId = m'.messageId
  | .handleIntake m, .propose m' _ => m.messageId = m'.messageId
  | .propose m _, .propose m' _ => m.messageId = m'.messageId
  | .confirm m _, .confirm m' _ => m.messageId = m'.messageId
  | _, _ => false

def Assignment.repeats (a b : Assignment) : Bool :=
  match a.job, b.job with
  | .desk (.message call), .desk (.message call') => call.repeats call'
  | _, _ => false

end Intake

namespace Intake.Proof

open IntakeService ClassificationService Delivery

/-! ## Calls that are settled -/

/-- The answer of a call that finds what it looks for. -/
inductive Settled (w : World) : MessageCall → Reply → Prop where
  | intake {m : IntakeMessage} {e : AuditEvent} (h : w.eventFor m.messageId .intakeDecision = some e) :
      Settled w (.handleIntake m) (.intake (decisionFromEvent e))
  | proposed {m : IntakeMessage} {text : PyStr} {e : AuditEvent}
      (h : w.eventFor m.messageId .classificationProposed = some e) :
      Settled w (.propose m text) (.proposal (proposalFromEvent e))
  | decided {m : IntakeMessage} {text : PyStr} (h : OnlyDecided w m.messageId) :
      Settled w (.propose m text) (.proposal ⟨none, true⟩)
  | confirmed {m : IntakeMessage} {d : HumanDecision} {e : AuditEvent}
      (h : w.eventFor m.messageId .classificationConfirmed = some e) :
      Settled w (.confirm m d) (.confirmation
        (if eventSignature e = decisionSignature d then confirmFromEvent e
          else .error (.conflictingDecision m.messageId)))

/-- A settled call is answered from the log and does nothing else. -/
theorem Settled.serve {w : World} {call : MessageCall} {reply : Reply} (h : Settled w call reply) (env : Env) :
    serve env w call = (reply, w) := by
  cases h with
  | intake h => simp only [Intake.serve, handleIntake, World.decisionFor, h]
  | proposed h => simp only [Intake.serve, propose, h]
  | decided h =>
      obtain ⟨hp, e, hi⟩ := h
      simp only [Intake.serve, propose, hp, hi]
  | @confirmed m d e h =>
      simp only [Intake.serve, ClassificationService.confirm, h]
      split_ifs <;> rfl

/-- What is settled stays settled, with the same answer. -/
theorem Settled.step {w : World} {call : MessageCall} {reply : Reply} (h : Settled w call reply) (env : Env)
    (req : Request) : Settled (system env w req).2 call reply := by
  cases h with
  | intake h => exact .intake (eventFor_step (Or.inl rfl) h req)
  | proposed h => exact .proposed (eventFor_step (Or.inr (Or.inl rfl)) h req)
  | decided h => exact .decided (onlyDecided_step h req)
  | confirmed h => exact .confirmed (eventFor_step (Or.inr (Or.inr rfl)) h req)

/-- The log of a world, and nothing else of it, settles calls. -/
theorem Settled.congr {w : World} {call : MessageCall} {reply : Reply} (h : Settled w call reply)
    (clock : Stream' Instant) (ids : Stream' PyStr) :
    Settled { w with clock := clock, ids := ids } call reply := by
  cases h with
  | intake h => exact .intake h
  | proposed h => exact .proposed h
  | decided h => exact .decided h
  | confirmed h => exact .confirmed h

/-! ## What a call settles -/

section Settles

variable (env : Env) (w : World)

theorem handleIntake_leaves (m : IntakeMessage) :
    ∃ e, (serve env w (.handleIntake m)).2.eventFor m.messageId .intakeDecision = some e := by
  obtain ⟨f, hs, happ⟩ := serve_served env w (.handleIntake m)
  generalize (serve env w (.handleIntake m)).1 = reply at hs
  cases hs with
  | intakeReplayed h => exact ⟨_, (eventFor_of_applied happ rfl).trans h⟩
  | intakeAuthorised | intakeTriaged =>
      obtain ⟨e, he, _⟩ := eventFor_of_last happ (l := []) rfl (AuditDraft.isFor_iff.mpr ⟨rfl, rfl⟩)
      exact ⟨e, he⟩

theorem propose_leaves (m : IntakeMessage) (text : PyStr) :
    ∃ e, (serve env w (.propose m text)).2.eventFor m.messageId .intakeDecision = some e
      ∨ (serve env w (.propose m text)).2.eventFor m.messageId .classificationProposed = some e := by
  obtain ⟨f, hs, happ⟩ := serve_served env w (.propose m text)
  generalize (serve env w (.propose m text)).1 = reply at hs
  cases hs with
  | proposeReplayed h => exact ⟨_, Or.inr ((eventFor_of_applied happ rfl).trans h)⟩
  | proposeAfterIntake _ hi => exact ⟨_, Or.inl ((eventFor_of_applied happ rfl).trans hi)⟩
  | proposeDenied =>
      obtain ⟨e, he, _⟩ := eventFor_of_last happ (l := []) rfl (AuditDraft.isFor_iff.mpr ⟨rfl, rfl⟩)
      exact ⟨e, Or.inl he⟩
  | proposeAsked _ _ _ ask =>
      -- whatever the classifier did, the last draft is a proposal
      cases ask with
      | failed | flagged | pending =>
          obtain ⟨e, he, _⟩ := eventFor_of_last happ (l := []) rfl (AuditDraft.isFor_iff.mpr ⟨rfl, rfl⟩)
          exact ⟨e, Or.inr he⟩

theorem confirm_leaves (m : IntakeMessage) (d : HumanDecision) :
    ∃ e, (serve env w (.confirm m d)).2.eventFor m.messageId .classificationConfirmed = some e := by
  obtain ⟨f, hs, happ⟩ := serve_served env w (.confirm m d)
  generalize (serve env w (.confirm m d)).1 = reply at hs
  cases hs with
  | confirmReplayed h => exact ⟨_, (eventFor_of_applied happ rfl).trans h⟩
  | confirmConflict h => exact ⟨_, (eventFor_of_applied happ rfl).trans h⟩
  | confirmed =>
      obtain ⟨e, he, _⟩ := eventFor_of_last happ rfl (AuditDraft.isFor_iff.mpr ⟨rfl, rfl⟩)
      exact ⟨e, he⟩

/-- A proposal is settled by a proposal or by a decision. -/
theorem settled_propose {m m' : IntakeMessage} (text : PyStr) (hm : m.messageId = m'.messageId)
    (h : ∃ e, w.eventFor m.messageId .intakeDecision = some e
      ∨ w.eventFor m.messageId .classificationProposed = some e) :
    ∃ reply, Settled w (.propose m' text) reply := by
  rw [hm] at h
  cases hp : w.eventFor m'.messageId .classificationProposed with
  | some e => exact ⟨_, .proposed hp⟩
  | none =>
      obtain ⟨e, hi | hp'⟩ := h
      · exact ⟨_, .decided ⟨hp, e, hi⟩⟩
      · exact absurd (hp.symm.trans hp') (by simp)

/-- **Every call settles the calls that repeat it.** -/
theorem serve_settles {call call' : MessageCall} (h : call.repeats call' = true) :
    ∃ reply, Settled (serve env w call).2 call' reply := by
  cases call with
  | handleIntake m =>
      obtain ⟨e, he⟩ := handleIntake_leaves env w m
      cases call' with
      | handleIntake m' =>
          have hm : m.messageId = m'.messageId := of_decide_eq_true h
          exact ⟨_, .intake (hm ▸ he)⟩
      | propose m' text => exact settled_propose _ text (of_decide_eq_true h) ⟨e, Or.inl he⟩
      | confirm m' d => exact absurd h Bool.false_ne_true
  | propose m text =>
      cases call' with
      | handleIntake m' => exact absurd h Bool.false_ne_true
      | propose m' text' => exact settled_propose _ text' (of_decide_eq_true h) (propose_leaves env w m text)
      | confirm m' d => exact absurd h Bool.false_ne_true
  | confirm m d =>
      cases call' with
      | handleIntake m' => exact absurd h Bool.false_ne_true
      | propose m' text => exact absurd h Bool.false_ne_true
      | confirm m' d' =>
          obtain ⟨e, he⟩ := confirm_leaves env w m d
          have hm : m.messageId = m'.messageId := of_decide_eq_true h
          exact ⟨_, .confirmed (hm ▸ he)⟩

end Settles

/-! ## All three services -/

/-- The assignment is a call that is settled, with this answer. -/
inductive SettledIn (o : Office) : Assignment → Answer → Prop where
  | call {call : MessageCall} {clock : Stream' Instant} {reply : Reply} (h : Settled o.world call reply) :
      SettledIn o ⟨.desk (.message call), clock⟩ (.desk reply)

/-- One state, but for the clock, which every assignment brings along. -/
def SameButClock (o o' : Office) : Prop := ∃ clock, o' = { o with world := o.world.during clock }

variable {env : OfficeEnv} {o o' : Office}

theorem SameButClock.refl (o : Office) : SameButClock o o := ⟨o.world.clock, rfl⟩

theorem SameButClock.trans {o'' : Office} (h : SameButClock o o') (h' : SameButClock o' o'') :
    SameButClock o o'' := by
  obtain ⟨_, rfl⟩ := h
  obtain ⟨clock, rfl⟩ := h'
  exact ⟨clock, rfl⟩

/-- An assignment does not look at the clock it finds. -/
theorem SameButClock.step (h : SameButClock o o') (a : Assignment) : office env o a = office env o' a := by
  obtain ⟨clock, rfl⟩ := h
  rfl

theorem SettledIn.answer {a : Assignment} {answer : Answer} (h : SettledIn o a answer) :
    (office env o a).1 = answer ∧ SameButClock (office env o a).2 o := by
  cases h with
  | @call call clock reply h =>
      have hserved := (h.congr clock o.world.ids).serve env.desk
      have hsame : ({ o.world with clock := clock, ids := o.world.ids } : World) = o.world.during clock := rfl
      rw [hsame] at hserved
      rw [office_desk]
      unfold system perform
      dsimp only
      rw [hserved]
      exact ⟨rfl, o.world.clock, rfl⟩

theorem SettledIn.step {a : Assignment} {answer : Answer} (h : SettledIn o a answer) (b : Assignment) :
    SettledIn (office env o b).2 a answer := by
  cases h with
  | call h =>
      obtain ⟨job, clock⟩ := b
      cases job with
      | desk call =>
          rw [office_desk]
          exact .call (h.step env.desk ⟨call, clock⟩)
      | screen manifest adapters =>
          obtain ⟨_, _, hworld⟩ := office_screen_world env o manifest adapters clock
          refine .call ?_
          rw [hworld]
          exact h.congr _ _

theorem office_settles (env : OfficeEnv) (o : Office) {a b : Assignment} (h : a.repeats b = true) :
    ∃ answer, SettledIn (office env o a).2 b answer := by
  obtain ⟨job, clock⟩ := a
  obtain ⟨job', clock'⟩ := b
  unfold Assignment.repeats at h
  dsimp only at h
  split at h
  · obtain ⟨reply, hsettled⟩ := serve_settles env.desk (o.world.during clock) h
    exact ⟨_, .call hsettled⟩
  · exact absurd h Bool.false_ne_true

theorem SettledIn.run {a : Assignment} {answer : Answer} (h : SettledIn o a answer) (more : List Assignment) :
    SettledIn (Machine.run (office env) o more) a answer :=
  Machine.run_invariant (P := fun o : Office => SettledIn o a answer) (fun _ b hb => hb.step b) h more

/-- What a call of a run settles stays settled in the run. -/
theorem settled_of_repeats (env : OfficeEnv) (o : Office) {as : List Assignment} {a b : Assignment} (ha : a ∈ as)
    (h : a.repeats b = true) : ∃ answer, SettledIn (Machine.run (office env) o as) b answer := by
  obtain ⟨pre, mid, rfl⟩ := List.append_of_mem ha
  obtain ⟨answer, hb⟩ := office_settles env (Machine.run (office env) o pre) h
  rw [Machine.run_append]
  exact ⟨answer, hb.run mid⟩

/--
**At least once, exactly once.**

In any run of all three services take out every message call that repeats an earlier
one. The calls that are left get the answers they got before, and the run ends in
the same state, down to the id generator. And whenever a call that repeats another
is made, it is answered as it would have been right after the other.
-/
theorem redelivery_harmless (env : OfficeEnv) (registry : CaseRegistry) (ids : Stream' PyStr)
    (as : List Assignment) :
    let start := Office.init registry ids
    let once := firsts Assignment.repeats id [] as
    firsts Assignment.repeats Prod.fst [] (trace (office env) start as) = trace (office env) start once
      ∧ SameButClock (Machine.run (office env) start as) (Machine.run (office env) start once)
      ∧ ∀ pre a mid b, a.repeats b = true →
        (office env (Machine.run (office env) start (pre ++ a :: mid)) b).1
          = (office env (Machine.run (office env) start (pre ++ [a])) b).1 := by
  intro start once
  have hdelivered := run_firsts (M := office env) (R := SameButClock) (fun o a => ∃ answer, SettledIn o a answer)
    (fun o o' a h => by
      rw [h.step a]
      exact ⟨rfl, .refl _⟩)
    (fun o a b h => office_settles env o h)
    (fun o a b h => by
      obtain ⟨answer, hb⟩ := h
      exact ⟨answer, hb.step a⟩)
    (fun o o' a h hsame => by
      obtain ⟨answer, ha⟩ := h
      exact ha.answer.2.trans hsame)
    (SameButClock.refl start) (fun a ha => absurd ha List.not_mem_nil) as
  refine ⟨hdelivered.1, hdelivered.2, ?_⟩
  intro pre a mid b h
  obtain ⟨answer, hb⟩ := office_settles env (Machine.run (office env) start pre) h
  rw [Machine.run_append, Machine.run_append, Machine.run_cons, Machine.run_cons, Machine.run_nil, hb.answer.1]
  exact (hb.run mid).answer.1

/-- The order matters: a proposal after an intake repeats it, an intake after a proposal does not. -/
example :
    let m := Sample.message "P" ["CASE-1"]
    firsts MessageCall.repeats id [] [.propose m "a text", .handleIntake m, .propose m "another"]
      = [.propose m "a text", .handleIntake m] := by decide

end Intake.Proof
