import Intake.Proof.Redelivery
import Intake.Proof.Registration
import Intake.Proof.Vetting
import Mathlib.Data.Finset.Card

/-!
# What a run can cost

The log is never truncated, the classifier is paid by the question, and the sources
are somebody else's. So it matters what a sender can bring about by sending again.

The log grows by at most one event for each message that is taken in, one for each
that is proposed, three for each that is confirmed, and one for each registration
of a case. The classifier is asked at most once for each message that is proposed.
Each screen asks each source at most once and stores at most one ledger.
-/

namespace Intake

/-- The three calls there are for a message. -/
inductive CallKind where
  | handleIntake
  | propose
  | confirm
  deriving DecidableEq

def MessageCall.kind : MessageCall → CallKind
  | .handleIntake _ => .handleIntake
  | .propose _ _ => .propose
  | .confirm _ _ => .confirm

/-- The most events a call of a kind writes. -/
def CallKind.price : CallKind → ℕ
  | .handleIntake => 1
  | .propose => 1
  | .confirm => 3

end Intake

namespace Intake.Proof

open IntakeService ClassificationService EvidenceService

/-! ## What is paid for -/

/-- The message an assignment is about, if it is a call of this kind. -/
def calledFor (k : CallKind) (a : Assignment) : Option MessageId :=
  match a.job with
  | .desk (.message call) => if call.kind = k then some call.message.messageId else none
  | _ => none

/-- The messages for which there are calls of this kind. -/
def messagesOf (k : CallKind) (as : List Assignment) : Finset MessageId := (as.filterMap (calledFor k)).toFinset

/-- `IntakeService.register_case` -/
def isRegistration (a : Assignment) : Bool :=
  match a.job with
  | .desk (.registerCase _ _) => true
  | _ => false

def isScreen (a : Assignment) : Bool :=
  match a.job with
  | .screen _ _ => true
  | _ => false

/-- **What a run may leave behind.** -/
structure Within (as : List Assignment) (o : Office) : Prop where
  events : o.world.audit.length ≤ (messagesOf .handleIntake as).card + (messagesOf .propose as).card
    + 3 * (messagesOf .confirm as).card + as.countP isRegistration
  questions : o.world.classified.length ≤ (messagesOf .propose as).card
  ledgers : o.ledgers.length ≤ as.countP isScreen
  queries : o.calls.length ≤ 3 * as.countP isScreen

section Counting

variable {k : CallKind} {as : List Assignment} {a : Assignment} {x : MessageId}

theorem messagesOf_concat_none (h : calledFor k a = none) : messagesOf k (as ++ [a]) = messagesOf k as := by
  rw [messagesOf, List.filterMap_append, List.filterMap_cons_none h, List.filterMap_nil, List.append_nil]
  rfl

theorem messagesOf_concat_some (h : calledFor k a = some x) :
    messagesOf k (as ++ [a]) = insert x (messagesOf k as) := by
  rw [messagesOf, List.filterMap_append, List.filterMap_cons_some h, List.filterMap_nil, List.toFinset_append,
    Finset.union_comm]
  rfl

theorem card_messagesOf_mono (as : List Assignment) (a : Assignment) (k : CallKind) :
    (messagesOf k as).card ≤ (messagesOf k (as ++ [a])).card := by
  refine Finset.card_le_card ?_
  cases h : calledFor k a with
  | none => rw [messagesOf_concat_none h]
  | some x => rw [messagesOf_concat_some h]; exact Finset.subset_insert x _

theorem calledFor_call {call : MessageCall} {clock : Stream' Instant} :
    calledFor k ⟨.desk (.message call), clock⟩ = if call.kind = k then some call.message.messageId else none := rfl

theorem calledFor_eq_some (h : calledFor k a = some x) :
    ∃ call clock, a = ⟨.desk (.message call), clock⟩ ∧ call.kind = k ∧ call.message.messageId = x := by
  obtain ⟨job, clock⟩ := a
  cases job with
  | screen manifest adapters => cases h
  | desk call =>
      cases call with
      | registerCase e c => cases h
      | registry op => cases h
      | message call =>
          rw [calledFor_call] at h
          by_cases hk : call.kind = k
          · rw [if_pos hk] at h
            exact ⟨call, clock, rfl, hk, Option.some.inj h⟩
          · rw [if_neg hk] at h
            cases h

/-- A call of the same kind for the same message is a repetition. -/
theorem repeats_of_calledFor {b : Assignment} (hb : calledFor k b = some x) (ha : calledFor k a = some x) :
    b.repeats a = true := by
  obtain ⟨call, _, rfl, rfl, rfl⟩ := calledFor_eq_some hb
  obtain ⟨call', _, rfl, hk, hx⟩ := calledFor_eq_some ha
  show call.repeats call' = true
  cases call <;> cases call' <;> first | exact decide_eq_true hx.symm | cases hk

/-- **A call that repeats none is for a new message.** -/
theorem card_messagesOf_fresh (h : calledFor k a = some x) (hnone : ∀ b ∈ as, b.repeats a = false) :
    (messagesOf k (as ++ [a])).card = (messagesOf k as).card + 1 := by
  rw [messagesOf_concat_some h]
  refine Finset.card_insert_of_notMem fun hmem => ?_
  obtain ⟨b, hb, hx⟩ := List.mem_filterMap.mp (List.mem_toFinset.mp hmem)
  exact absurd ((hnone b hb).symm.trans (repeats_of_calledFor hx h)) Bool.false_ne_true

end Counting

/-! ## What one assignment costs -/

theorem Served.cost {env : Env} {w : World} {call : MessageCall} {reply : Reply} {f : Effect}
    (h : Served env w call reply f) :
    f.drafts.length ≤ call.kind.price ∧ f.asked.length ≤ if call.kind = .propose then 1 else 0 := by
  cases h with
  | intakeReplayed | intakeAuthorised | intakeTriaged =>
      exact ⟨by simp [MessageCall.kind, CallKind.price], le_refl _⟩
  | proposeReplayed | proposeAfterIntake | proposeDenied =>
      exact ⟨by simp [MessageCall.kind, CallKind.price], Nat.zero_le _⟩
  | proposeAsked _ _ _ ask =>
      cases ask with
      | failed | flagged | pending => exact ⟨le_refl _, le_refl _⟩
  | confirmReplayed | confirmConflict => exact ⟨Nat.zero_le _, le_refl _⟩
  | @confirmed m d cid _ _ g _ _ hr =>
      have hcorrections : (corrections w m d cid).length ≤ 1 := by
        unfold corrections
        cases w.eventFor m.messageId .classificationProposed with
        | none => exact Nat.zero_le _
        | some proposed =>
            dsimp only
            split_ifs <;> simp
      have hrouted : g.drafts.length ≤ 1 := by cases hr <;> simp
      have hasked := hr.asked
      refine ⟨?_, by simp [hasked]⟩
      show (corrections w m d cid ++ g.drafts ++ [confirmationDraft m d _ cid]).length ≤ 3
      rw [List.length_append, List.length_append, List.length_singleton]
      omega

theorem Applied.cost {w w' : World} {f : Effect} (h : Applied w f w') :
    w'.audit.length = w.audit.length + f.drafts.length
      ∧ w'.classified.length = w.classified.length + f.asked.length := by
  have htrail := congrArg List.length h.trail
  unfold World.trail at htrail
  rw [List.length_append, List.length_map, List.length_map] at htrail
  exact ⟨htrail, by rw [h.classified, List.length_append]⟩

theorem registerCase_cost (env : Env) (w : World) (e : EngagementId) (c : CaseId) :
    (perform env w (.registerCase e c)).2.audit.length ≤ w.audit.length + 1
      ∧ (perform env w (.registerCase e c)).2.classified = w.classified := by
  have hspec := registerCase_spec env w e c
  show (registerCase env w e c).2.audit.length ≤ _ ∧ (registerCase env w e c).2.classified = _
  generalize registerCase env w e c = x at hspec ⊢
  cases hspec with
  | refused | lost => exact ⟨Nat.le_succ _, rfl⟩
  | recorded =>
      refine ⟨?_, rfl⟩
      show (w.audit ++ [_]).length ≤ _
      rw [List.length_append, List.length_singleton]

theorem screen_cost (env : OfficeEnv) (o : Office) (manifest : CaseManifest)
    (adapters : Dict SourceId SourceAdapter) (clock : Stream' Instant) :
    (office env o ⟨.screen manifest adapters, clock⟩).2.ledgers.length ≤ o.ledgers.length + 1
      ∧ (office env o ⟨.screen manifest adapters, clock⟩).2.calls.length ≤ o.calls.length + 3 := by
  rcases AdapterTable.ofMapping_cases adapters with ⟨text, htext⟩ | ⟨table, rfl⟩
  · rw [office_notConstructed env o manifest htext]
    exact ⟨Nat.le_succ _, Nat.le_add_right _ 3⟩
  rw [office_screen]
  have hsaved := (screens_step env.evidence (({ o with world := o.world.during clock } : Office).evidence)
    ⟨manifest, o.world.registry, table.fetch⟩).1
  obtain ⟨asked, hcalls, hfew, _⟩ := run_asked env.evidence o.world.registry table.fetch
    (({ o with world := o.world.during clock } : Office).evidence) manifest
  have hone : ∀ result, (returned result).length ≤ 1 := by
    intro result
    cases result with
    | ok ledger => exact le_refl _
    | error err => exact Nat.zero_le _
  have hledgers := congrArg List.length hsaved
  have hqueries := congrArg List.length hcalls
  rw [List.length_append] at hledgers hqueries
  exact ⟨hledgers.trans_le (Nat.add_le_add_left (hone _) _), hqueries.trans_le (Nat.add_le_add_left hfew _)⟩

/-! ## Whole runs -/

/-- One call more, of a kind and for a message, and of no other kind. -/
theorem card_messagesOf_call {as : List Assignment} {call : MessageCall} {clock : Stream' Instant}
    (hnone : ∀ b ∈ as, b.repeats ⟨.desk (.message call), clock⟩ = false) (k : CallKind) :
    (messagesOf k (as ++ [⟨.desk (.message call), clock⟩])).card
      = (messagesOf k as).card + if call.kind = k then 1 else 0 := by
  by_cases hk : call.kind = k
  · rw [if_pos hk]
    exact card_messagesOf_fresh (calledFor_call.trans (if_pos hk)) hnone
  · rw [if_neg hk, messagesOf_concat_none (calledFor_call.trans (if_neg hk))]
    rfl

/-- **One assignment more**, of which no earlier one is repeated. -/
theorem within_fresh {env : OfficeEnv} {as : List Assignment} {o : Office} {a : Assignment} (h : Within as o)
    (hnone : ∀ b ∈ as, b.repeats a = false) : Within (as ++ [a]) (office env o a).2 := by
  obtain ⟨hevents, hquestions, hledgers, hqueries⟩ := h
  have hscreens := (List.countP_append (p := isScreen) : (as ++ [a]).countP isScreen = _)
  have hregistrations := (List.countP_append (p := isRegistration) : (as ++ [a]).countP isRegistration = _)
  obtain ⟨job, clock⟩ := a
  cases job with
  | screen manifest adapters =>
      obtain ⟨hone, hthree⟩ := screen_cost env o manifest adapters clock
      obtain ⟨_, _, hworld⟩ := office_screen_world env o manifest adapters clock
      have hsame : ∀ k, messagesOf k (as ++ [⟨.screen manifest adapters, clock⟩]) = messagesOf k as :=
        fun k => messagesOf_concat_none rfl
      rw [List.countP_singleton] at hscreens hregistrations
      refine ⟨?_, ?_, ?_, ?_⟩
      · rw [hworld, hsame, hsame, hsame, hregistrations]; exact hevents
      · rw [hworld, hsame]; exact hquestions
      · rw [hscreens]; exact hone.trans (Nat.succ_le_succ hledgers)
      · rw [hscreens]
        refine hthree.trans ?_
        show _ ≤ 3 * (as.countP isScreen + 1)
        omega
  | desk call =>
      have hstored : o.ledgers.length ≤ List.countP isScreen (as ++ [⟨.desk call, clock⟩]) :=
        hscreens ▸ Nat.le_add_right_of_le hledgers
      have hfetched : o.calls.length ≤ 3 * List.countP isScreen (as ++ [⟨.desk call, clock⟩]) :=
        hqueries.trans (Nat.mul_le_mul_left 3 (hscreens ▸ Nat.le_add_right _ _))
      rw [office_desk]
      cases call with
      | message call =>
          obtain ⟨f, hs, happ⟩ := system_served env.desk o.world call clock
          obtain ⟨hdrafts, hasked⟩ := hs.cost
          obtain ⟨haudit, hclassified⟩ := happ.cost
          have hcards := card_messagesOf_call hnone
          refine ⟨?_, ?_, hstored, hfetched⟩
          · show (system env.desk o.world ⟨.message call, clock⟩).2.audit.length ≤ _
            rw [haudit, hcards, hcards, hcards, hregistrations]
            have hold : (o.world.during clock).audit.length = o.world.audit.length := rfl
            rw [hold]
            cases call <;> simp [MessageCall.kind, CallKind.price] at hdrafts ⊢ <;> omega
          · show (system env.desk o.world ⟨.message call, clock⟩).2.classified.length ≤ _
            rw [hclassified, hcards]
            exact Nat.add_le_add hquestions hasked
      | registerCase e c =>
          obtain ⟨haudit, hclassified⟩ := registerCase_cost env.desk (o.world.during clock) e c
          have hsame : ∀ k, messagesOf k (as ++ [⟨.desk (.registerCase e c), clock⟩]) = messagesOf k as :=
            fun k => messagesOf_concat_none rfl
          rw [List.countP_singleton] at hregistrations
          refine ⟨?_, ?_, hstored, hfetched⟩
          · rw [hsame, hsame, hsame, hregistrations]
            exact haudit.trans (Nat.succ_le_succ hevents)
          · rw [hsame]
            exact (congrArg List.length hclassified).trans_le hquestions
      | registry op =>
          have hsame : ∀ k, messagesOf k (as ++ [⟨.desk (.registry op), clock⟩]) = messagesOf k as :=
            fun k => messagesOf_concat_none rfl
          rw [mutator_frame]
          refine ⟨?_, ?_, hstored, hfetched⟩
          · rw [hsame, hsame, hsame, hregistrations]
            exact hevents
          · rw [hsame]
            exact hquestions

/-- **One assignment more**, of which an earlier one is repeated: nothing happens. -/
theorem within_repeated {as : List Assignment} {o o' : Office} (h : Within as o) (hsame : SameButClock o' o)
    (a : Assignment) : Within (as ++ [a]) o' := by
  obtain ⟨clock, rfl⟩ := hsame
  obtain ⟨hevents, hquestions, hledgers, hqueries⟩ := h
  have hscreens : as.countP isScreen ≤ (as ++ [a]).countP isScreen :=
    (List.sublist_append_left as [a]).countP_le
  have hregistrations : as.countP isRegistration ≤ (as ++ [a]).countP isRegistration :=
    (List.sublist_append_left as [a]).countP_le
  have hintake := card_messagesOf_mono as a .handleIntake
  have hpropose := card_messagesOf_mono as a .propose
  have hconfirm := card_messagesOf_mono as a .confirm
  refine ⟨?_, hquestions.trans hpropose, hledgers.trans hscreens, ?_⟩
  · refine hevents.trans ?_
    omega
  · refine hqueries.trans ?_
    omega

/--
**Sending again costs nothing.**

In any run of all three services the log has at most one event for each message that
was taken in, one for each that was proposed, three for each that was confirmed and
one for each registration. The classifier was asked at most once for each message
that was proposed, and the adapters at most three times for each screen.
-/
theorem costs_bounded (env : OfficeEnv) (registry : CaseRegistry) (ids : Stream' PyStr) (as : List Assignment) :
    Within as (Machine.run (office env) (Office.init registry ids) as) := by
  induction as using List.reverseRecOn with
  | nil => exact ⟨Nat.zero_le _, Nat.zero_le _, Nat.zero_le _, Nat.zero_le _⟩
  | append_singleton as a ih =>
      rw [Machine.run_concat]
      by_cases hrepeats : ∃ b ∈ as, b.repeats a = true
      · obtain ⟨b, hb, h⟩ := hrepeats
        obtain ⟨answer, hsettled⟩ := settled_of_repeats env (Office.init registry ids) hb h
        exact within_repeated ih hsettled.answer.2 a
      · refine within_fresh ih fun b hb => ?_
        rw [← Bool.not_eq_true]
        exact fun h => hrepeats ⟨b, hb, h⟩

end Intake.Proof
