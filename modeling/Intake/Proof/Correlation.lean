import Intake.Proof.Finality

/-!
# One correlation id for one message

A proposal draws a correlation id and its confirmation takes it over. Nothing else
is taken over: a confirmation without a proposal draws an id of its own, also if
the message was triaged at ingress under another one, and so does a proposal that
comes after the confirmation.

`InOrder` names the two steps that start a second thread of events for a message.
In a run without them everything logged for a message is correlated, because a
thread is started only for a message the log is silent about.
-/

namespace Intake.Proof

open IntakeService ClassificationService EventLog

/-! ## The events of one call -/

/-- **What one call logs is correlated**, and a confirmation takes the id of the proposal. -/
theorem Served.correlation {env : Env} {w : World} {call : MessageCall} {reply : Reply} {f : Effect}
    (h : Served env w call reply f) :
    ∃ cid, (∀ x ∈ f.drafts, x.correlationId = cid)
      ∧ ∀ m d p, call = .confirm m d → f.drafts ≠ [] →
        w.eventFor m.messageId .classificationProposed = some p → cid = p.correlationId := by
  cases h with
  | intakeReplayed | proposeReplayed | proposeAfterIntake =>
      exact ⟨[], fun x hx => absurd hx List.not_mem_nil, fun _ _ _ hcall => by cases hcall⟩
  | confirmReplayed | confirmConflict =>
      exact ⟨[], fun x hx => absurd hx List.not_mem_nil, fun _ _ _ _ hne => absurd rfl hne⟩
  | @intakeAuthorised _ _ cid =>
      exact ⟨cid, fun x hx => by rw [List.mem_singleton.mp hx]; rfl, fun _ _ _ hcall => by cases hcall⟩
  | @intakeTriaged _ _ _ cid =>
      exact ⟨cid, fun x hx => by rw [List.mem_singleton.mp hx]; rfl, fun _ _ _ hcall => by cases hcall⟩
  | @proposeDenied _ _ _ _ cid =>
      exact ⟨cid, fun x hx => by rw [List.mem_singleton.mp hx]; rfl, fun _ _ _ hcall => by cases hcall⟩
  | @proposeAsked _ _ cid _ _ _ _ _ _ ask =>
      refine ⟨cid, fun x hx => ?_, fun _ _ _ hcall => by cases hcall⟩
      cases ask with
      | _ => rw [List.mem_singleton.mp hx]; rfl
  | @confirmed m d cid _ _ _ _ hcid hr =>
      refine ⟨cid, fun x hx => ?_, fun m' d' p hcall _ hp => ?_⟩
      · rcases List.mem_append.mp hx with hx | hx
        · rcases List.mem_append.mp hx with hx | hx
          · rw [mem_corrections hx]; rfl
          · obtain ⟨auth, rfl⟩ := hr.drafts_eq x hx
            rfl
        · rw [List.mem_singleton.mp hx]; rfl
      · cases hcall
        exact hcid p hp

/-! ## A silent log -/

theorem Wrote.named {m : IntakeMessage} {d : AuditDraft} (h : Wrote m d) :
    OncePerMessage d.action ∨ OnReview d.action := by
  cases h with
  | granted | refused => exact Or.inl (Or.inl rfl)
  | escalated | pending => exact Or.inl (Or.inr (Or.inl rfl))
  | correction => exact Or.inr (Or.inl rfl)
  | check => exact Or.inr (Or.inr rfl)
  | confirmation => exact Or.inl (Or.inr (Or.inr rfl))

/-- Only five actions name a message. -/
theorem named_reachable {env : Env} {w : World} (h : Reachable env w) :
    ∀ d ∈ w.trail, d.messageId ≠ none → OncePerMessage d.action ∨ OnReview d.action := by
  refine h.trail_forall (P := fun d => d.messageId ≠ none → OncePerMessage d.action ∨ OnReview d.action)
    (fun _ _ hd _ => hd.named) ?_
  intro d _ hnone hid
  exact absurd hnone hid

/-- **Without a decision, a proposal and a confirmation there is nothing at all.** -/
theorem silent_of_unseen {env : Env} {w : World} (hw : Reachable env w) {x : MessageId}
    (hentered : ¬ Entered w x) (hconfirmed : w.eventFor x .classificationConfirmed = none) :
    ∀ d ∈ w.trail, d.messageId ≠ some x := by
  intro d hd hid
  obtain ⟨hp, hi⟩ := not_entered.mp hentered
  -- whichever action the event has, its lookup is empty
  have hnone : latest (AuditDraft.isFor x d.action) w.trail = none := by
    rcases named_reachable hw d hd (by simp [hid]) with (ha | ha | ha) | ha
    · rw [ha]; exact World.eventFor_eq_none.mp hi
    · rw [ha]; exact World.eventFor_eq_none.mp hp
    · rw [ha]; exact World.eventFor_eq_none.mp hconfirmed
    · exact (reviewed_reachable hw).closed x d.action ha hconfirmed
  exact AuditDraft.latest_isFor.mp hnone d hd rfl hid

/-! ## Runs in order -/

/-- The request is not an intake: it reviews a message, or changes the registry. -/
def OfReview (req : Request) : Prop := ∀ m, req.call ≠ .message (.handleIntake m)

/--
The request starts no second thread for a message: a confirmed message is proposed
only if it was entered, and a message triaged at ingress is not confirmed.
-/
structure InOrder (w : World) (req : Request) : Prop where
  propose : ∀ m text, req.call = .message (.propose m text) →
    (∃ e, w.eventFor m.messageId .classificationConfirmed = some e) →
    (∃ e, w.eventFor m.messageId .classificationProposed = some e)
      ∨ ∃ e, w.eventFor m.messageId .intakeDecision = some e
  confirm : ∀ m d, req.call = .message (.confirm m d) →
    (∃ e, w.eventFor m.messageId .intakeDecision = some e) →
    (∃ e, w.eventFor m.messageId .classificationProposed = some e)
      ∨ ∃ e, w.eventFor m.messageId .classificationConfirmed = some e

/-- **One message, one correlation id**, and the proposal comes before the confirmation. -/
structure Correlated (w : World) : Prop where
  shared : ∀ e₁ ∈ w.audit, ∀ e₂ ∈ w.audit, ∀ x, e₁.messageId = some x → e₂.messageId = some x →
    e₁.correlationId = e₂.correlationId
  ordered : ∀ p ∈ w.audit, ∀ e ∈ w.audit, ∀ x, p.messageId = some x → e.messageId = some x →
    p.action = .classificationProposed → e.action = .classificationConfirmed → p.sequence < e.sequence

theorem correlated_init (registry : CaseRegistry) (ids : Stream' PyStr) :
    Correlated (World.init registry ids) :=
  ⟨fun _ h => absurd h List.not_mem_nil, fun _ h => absurd h List.not_mem_nil⟩

/-- A batch that is correlated with what the log says about its message, and proposes nothing confirmed. -/
theorem correlated_of_applied {w w' : World} {f : Effect} (h : Correlated w) (happ : Applied w f w')
    (hseq : Sequenced w')
    (hcid : ∀ d ∈ f.drafts, ∀ d' ∈ w'.trail, ∀ x, d.messageId = some x → d'.messageId = some x →
      d'.correlationId = d.correlationId)
    (hnew : ∀ d ∈ f.drafts, ∀ d' ∈ w'.trail, ∀ x, d.messageId = some x → d'.messageId = some x →
      d.action = .classificationProposed → d'.action ≠ .classificationConfirmed) : Correlated w' := by
  obtain ⟨es, hes, hmap⟩ := happ.appended
  have hdraft : ∀ e ∈ es, e.toAuditDraft ∈ f.drafts := fun e he => hmap ▸ List.mem_map_of_mem he
  have htrail : ∀ e ∈ w'.audit, e.toAuditDraft ∈ w'.trail := fun e he => List.mem_map_of_mem he
  have hcases : ∀ e ∈ w'.audit, e ∈ w.audit ∨ e ∈ es := fun e he => List.mem_append.mp (hes ▸ he)
  refine ⟨?_, ?_⟩
  · intro e₁ h₁ e₂ h₂ x hx₁ hx₂
    rcases hcases e₁ h₁ with ho₁ | hn₁
    · rcases hcases e₂ h₂ with ho₂ | hn₂
      · exact h.shared e₁ ho₁ e₂ ho₂ x hx₁ hx₂
      · exact hcid _ (hdraft e₂ hn₂) _ (htrail e₁ h₁) x hx₂ hx₁
    · exact (hcid _ (hdraft e₁ hn₁) _ (htrail e₂ h₂) x hx₁ hx₂).symm
  · intro p hp e he x hxp hxe hap hae
    rcases hcases p hp with hop | hnp
    · rcases hcases e he with hoe | hne
      · exact h.ordered p hop e hoe x hxp hxe hap hae
      · rw [Sequenced, hes] at hseq
        exact hseq.lt_of_mem hop hne
    · exact absurd hae (hnew _ (hdraft p hnp) _ (htrail e he) x hxp hxe hap)

/-- Events of one message in one batch, over a log that has none of it. -/
theorem correlated_of_silent {env : Env} {w w' : World} {call : MessageCall} {reply : Reply} {f : Effect}
    (h : Correlated w) (hs : Served env w call reply f) (happ : Applied w f w') (hseq : Sequenced w')
    (hsilent : ∀ d ∈ w.trail, d.messageId ≠ some call.message.messageId)
    (hnew : ∀ d ∈ f.drafts, ∀ d' ∈ f.drafts, d.action = .classificationProposed →
      d'.action ≠ .classificationConfirmed) : Correlated w' := by
  obtain ⟨cid, hcid, _⟩ := hs.correlation
  -- whoever shares the message of a new event is new itself
  have hbatch : ∀ d ∈ f.drafts, ∀ d' ∈ w'.trail, ∀ x, d.messageId = some x → d'.messageId = some x →
      d' ∈ f.drafts := by
    intro d hd d' hd' x hx hx'
    rw [happ.trail] at hd'
    rcases List.mem_append.mp hd' with ho | hn
    · rw [(hs.wrote d hd).messageId] at hx
      exact absurd (hx'.trans hx.symm) (hsilent d' ho)
    · exact hn
  refine correlated_of_applied h happ hseq ?_ ?_
  · intro d hd d' hd' x hx hx'
    rw [hcid d hd, hcid d' (hbatch d hd d' hd' x hx hx')]
  · intro d hd d' hd' x hx hx'
    exact hnew d hd d' (hbatch d hd d' hd' x hx hx')

theorem correlated_step {env : Env} {w : World} (hw : Reachable env w) {req : Request} (h : Correlated w)
    (hreview : OfReview req) (horder : InOrder w req) : Correlated (system env w req).2 := by
  have hseq := sequenced_reachable (hw.step req)
  have hstart : ∀ r, Correlated { w.during req.clock with registry := r } := fun _ => ⟨h.shared, h.ordered⟩
  have hnothing : ∀ {v : World} {f : Effect}, Correlated v → Applied v f (system env w req).2 →
      (∀ d ∈ f.drafts, d.messageId = none) → Correlated (system env w req).2 := by
    intro v f hv happ hnone
    refine correlated_of_applied hv happ hseq ?_ ?_
    · intro d hd d' _ x hx _
      exact absurd ((hnone d hd).symm.trans hx) (by simp)
    · intro d hd d' _ x hx _
      exact absurd ((hnone d hd).symm.trans hx) (by simp)
  rcases system_step env w req with ⟨call, f, hcall, hs, happ⟩ | ⟨r, f, hreg, _, _, _, happ⟩
  case inr => exact hnothing (hstart r) happ fun d hd => (hreg d hd).2
  by_cases hdrafts : f.drafts = []
  · exact hnothing (hstart w.registry) happ fun d hd => absurd hd (by simp [hdrafts])
  cases call with
  | handleIntake m => exact absurd hcall (hreview m)
  | propose m text =>
      -- something was logged, so the message was new to both lookups, and then it was not confirmed
      have hentered : ¬ Entered w m.messageId := fun he => hdrafts (by rw [hs.propose_silent he])
      have hconfirmed : w.eventFor m.messageId .classificationConfirmed = none :=
        Option.eq_none_iff_forall_ne_some.mpr fun e he => hentered (horder.propose m text hcall ⟨e, he⟩)
      refine correlated_of_silent (hstart w.registry) hs happ hseq (silent_of_unseen hw hentered hconfirmed) ?_
      intro d _ d' hd' _
      rcases hs.confirm_or with ⟨_, _, hconfirm⟩ | honly
      · cases hconfirm
      · rcases honly d' hd' with ha | ha <;> simp [ha]
  | confirm m d =>
      rcases hs.word with ⟨_, hnil⟩ | ⟨hconfirmed, corrected, checked, hword⟩
      · exact absurd hnil hdrafts
      have hnoproposal : ∀ x ∈ f.drafts, x.action ≠ .classificationProposed := by
        intro x hx ha
        have hmem : x.action ∈ confirmWord corrected checked := hword ▸ List.mem_map_of_mem hx
        rw [ha] at hmem
        cases corrected <;> cases checked <;> exact absurd hmem (by decide)
      cases hp : w.eventFor m.messageId .classificationProposed with
      | none =>
          have hundecided : w.eventFor m.messageId .intakeDecision = none := by
            cases hi : w.eventFor m.messageId .intakeDecision with
            | none => rfl
            | some e =>
                rcases horder.confirm m d hcall ⟨e, hi⟩ with ⟨e', he'⟩ | ⟨e', he'⟩
                · exact absurd (hp.symm.trans he') (by simp)
                · exact absurd (hconfirmed.symm.trans he') (by simp)
          have hentered : ¬ Entered w m.messageId := not_entered.mpr ⟨hp, hundecided⟩
          exact correlated_of_silent (hstart w.registry) hs happ hseq (silent_of_unseen hw hentered hconfirmed)
            fun x hx _ _ ha => absurd ha (hnoproposal x hx)
      | some p =>
          -- the whole batch takes over the id of the proposal, which the log shares already
          obtain ⟨cid, hcid, htaken⟩ := hs.correlation
          obtain rfl := htaken m d p rfl hdrafts hp
          obtain ⟨hpmem, _, hpid⟩ := World.eventFor_spec hp
          refine correlated_of_applied (hstart w.registry) happ hseq ?_
            fun x hx _ _ _ _ _ ha => absurd ha (hnoproposal x hx)
          intro x hx d' hd' y hy hy'
          rw [hcid x hx]
          rw [happ.trail] at hd'
          rcases List.mem_append.mp hd' with ho | hn
          · obtain ⟨e', he', rfl⟩ := List.mem_map.mp ho
            rw [(hs.wrote x hx).messageId] at hy
            exact h.shared e' he' p hpmem m.messageId (hy'.trans hy.symm) hpid
          · exact hcid d' hn

/--
**When the events of a message are correlated.**

In every run of reviews and registry changes whose steps are all in order, the
events of a message share one correlation id, and a proposal has a smaller
sequence number than the confirmation. Every state reached is one of such a run.
-/
theorem one_correlation_id (env : Env) (registry : CaseRegistry) (ids : Stream' PyStr) (reqs : List Request)
    (hreview : ∀ req ∈ reqs, OfReview req)
    (horder : ∀ pre req post, reqs = pre ++ req :: post → InOrder (runFrom env registry ids pre) req) :
    ∀ n, Correlated (runFrom env registry ids (reqs.take n)) := by
  intro n
  have hguard : ∀ pre req post, reqs = pre ++ req :: post →
      OfReview req ∧ InOrder (runFrom env registry ids pre) req := by
    intro pre req post hcut
    have hmem : req ∈ reqs := by
      rw [hcut]
      simp
    exact ⟨hreview req hmem, horder pre req post hcut⟩
  exact (Machine.run_guarded_take (M := system env) (P := fun w => Reachable env w ∧ Correlated w)
    (G := fun w req => OfReview req ∧ InOrder w req)
    (fun w req hw hreq => ⟨hw.1.step req, correlated_step hw.1 hw.2 hreq.1 hreq.2⟩)
    ⟨⟨registry, ids, [], rfl⟩, correlated_init registry ids⟩ hguard n).2

/-- A message proposed and then confirmed. -/
theorem one_correlation_id_proposed :
    let m := Sample.message "P" []
    ∀ n, Correlated (runFrom (Sample.env none) Sample.registry Sample.ids
      ([Sample.request (.propose m "text"),
        Sample.request (.confirm m { reviewerId := "R1", confirmedClass := some .response })].take n)) := by
  intro m
  refine one_correlation_id (Sample.env none) Sample.registry Sample.ids _ ?_ ?_
  · intro req hreq m' hcall
    simp only [List.mem_cons, List.not_mem_nil, or_false] at hreq
    rcases hreq with rfl | rfl <;> cases hcall
  · intro pre req post hcut
    -- neither request finds the event that would make it disorderly
    match pre with
    | [] =>
        obtain ⟨rfl, _⟩ := List.cons_eq_cons.mp hcut
        refine ⟨?_, fun _ _ hcall => by cases hcall⟩
        rintro _ _ hcall ⟨e, he⟩
        cases hcall
        cases he
    | [first] =>
        obtain ⟨rfl, hrest⟩ := List.cons_eq_cons.mp hcut
        obtain ⟨rfl, _⟩ := List.cons_eq_cons.mp hrest
        refine ⟨(fun _ _ hcall => by cases hcall), ?_⟩
        rintro _ _ hcall ⟨e, he⟩
        cases hcall
        cases he
    | _ :: _ :: _ => simp at hcut

/--
A message triaged at ingress and then confirmed has two correlation ids. So has
one confirmed and then proposed, and its proposal comes second.
-/
theorem two_correlation_ids :
    let confirmation : HumanDecision := { reviewerId := "R1", confirmedClass := some .response }
    let denied := Sample.message "P2" ["CASE-1"]
    let plain := Sample.message "P" []
    let w₁ := runFrom (Sample.env none) Sample.registry Sample.ids
      [Sample.request (.propose denied "text"), Sample.request (.confirm denied confirmation)]
    let w₂ := runFrom (Sample.env none) Sample.registry Sample.ids
      [Sample.request (.confirm plain confirmation), Sample.request (.propose plain "text")]
    (∃ e₁ e₂, w₁.audit = [e₁, e₂] ∧ e₁.messageId = some "M1" ∧ e₂.messageId = some "M1"
        ∧ e₁.correlationId ≠ e₂.correlationId)
      ∧ ∃ e₁ e₂, w₂.audit = [e₁, e₂] ∧ e₁.messageId = some "M1" ∧ e₂.messageId = some "M1"
        ∧ e₁.correlationId ≠ e₂.correlationId ∧ e₁.action = .classificationConfirmed
        ∧ e₂.action = .classificationProposed ∧ e₁.sequence < e₂.sequence :=
  ⟨⟨_, _, rfl, rfl, rfl, by decide⟩, ⟨_, _, rfl, rfl, rfl, by decide, rfl, rfl, by decide⟩⟩

end Intake.Proof
