import Intake.Proof.Transcript

/-!
# The text of a message

The text of a message is handed to `propose` and is not to be kept: only a digest of
the body is. The code passes it on to the classifier, in the projection, and the
classifier answers as it likes.

`text_only_through_answers` says that this is the one way the text can show. Two
runs that differ in nothing but texts, and in which the classifier gives the same
answers one after the other, give the same replies and leave the same log, queues
and registry. The two classifiers need not even be the same.
-/

namespace Intake.Proof

open IntakeService ClassificationService EventLog

/-! ## Worlds and requests that differ in texts -/

/-- One world, but for what the classifier was shown. -/
def SameButShown (w₁ w₂ : World) : Prop := ∃ shown, w₂ = { w₁ with classified := shown }

/-- One call, but for the text. -/
inductive SameButText : Call → Call → Prop where
  | propose (m : IntakeMessage) (text text' : PyStr) :
      SameButText (.message (.propose m text)) (.message (.propose m text'))
  | same (call : Call) : SameButText call call

/-- One request, but for the text. -/
structure SameRequest (req₁ req₂ : Request) : Prop where
  call : SameButText req₁.call req₂.call
  clock : req₁.clock = req₂.clock

/--
What two calls do, next to each other: each shows the classifier something or
nothing, and if the answers to that are the same, so is everything else.
-/
structure AgreeOnAnswers (env₁ env₂ : Env) (w₁ w₂ w₁' w₂' : World) (replies : Prop) : Prop where
  agree : ∃ s₁ s₂, w₁'.classified = w₁.classified ++ s₁ ∧ w₂'.classified = w₂.classified ++ s₂
    ∧ s₁.length = s₂.length
    ∧ (Machine.outputs (classifier env₁) w₁.classified s₁
        = Machine.outputs (classifier env₂) w₂.classified s₂ →
      replies ∧ SameButShown w₁' w₂')

/-! ## Calls that show nothing -/

/-- A classifier that is never asked. -/
def unasked : Env := ⟨fun _ => "", fun _ _ => none⟩

theorem sameButShown_unwinding (m : IntakeMessage) :
    Unwinding View.exact unasked unasked m SameButShown where
  gate := by
    rintro w₁ _ ⟨s, rfl⟩ c t
    rfl
  newId := by
    rintro w₁ _ ⟨s, rfl⟩
    exact ⟨rfl, s, rfl⟩
  now := by
    rintro w₁ _ ⟨s, rfl⟩
    exact ⟨rfl, s, rfl⟩
  append := by
    rintro w₁ _ ⟨s, rfl⟩ d₁ d₂ hd
    obtain rfl : d₁ = d₂ := hd
    exact ⟨s, rfl⟩
  enqueueTriage := by
    rintro w₁ _ ⟨s, rfl⟩ reason
    exact ⟨s, rfl⟩
  enqueueTask := by
    rintro w₁ _ ⟨s, rfl⟩ subtype missing i₁ i₂ hi
    obtain rfl : i₁ = i₂ := hi
    exact ⟨s, rfl⟩
  classify := by
    rintro w₁ _ ⟨s, rfl⟩ shown
    exact ⟨rfl, s ++ [shown], rfl⟩
  eventFor := by
    rintro w₁ _ ⟨s, rfl⟩ a _
    cases hevent : w₁.eventFor m.messageId a with
    | none => exact Or.inl ⟨rfl, hevent⟩
    | some e => exact Or.inr ⟨e, e, rfl, hevent, rfl⟩
  openConfirmation := by
    rintro w₁ _ ⟨s, rfl⟩ d
    have hsame : World.eventFor { w₁ with classified := s } m.messageId .classificationProposed
        = w₁.eventFor m.messageId .classificationProposed := rfl
    unfold ClassificationService.openConfirmation
    rw [hsame]
    cases w₁.eventFor m.messageId .classificationProposed with
    | none => exact ⟨rfl, s, rfl⟩
    | some proposed =>
        dsimp only
        split_ifs
        · exact ⟨rfl, s, rfl⟩
        · exact ⟨rfl, s, rfl⟩

theorem exact_reply (r : Reply) : View.exact.reply r = r := by
  cases r with
  | intake r => cases r <;> rfl
  | proposal r => rfl
  | confirmation r => rfl
  | registry r => rfl

section Calls

variable {env₁ env₂ : Env} {w₁ w₂ : World}

/-- Two calls that show nothing. -/
theorem agree_silent {w₁' w₂' : World} {replies : Prop} (h₁ : w₁'.classified = w₁.classified)
    (h₂ : w₂'.classified = w₂.classified) (h : replies ∧ SameButShown w₁' w₂') :
    AgreeOnAnswers env₁ env₂ w₁ w₂ w₁' w₂' replies :=
  ⟨[], [], by rw [h₁, List.append_nil], by rw [h₂, List.append_nil], rfl, fun _ => h⟩

/-- Only `propose` asks. -/
theorem Served.silent {env : Env} {w : World} {call : MessageCall} {reply : Reply} {f : Effect}
    (h : Served env w call reply f) (hcall : ∀ m text, call ≠ .propose m text) : f.asked = [] := by
  cases h with
  | intakeReplayed | intakeAuthorised | intakeTriaged | confirmReplayed | confirmConflict => rfl
  | proposeReplayed | proposeAfterIntake | proposeDenied | proposeAsked => exact absurd rfl (hcall _ _)
  | confirmed _ _ hr => exact hr.asked

/-- A call of a message that is not a proposal. -/
theorem serve_agree (h : SameButShown w₁ w₂) {call : MessageCall} (hcall : ∀ m text, call ≠ .propose m text) :
    AgreeOnAnswers env₁ env₂ w₁ w₂ (serve env₁ w₁ call).2 (serve env₂ w₂ call).2
      ((serve env₁ w₁ call).1 = (serve env₂ w₂ call).1) := by
  have hclassified : ∀ (env : Env) (w : World), (serve env w call).2.classified = w.classified := by
    intro env w
    obtain ⟨f, hs, happ⟩ := serve_served env w call
    rw [happ.classified, hs.silent hcall, List.append_nil]
  -- without a proposal the classifier plays no part
  have hunasked : ∀ (env : Env) (w : World), serve env w call = serve unasked w call := by
    intro env w
    cases call with
    | handleIntake | confirm => rfl
    | propose m text => exact absurd rfl (hcall m text)
  refine agree_silent (hclassified env₁ w₁) (hclassified env₂ w₂) ?_
  rw [hunasked env₁, hunasked env₂]
  obtain ⟨hreply, hw⟩ := serve_unwinds (sameButShown_unwinding call.message) h
  refine ⟨?_, hw⟩
  rw [exact_reply, exact_reply] at hreply
  exact hreply

/-- What is made of an answer. -/
def conclude (m : IntakeMessage) (cid : PyStr) (w : World) : Option ClassificationProposal → ProposalResult × World
  | none => triageProposal w m none .classifierError cid
  | some p =>
      match p.triageReason with
      | some reason => triageProposal w m (some p) reason cid
      | none => (⟨some p, false⟩, recordProposal w m (some p) .pending none cid)

theorem askClassifier_eq (env : Env) (w : World) (m : IntakeMessage) (text cid : PyStr) :
    askClassifier env w m text cid
      = conclude m cid (shownWorld env w (projectionAt w.registry w.clock.head m text))
        (env.classify w.classified (projectionAt w.registry w.clock.head m text)) := by
  unfold askClassifier
  dsimp only
  generalize hx : ClassificationService.classify env (authorisedCandidates w m).2 _ = x
  have hanswer : env.classify w.classified (projectionAt w.registry w.clock.head m text) = x.1 := hx ▸ rfl
  have hworld : shownWorld env w (projectionAt w.registry w.clock.head m text) = x.2 := hx ▸ rfl
  rw [hanswer, hworld]
  obtain ⟨answer, w₁⟩ := x
  cases answer <;> rfl

theorem conclude_agree (h : SameButShown w₁ w₂) (m : IntakeMessage) (cid : PyStr)
    (answer : Option ClassificationProposal) :
    (conclude m cid w₁ answer).1 = (conclude m cid w₂ answer).1
      ∧ SameButShown (conclude m cid w₁ answer).2 (conclude m cid w₂ answer).2 := by
  obtain ⟨s, rfl⟩ := h
  cases answer with
  | none => exact ⟨rfl, s, rfl⟩
  | some p =>
      unfold conclude
      dsimp only
      cases p.triageReason with
      | some reason => exact ⟨rfl, s, rfl⟩
      | none => exact ⟨rfl, s, rfl⟩

/-- The classifier is asked on both sides. -/
theorem askClassifier_agree (h : SameButShown w₁ w₂) (m : IntakeMessage) (text text' cid : PyStr) :
    AgreeOnAnswers env₁ env₂ w₁ w₂ (askClassifier env₁ w₁ m text cid).2 (askClassifier env₂ w₂ m text' cid).2
      ((askClassifier env₁ w₁ m text cid).1 = (askClassifier env₂ w₂ m text' cid).1) := by
  obtain ⟨f₁, ha₁, happ₁⟩ := askClassifier_asked env₁ w₁ m text cid
  obtain ⟨f₂, ha₂, happ₂⟩ := askClassifier_asked env₂ w₂ m text' cid
  refine ⟨_, _, happ₁.classified, happ₂.classified, by rw [ha₁.shown, ha₂.shown]; rfl, fun hanswers => ?_⟩
  rw [ha₁.shown, ha₂.shown] at hanswers
  have hanswer : env₁.classify w₁.classified (projectionAt w₁.registry w₁.clock.head m text)
      = env₂.classify w₂.classified (projectionAt w₂.registry w₂.clock.head m text') :=
    List.head_eq_of_cons_eq hanswers
  rw [askClassifier_eq, askClassifier_eq, hanswer]
  obtain ⟨s, rfl⟩ := h
  exact conclude_agree ⟨_, rfl⟩ m cid _

/-- A proposal, with one text and with the other. -/
theorem propose_agree (env₁ env₂ : Env) (h : SameButShown w₁ w₂) (m : IntakeMessage) (text text' : PyStr) :
    AgreeOnAnswers env₁ env₂ w₁ w₂ (propose env₁ w₁ m text).2 (propose env₂ w₂ m text').2
      ((propose env₁ w₁ m text).1 = (propose env₂ w₂ m text').1) := by
  obtain ⟨s, rfl⟩ := h
  have hevent : ∀ a, World.eventFor { w₁ with classified := s } m.messageId a = w₁.eventFor m.messageId a :=
    fun _ => rfl
  unfold propose
  rw [hevent, hevent]
  cases w₁.eventFor m.messageId .classificationProposed with
  | some proposed => exact agree_silent rfl rfl ⟨rfl, s, rfl⟩
  | none =>
      dsimp only
      cases w₁.eventFor m.messageId .intakeDecision with
      | some prior => exact agree_silent rfl rfl ⟨rfl, s, rfl⟩
      | none =>
          dsimp only
          split
          · rename_i c _
            have hgate : (authorise (World.newId { w₁ with classified := s }).2.now.2.registry m.principalId c
                (World.newId { w₁ with classified := s }).2.now.1)
              = authorise w₁.newId.2.now.2.registry m.principalId c w₁.newId.2.now.1 := rfl
            rw [hgate]
            split_ifs
            · exact agree_silent rfl rfl ⟨rfl, s, rfl⟩
            · have hshown : SameButShown w₁.newId.2.now.2 (World.newId { w₁ with classified := s }).2.now.2 :=
                ⟨s, rfl⟩
              exact ⟨(askClassifier_agree hshown m text text' w₁.newId.1).agree⟩
          · have hshown : SameButShown w₁.newId.2 (World.newId { w₁ with classified := s }).2 := ⟨s, rfl⟩
            exact ⟨(askClassifier_agree hshown m text text' w₁.newId.1).agree⟩

/-- The same, as a call. -/
theorem serve_propose_agree (h : SameButShown w₁ w₂) (m : IntakeMessage) (text text' : PyStr) :
    AgreeOnAnswers env₁ env₂ w₁ w₂ (serve env₁ w₁ (.propose m text)).2 (serve env₂ w₂ (.propose m text')).2
      ((serve env₁ w₁ (.propose m text)).1 = (serve env₂ w₂ (.propose m text')).1) := by
  obtain ⟨s₁, s₂, h₁, h₂, hlen, hagree⟩ := (propose_agree env₁ env₂ h m text text').agree
  refine ⟨s₁, s₂, h₁, h₂, hlen, fun hanswers => ?_⟩
  obtain ⟨hresult, hw⟩ := hagree hanswers
  exact ⟨congrArg Reply.proposal hresult, hw⟩

/-- A call of the registry has a digest to compute at most, and nothing to ask. -/
theorem registry_agree (hsha : env₁.sha256 = env₂.sha256) (h : SameButShown w₁ w₂) {call : Call}
    (hcall : ∀ m, call ≠ .message m) :
    AgreeOnAnswers env₁ env₂ w₁ w₂ (perform env₁ w₁ call).2 (perform env₂ w₂ call).2
      ((perform env₁ w₁ call).1 = (perform env₂ w₂ call).1) := by
  have U : RegistryUnwinding fun v₁ v₂ =>
      v₁.classified = w₁.classified ∧ v₂.classified = w₂.classified ∧ SameButShown v₁ v₂ :=
    { registry := by
        rintro v₁ _ ⟨_, _, s, rfl⟩
        rfl
      mutate := by
        rintro v₁ _ ⟨h₁, h₂, s, rfl⟩ r
        exact ⟨h₁, h₂, s, rfl⟩
      newId := by
        rintro v₁ _ ⟨h₁, h₂, s, rfl⟩
        exact ⟨h₁, h₂, s, rfl⟩
      record := by
        rintro v₁ _ ⟨h₁, h₂, s, rfl⟩ c subjectDigest
        exact ⟨h₁, h₂, s, rfl⟩ }
  obtain ⟨hreply, h₁, h₂, hw⟩ := U.perform hsha ⟨rfl, rfl, h⟩ hcall
  exact agree_silent h₁ h₂ ⟨hreply, hw⟩

/-- **The step lemma.** -/
theorem system_agree (env₁ env₂ : Env) (hsha : env₁.sha256 = env₂.sha256) (h : SameButShown w₁ w₂)
    {req₁ req₂ : Request} (hreq : SameRequest req₁ req₂) :
    AgreeOnAnswers env₁ env₂ w₁ w₂ (system env₁ w₁ req₁).2 (system env₂ w₂ req₂).2
      ((system env₁ w₁ req₁).1 = (system env₂ w₂ req₂).1) := by
  obtain ⟨call₁, clock⟩ := req₁
  obtain ⟨call₂, clock'⟩ := req₂
  obtain ⟨hcall, hclock⟩ := hreq
  dsimp only at hcall hclock
  subst hclock
  have hduring : SameButShown (w₁.during clock) (w₂.during clock) := by
    obtain ⟨s, rfl⟩ := h
    exact ⟨s, rfl⟩
  cases hcall with
  | propose m text text' => exact ⟨(serve_propose_agree hduring m text text').agree⟩
  | same =>
      by_cases hmessage : ∃ call, call₁ = .message call
      · obtain ⟨call, rfl⟩ := hmessage
        by_cases hpropose : ∃ m text, call = .propose m text
        · obtain ⟨m, text, rfl⟩ := hpropose
          exact ⟨(serve_propose_agree hduring m text text).agree⟩
        · exact ⟨(serve_agree hduring (fun m text heq => hpropose ⟨m, text, heq⟩)).agree⟩
      · exact ⟨(registry_agree hsha hduring fun m hm => hmessage ⟨m, hm⟩).agree⟩

end Calls

/-! ## Whole runs -/

theorem classified_grows (env : Env) (w : World) (reqs : List Request) :
    w.classified <+: (Machine.run (system env) w reqs).classified :=
  Machine.run_prefix (fun w req => ⟨_, (system_shows env w req).1.symm⟩) w reqs

/--
The run lemma. A step shows both classifiers equally much, so that equal answers to
all of a run are equal answers to its first step, and to the rest of it.
-/
theorem runs_agree (env₁ env₂ : Env) (hsha : env₁.sha256 = env₂.sha256) {reqs₁ reqs₂ : List Request}
    (hreqs : List.Forall₂ SameRequest reqs₁ reqs₂) {w₁ w₂ : World} (h : SameButShown w₁ w₂)
    {s₁ s₂ : List MessageProjection}
    (h₁ : (Machine.run (system env₁) w₁ reqs₁).classified = w₁.classified ++ s₁)
    (h₂ : (Machine.run (system env₂) w₂ reqs₂).classified = w₂.classified ++ s₂)
    (hanswers : Machine.outputs (classifier env₁) w₁.classified s₁
      = Machine.outputs (classifier env₂) w₂.classified s₂) :
    Machine.outputs (system env₁) w₁ reqs₁ = Machine.outputs (system env₂) w₂ reqs₂
      ∧ SameButShown (Machine.run (system env₁) w₁ reqs₁) (Machine.run (system env₂) w₂ reqs₂) := by
  induction hreqs generalizing w₁ w₂ s₁ s₂ with
  | nil => exact ⟨rfl, h⟩
  | @cons req₁ req₂ rest₁ rest₂ hreq _ ih =>
      obtain ⟨a₁, a₂, ha₁, ha₂, hlen, hagree⟩ := (system_agree env₁ env₂ hsha h hreq).agree
      rw [Machine.run_cons] at h₁ h₂
      obtain ⟨r₁, hr₁⟩ := classified_grows env₁ (system env₁ w₁ req₁).2 rest₁
      obtain ⟨r₂, hr₂⟩ := classified_grows env₂ (system env₂ w₂ req₂).2 rest₂
      have hs₁ : s₁ = a₁ ++ r₁ := by
        rw [← hr₁, ha₁, List.append_assoc] at h₁
        exact (List.append_cancel_left h₁).symm
      have hs₂ : s₂ = a₂ ++ r₂ := by
        rw [← hr₂, ha₂, List.append_assoc] at h₂
        exact (List.append_cancel_left h₂).symm
      rw [hs₁, hs₂, Machine.outputs_append, Machine.outputs_append, run_classifier, run_classifier, ← ha₁,
        ← ha₂] at hanswers
      obtain ⟨hfirst, hrest⟩ :=
        List.append_inj hanswers (by rw [Machine.length_outputs, Machine.length_outputs, hlen])
      obtain ⟨hreply, hw⟩ := hagree hfirst
      obtain ⟨hreplies, hend⟩ := ih hw hr₁.symm hr₂.symm hrest
      refine ⟨?_, hend⟩
      show _ :: _ = _ :: _
      rw [hreply, hreplies]

/--
**The text shows only through the answers.**

Two runs from one registry whose requests differ in texts only, before two
classifiers that may be different: if the classifiers give the same answers in the
same order, all replies are the same, and at the end so is everything but what the
classifiers were shown.
-/
theorem text_only_through_answers (env : Env)
    (classify' : List MessageProjection → MessageProjection → Option ClassificationProposal)
    (registry : CaseRegistry) (ids : Stream' PyStr) (reqs reqs' : List Request)
    (hreqs : List.Forall₂ SameRequest reqs reqs') :
    let env' := { env with classify := classify' }
    let w := runFrom env registry ids reqs
    let w' := runFrom env' registry ids reqs'
    Machine.outputs (classifier env) [] w.classified = Machine.outputs (classifier env') [] w'.classified →
      Machine.outputs (system env) (World.init registry ids) reqs
          = Machine.outputs (system env') (World.init registry ids) reqs'
        ∧ w' = { w with classified := w'.classified } := by
  intro env' w w' hanswers
  have hstart : SameButShown (World.init registry ids) (World.init registry ids) := ⟨[], rfl⟩
  obtain ⟨hreplies, s, hs⟩ := runs_agree env env' rfl hreqs hstart
    (List.nil_append _).symm (List.nil_append _).symm hanswers
  refine ⟨hreplies, ?_⟩
  have hw : w' = { w with classified := s } := hs
  have hshown : w'.classified = s := by rw [hw]
  rw [hshown]
  exact hw

theorem text_only_through_answers_sample :
    let reqs := [Sample.request (.propose (Sample.message "P" ["CASE-1"]) "a text")]
    let reqs' := [Sample.request (.propose (Sample.message "P" ["CASE-1"]) "another")]
    Machine.outputs (system (Sample.env none)) Sample.world reqs
        = Machine.outputs (system (Sample.env none)) Sample.world reqs'
      ∧ Machine.run (system (Sample.env none)) Sample.world reqs
        ≠ Machine.run (system (Sample.env none)) Sample.world reqs' := by
  intro reqs reqs'
  refine ⟨?_, ?_⟩
  · exact (text_only_through_answers (Sample.env none) (Sample.env none).classify Sample.registry Sample.ids reqs
      reqs' (.cons ⟨.propose _ _ _, rfl⟩ .nil) rfl).1
  · intro heq
    have hshown := congrArg World.classified heq
    revert hshown
    decide

end Intake.Proof
