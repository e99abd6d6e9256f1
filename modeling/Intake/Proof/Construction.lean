import Intake.Proof.Vetting

/-!
# A service that could be constructed

A screen looks its adapters up in a mapping, and a failed lookup would be filed as a
failure of the source. The constructor rules that out: it refuses a mapping in which
a source has no adapter, or one that reports another source. Which of several wrong
entries it names depends on their order, what it accepts does not.

The check is made once, when the service is constructed, and every answer is checked
again, when it comes in. `answers_attributed` is about both: what a ledger says of a
source was said by the adapter configured for it, of the source it reports itself.
-/

namespace Intake.Proof

open EvidenceService AdapterTable

/-! ## What the constructor accepts -/

/-- **A mapping is accepted** exactly if every source has an adapter that reports it. -/
theorem ofMapping_ok_iff (mapping : Dict SourceId SourceAdapter) :
    (∃ table, ofMapping mapping = .ok table)
      ↔ ∀ s, ∃ adapter, mapping.lookup s = some adapter ∧ adapter.sourceId = s := by
  refine ⟨?_, fun hreports => ⟨⟨mapping, hreports⟩, ofMapping_adapters ⟨mapping, hreports⟩⟩⟩
  rintro ⟨table, h⟩
  rw [← ofMapping_keeps h]
  exact table.reports

/-- The order of the entries does not decide, and services with the same entries are the same. -/
theorem ofMapping_perm {mapping mapping' : Dict SourceId SourceAdapter}
    (h : mapping.entries.Perm mapping'.entries) {table : AdapterTable} (htable : ofMapping mapping = .ok table) :
    ∃ table', ofMapping mapping' = .ok table' ∧ table'.fetch = table.fetch := by
  have hlookup : ∀ s, mapping'.lookup s = mapping.lookup s := fun s => (AList.perm_lookup h).symm
  have haccepts := (ofMapping_ok_iff mapping).mp ⟨table, htable⟩
  obtain ⟨table', htable'⟩ := (ofMapping_ok_iff mapping').mpr fun s => (hlookup s).symm ▸ haccepts s
  refine ⟨table', htable', ?_⟩
  funext s query
  unfold AdapterTable.fetch
  rw [ofMapping_keeps htable, ofMapping_keeps htable', hlookup]

/-- What the constructor has to complain of: a source without adapter, or else the first entry that is wrong. -/
def Complaint (mapping : Dict SourceId SourceAdapter) (text : PyStr) : Prop :=
  (∃ s, s ∉ mapping) ∧ text = "exactly one adapter per source is required"
    ∨ (∀ s, s ∈ mapping) ∧ ∃ pre s adapter post, mapping.entries = pre ++ ⟨s, adapter⟩ :: post
      ∧ (∀ entry ∈ pre, entry.2.sourceId = entry.1) ∧ adapter.sourceId ≠ s
      ∧ text = PyStr.ofString "adapter for " ++ s.str ++ PyStr.ofString " reports " ++ adapter.sourceId.str

/-- **And it raises exactly that.** -/
theorem ofMapping_error_iff {mapping : Dict SourceId SourceAdapter} {text : PyStr} :
    ofMapping mapping = .error text ↔ Complaint mapping text := by
  have hall : (∀ s ∈ SourceId.all, s ∈ mapping) ↔ ∀ s, s ∈ mapping :=
    ⟨fun h s => h s (by cases s <;> decide), fun h s _ => h s⟩
  unfold ofMapping Complaint
  split
  · rename_i hkeys
    have hnone : ¬ ∃ s, s ∉ mapping := by
      rintro ⟨s, hs⟩
      exact hs (hall.mp hkeys s)
    split
    · rename_i s adapter hfirst
      obtain ⟨hwrong, pre, post, hcut, hpre⟩ := List.find?_eq_some_iff_append.mp hfirst
      refine ⟨fun h => Or.inr ⟨hall.mp hkeys, pre, s, adapter, post, hcut, fun entry hentry => ?_,
        by simpa using hwrong, (Except.error.inj h).symm⟩, ?_⟩
      · simpa using hpre entry hentry
      · rintro (⟨hs, _⟩ | ⟨_, pre', s', adapter', post', hcut', hpre', hwrong', rfl⟩)
        · exact absurd hs hnone
        -- there is only one first wrong entry
        have hfirst' : mapping.entries.find? (fun entry => entry.2.sourceId ≠ entry.1) = some ⟨s', adapter'⟩ :=
          List.find?_eq_some_iff_append.mpr ⟨by simpa using hwrong', pre', post', hcut', fun entry hentry => by
            simpa using hpre' entry hentry⟩
        rw [hfirst] at hfirst'
        cases hfirst'
        rfl
    · rename_i hfirst
      refine iff_of_false (by simp) ?_
      rintro (⟨hs, _⟩ | ⟨_, pre, s, adapter, post, hcut, _, hwrong, _⟩)
      · exact hnone hs
      · have hright := List.find?_eq_none.mp hfirst ⟨s, adapter⟩ (by simp [hcut])
        exact hwrong (by simpa using hright)
  · rename_i hkeys
    rw [hall] at hkeys
    have hmissing : ∃ s, s ∉ mapping := not_forall.mp hkeys
    refine ⟨fun h => Or.inl ⟨hmissing, (Except.error.inj h).symm⟩, ?_⟩
    rintro (⟨_, rfl⟩ | ⟨h, _⟩)
    · rfl
    · exact absurd h hkeys

/-! ## What a constructed service files -/

/-- The lookup of a source always finds its adapter. -/
theorem fetch_found (table : AdapterTable) (s : SourceId) :
    ∃ adapter, table.adapters.lookup s = some adapter ∧ adapter.sourceId = s
      ∧ ∀ query, table.fetch s query = adapter.fetch query := by
  obtain ⟨adapter, hadapter, hsource⟩ := table.reports s
  refine ⟨adapter, hadapter, hsource, fun query => ?_⟩
  unfold AdapterTable.fetch
  rw [hadapter]

/-- **A screen is made, or there is a complaint** and nothing happens but that time passes. -/
theorem office_constructs (env : OfficeEnv) (o : Office) (manifest : CaseManifest)
    (adapters : Dict SourceId SourceAdapter) (clock : Stream' Instant) :
    let next := office env o ⟨.screen manifest adapters, clock⟩
    ((∃ result, next.1 = .screen result)
        ↔ ∀ s, ∃ adapter, adapters.lookup s = some adapter ∧ adapter.sourceId = s)
      ∧ (∀ text, next.1 = .notConstructed text ↔ Complaint adapters text)
      ∧ ((∃ text, next.1 = .notConstructed text) → next.2 = { o with world := o.world.during clock }) := by
  intro next
  rw [← ofMapping_ok_iff]
  simp only [← ofMapping_error_iff]
  rcases ofMapping_cases adapters with ⟨text, htext⟩ | ⟨table, rfl⟩
  · have hnext : next = (.notConstructed text, { o with world := o.world.during clock }) :=
      office_notConstructed env o manifest htext clock
    rw [hnext, htext]
    refine ⟨by simp, fun text' => ?_, fun _ => rfl⟩
    simp
  · have hnext := office_screen env o manifest table clock
    rw [show next = _ from hnext, ofMapping_adapters]
    exact ⟨by simp, by simp, by simp⟩

/--
**Answers are attributed.**

At any point of any run of all three services, a screen is made exactly if the
mapping it is given has an adapter for each source which reports that source. Else
the constructor raises, naming what is wrong, and no state changes. And take any
record of a stored ledger. The mapping its screen was given has an adapter for the
record's source, the adapter reports that source, and the record says that something
was found, or not found, exactly if the adapter said so, of that source and of the
whole area.
-/
theorem answers_attributed (env : OfficeEnv) (registry : CaseRegistry) (ids : Stream' PyStr)
    (as : List Assignment) :
    let o := Machine.run (office env) (Office.init registry ids) as
    (∀ manifest adapters clock, let next := office env o ⟨.screen manifest adapters, clock⟩
      ((∃ result, next.1 = .screen result)
          ↔ ∀ s, ∃ adapter, adapters.lookup s = some adapter ∧ adapter.sourceId = s)
        ∧ (∀ text, next.1 = .notConstructed text ↔ Complaint adapters text)
        ∧ ((∃ text, next.1 = .notConstructed text) → next.2 = { o with world := o.world.during clock }))
      ∧ ∀ ledger ∈ o.ledgers, ∃ manifest adapters clock, ⟨.screen manifest adapters, clock⟩ ∈ as
        ∧ ledger.caseId = manifest.caseId ∧ ledger.manifestRevision = manifest.revision
        ∧ ∀ r ∈ ledger.records, ∃ adapter query, adapters.lookup r.sourceId = some adapter
          ∧ adapter.sourceId = r.sourceId ∧ buildQuery env.evidence manifest r.sourceId = .ok query
          ∧ ∀ s, s ≠ .unknown → (r.status = s ↔ ∃ result, adapter.fetch query = .returned result
            ∧ result.sourceId = adapter.sourceId ∧ result.coverage = .complete ∧ result.status = s) := by
  intro o
  refine ⟨fun manifest adapters clock => office_constructs env o manifest adapters clock, ?_⟩
  intro ledger hledger
  rcases Machine.run_origin (M := office env) (fun o a => (office_ledgers env o a).1) hledger with
    hinit | ⟨pre, a, post, hcut, hnew⟩
  · exact absurd hinit List.not_mem_nil
  · obtain ⟨manifest, table, hjob, _, hclosed, hcase, hrevision⟩ := (office_ledgers env _ a).2 ledger hnew
    have ha : a ∈ as := hcut ▸ List.mem_append_right pre List.mem_cons_self
    obtain ⟨job, clock⟩ := a
    subst hjob
    refine ⟨manifest, table.adapters, clock, ha, hcase, hrevision, fun r hr => ?_⟩
    obtain ⟨adapter, hadapter, hsource, hfetch⟩ := fetch_found table r.sourceId
    obtain ⟨query, hquery, hstatus⟩ := hclosed.status r hr
    refine ⟨adapter, query, hadapter, hsource, hquery, fun s hs => ?_⟩
    rw [hstatus s hs, hfetch, hsource]

end Intake.Proof
