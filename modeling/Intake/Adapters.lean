import Intake.Evidence

/-!
# The adapters of the evidence service

`EvidenceService` is constructed with a mapping of adapters. The constructor checks
the mapping and keeps a copy, so the mapping of a service is known to be in order
for as long as there is the service.
-/

namespace Intake

/-- `str` of a member of the enumeration. -/
def SourceId.str : SourceId → PyStr
  | .planningZoning => "SourceId.PLANNING_ZONING"
  | .environmentalRegistry => "SourceId.ENVIRONMENTAL_REGISTRY"
  | .utilityRto => "SourceId.UTILITY_RTO"

/-- A `SourceAdapter`: the source it reports, and what its `fetch` does. -/
structure SourceAdapter where
  sourceId : SourceId
  fetch : EvidenceQuery → Fetched

/-- `EvidenceService._adapters`: exactly one adapter for each source, which reports it. -/
structure AdapterTable where
  adapters : Dict SourceId SourceAdapter
  reports : ∀ sourceId, ∃ adapter, adapters.lookup sourceId = some adapter ∧ adapter.sourceId = sourceId

namespace AdapterTable

theorem reports_of_checked {adapters : Dict SourceId SourceAdapter} (hkeys : ∀ s ∈ SourceId.all, s ∈ adapters)
    (hnone : adapters.entries.find? (fun entry => entry.2.sourceId ≠ entry.1) = none) (sourceId : SourceId) :
    ∃ adapter, adapters.lookup sourceId = some adapter ∧ adapter.sourceId = sourceId := by
  have hkey : sourceId ∈ adapters := hkeys sourceId (by cases sourceId <;> decide)
  obtain ⟨adapter, hadapter⟩ := Option.isSome_iff_exists.mp (AList.lookup_isSome.mpr hkey)
  refine ⟨adapter, hadapter, ?_⟩
  have hreports := List.find?_eq_none.mp hnone ⟨sourceId, adapter⟩ (AList.mem_lookup_iff.mp hadapter)
  simpa using hreports

/-- The check of `EvidenceService.__init__`, with the text of the `ValueError`. -/
def ofMapping (adapters : Dict SourceId SourceAdapter) : Except PyStr AdapterTable :=
  if hkeys : ∀ s ∈ SourceId.all, s ∈ adapters then
    -- the entries are read in the order of the mapping
    match hfirst : adapters.entries.find? (fun entry => entry.2.sourceId ≠ entry.1) with
    | some ⟨sourceId, adapter⟩ =>
        .error (PyStr.ofString "adapter for " ++ sourceId.str ++ PyStr.ofString " reports " ++ adapter.sourceId.str)
    | none => .ok { adapters, reports := reports_of_checked hkeys hfirst }
  else
    .error "exactly one adapter per source is required"

/-- `self._adapters[query.source_id].fetch(query)`, inside the `try` of `_attempt`. -/
def fetch (table : AdapterTable) : Adapters := fun sourceId query =>
  match table.adapters.lookup sourceId with
  | none => .raised "KeyError"
  | some adapter => adapter.fetch query

/-- A mapping that is in order is accepted as it is. -/
theorem ofMapping_adapters (table : AdapterTable) : ofMapping table.adapters = .ok table := by
  have hkeys : ∀ s ∈ SourceId.all, s ∈ table.adapters := by
    intro s _
    obtain ⟨adapter, hadapter, _⟩ := table.reports s
    exact AList.lookup_isSome.mp (Option.isSome_iff_exists.mpr ⟨adapter, hadapter⟩)
  have hnone : table.adapters.entries.find? (fun entry => entry.2.sourceId ≠ entry.1) = none := by
    refine List.find?_eq_none.mpr fun entry hentry => ?_
    obtain ⟨adapter, hadapter, hsource⟩ := table.reports entry.1
    have hsame : table.adapters.lookup entry.1 = some entry.2 := AList.mem_lookup_iff.mpr hentry
    rw [hadapter] at hsame
    rw [← Option.some.inj hsame]
    simpa using hsource
  unfold ofMapping
  rw [dif_pos hkeys]
  split
  · rename_i hfirst
    rw [hnone] at hfirst
    cases hfirst
  · rfl

theorem ofMapping_keeps {mapping : Dict SourceId SourceAdapter} {table : AdapterTable}
    (h : ofMapping mapping = .ok table) : table.adapters = mapping := by
  unfold ofMapping at h
  split at h
  · split at h
    · cases h
    · cases h; rfl
  · cases h

/-- **The constructor raises, or the mapping is that of a table.** -/
theorem ofMapping_cases (mapping : Dict SourceId SourceAdapter) :
    (∃ text, ofMapping mapping = .error text) ∨ ∃ table : AdapterTable, table.adapters = mapping := by
  cases h : ofMapping mapping with
  | error text => exact Or.inl ⟨text, rfl⟩
  | ok table => exact Or.inr ⟨table, ofMapping_keeps h⟩

/-- The table of three adapters that behave in some way: there is one for any behaviour. -/
def ofFetch (fetch : Adapters) : AdapterTable where
  adapters :=
    { entries := SourceId.all.map fun sourceId => ⟨sourceId, ⟨sourceId, fetch sourceId⟩⟩
      nodupKeys := by
        show SourceId.all.Nodup
        decide }
  reports sourceId := by cases sourceId <;> exact ⟨_, rfl, rfl⟩

theorem fetch_ofFetch (fetch : Adapters) : (ofFetch fetch).fetch = fetch := by
  funext sourceId query
  cases sourceId <;> rfl

end AdapterTable

end Intake
