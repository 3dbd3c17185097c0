import Takode.SyncedProjection.Store

/-!
# What a browser holds

A snapshot that is not older than what a browser holds, and an update to the
very next revision, leave it with exactly the value they stand for and make it
ask for nothing.
-/

namespace Takode.SyncedProjection

variable {V P A : Type}

/-- What the cache relies on in a descriptor. -/
structure Descriptor.Lawful (d : Descriptor V P) : Prop where
  refl : ∀ v, d.isValue v = true → d.equal v v = true
  trans : ∀ a b c, d.isValue a = true → d.isValue b = true → d.isValue c = true →
    d.equal a b = true → d.equal b c = true → d.equal a c = true
  reconcile : ∀ a b, d.isValue a = true → d.isValue b = true →
    d.isValue (d.reconcile a b) = true ∧ d.equal (d.reconcile a b) b = true

/-- A browser holds a version of an entry, with a value equal to the given one. -/
structure Holds (d : Descriptor V P) (state : CacheState V A) (id : EntryId) (version : Version)
    (value : V) : Prop where
  authority : state.keys.has id = true
  version : state.versions.get? id = some version
  value : ∃ cv, state.values.get? id = some cv ∧ d.isValue cv = true ∧ d.equal cv value = true

/-- All entries but one are as before. -/
def Else (id : EntryId) (state state' : CacheState V A) : Prop :=
  ∀ other, other ≠ id → state'.keys.has other = state.keys.has other ∧
    state'.versions.get? other = state.versions.get? other ∧
      state'.values.get? other = state.values.get? other

theorem Holds.mono {d : Descriptor V P} {state state' : CacheState V A} {id other : EntryId}
    {version : Version} {value : V} (holds : Holds d state other version value)
    (away : other ≠ id) (rest : Else id state state') : Holds d state' other version value := by
  obtain ⟨keys, versions, values⟩ := rest other away
  exact ⟨keys.trans holds.authority, versions.trans holds.version, values ▸ holds.value⟩

section Reducers

variable [JsonSized V] [JsonSized P] [DecidableEq A] {registry : Registry V P A}
variable {d : Descriptor V P} {state : CacheState V A} {id : EntryId} {version : Version} {value : V}
variable {options : ApplyOptions}

omit [JsonSized V] [DecidableEq A] in
theorem applyOrderingMetadata_carrier (state : CacheState V A) (id : EntryId)
    (generation : JsString) (carrier : options.source ≠ some .rest) :
    ∃ orderings, applyOrderingMetadata state id generation options =
      ({ state with orderings := orderings }, false) := by
  unfold applyOrderingMetadata
  split
  · exact ⟨state.orderings, rfl⟩
  · dsimp only
    split
    · exact ⟨_, rfl⟩
    · exact ⟨state.orderings, rfl⟩
  · rename_i rest
    exact absurd rest carrier

omit [JsonSized V] [JsonSized P] in
theorem commitEnvelope_holds (registry : Registry V P A) (state : CacheState V A) (id : EntryId)
    (version : Version) (lawful : d.Lawful) (valid : d.isValue value = true)
    (old : ∀ cv, state.values.get? id = some cv → d.isValue cv = true) (resync : Bool) :
    Holds d (commitEnvelope registry state id version value d resync).1 id version value ∧
      Else id state (commitEnvelope registry state id version value d resync).1 := by
  refine ⟨⟨?_, ?_, ?_⟩, fun other away => ⟨?_, ?_, ?_⟩⟩
  · simp only [commitEnvelope]
    split
    · assumption
    · simp
  · simp only [commitEnvelope]
    split
    · assumption
    · simp
  · simp only [commitEnvelope]
    cases current : (if state.keys.has id = true then state.values.get? id else none) with
    | none => exact ⟨value, by simp, valid, lawful.refl value valid⟩
    | some cv =>
      have found : state.values.get? id = some cv := by
        split at current
        · exact current
        · cases current
      obtain ⟨validNext, equalNext⟩ := lawful.reconcile cv value (old cv found) valid
      by_cases same : d.equal cv (d.reconcile cv value) = true
      · refine ⟨cv, by simp [same, found], old cv found, ?_⟩
        exact lawful.trans _ _ _ (old cv found) validNext valid same equalNext
      · exact ⟨d.reconcile cv value, by simp [same], validNext, equalNext⟩
  · exact (apply_ite (JsMap.has · other) ..).trans (by simp [away])
  · exact (apply_ite (JsMap.get? · other) ..).trans (by simp [away])
  · exact (apply_ite (JsMap.get? · other) ..).trans (by simp [away])

omit [JsonSized P] in
theorem snapshot_holds (state : CacheState V A) {e : Envelope V}
    (parsed : parseKnownEnvelope registry e = some d)
    (lawful : d.Lawful) (carrier : options.source ≠ some .rest)
    (old : ∀ cv, state.values.get? e.id = some cv → d.isValue cv = true)
    (behind : ∀ w, state.versions.get? e.id = some w → w.generation = e.generation →
      w.revision < e.revision ∨ w.revision = e.revision ∧ Holds d state e.id w e.value) :
    (applySyncedProjectionSnapshotToCache registry state e options).2.requestResync = false ∧
      Holds d (applySyncedProjectionSnapshotToCache registry state e options).1 e.id
        ⟨e.generation, e.revision⟩ e.value ∧
      Else e.id state (applySyncedProjectionSnapshotToCache registry state e options).1 := by
  obtain ⟨orderings, ordered⟩ :=
    applyOrderingMetadata_carrier state e.id e.generation carrier
  have valid : d.isValue e.value = true := by
    have := (Option.filter_eq_some_iff.mp parsed).2
    simp only [Bool.and_eq_true] at this
    exact this.1
  have committed : _ ∧ Else e.id state _ := commitEnvelope_holds registry
    { state with orderings := orderings } e.id ⟨e.generation, e.revision⟩ lawful valid old false
  simp only [applySyncedProjectionSnapshotToCache, parsed, ordered, Bool.false_eq_true, if_false]
  split
  · exact ⟨rfl, committed⟩
  · rename_i w held
    obtain ⟨found, same⟩ := Option.filter_eq_some_iff.mp held
    simp only [Bool.and_eq_true, decide_eq_true_eq] at same
    rcases behind w found same.2 with less | ⟨equal, holds⟩
    · rw [if_neg (by omega), if_neg (by omega)]
      exact ⟨rfl, committed⟩
    · obtain ⟨cv, current, -, alike⟩ := holds.value
      rw [if_neg (by omega), if_pos equal.symm, if_pos (by simp [current, alike])]
      have version : w = ⟨e.generation, e.revision⟩ := by
        cases w
        simp_all
      exact ⟨rfl, ⟨holds.authority, version ▸ holds.version, holds.value⟩,
        fun _ _ => ⟨rfl, rfl, rfl⟩⟩

theorem update_holds (options : ApplyOptions) {update : Update V P}
    (parsed : parseKnownUpdate registry update = some d)
    (lawful : d.Lawful) {revision : Nat} {before after : V}
    (holds : Holds d state update.id ⟨update.version.generation, revision⟩ before)
    (next : update.version.revision = revision + 1)
    (leads : ∀ cv, d.isValue cv = true → d.equal cv before = true →
      ∃ n, nextValue d cv update = some n ∧ d.isValue n = true ∧ d.equal n after = true)
    (valid : d.isValue after = true) :
    (applySyncedProjectionUpdateToCache registry state update options).2.requestResync = false ∧
      Holds d (applySyncedProjectionUpdateToCache registry state update options).1 update.id
        update.version after ∧
      Else update.id state
        (applySyncedProjectionUpdateToCache registry state update options).1 := by
  have carrier : ({ source := some .live, activeRequestSequence := options.activeRequestSequence } :
      ApplyOptions).source ≠ some .rest := by simp
  obtain ⟨orderings, ordered⟩ :=
    applyOrderingMetadata_carrier state update.id update.version.generation carrier
  obtain ⟨cv, current, own, alike⟩ := holds.value
  obtain ⟨n, leadsTo, validNext, equalNext⟩ := leads cv own alike
  have committed : _ ∧ Else update.id state _ := commitEnvelope_holds registry
    { state with orderings := orderings } update.id update.version lawful validNext
    (fun v found => by cases current.symm.trans found; exact own)
    (!decide (update.version.revision = revision + 1))
  simp only [applySyncedProjectionUpdateToCache, parsed, ordered, holds.authority, if_true,
    holds.version, Option.filter, Bool.true_and, decide_true, current, leadsTo, validNext]
  rw [if_neg (by omega), if_neg (by omega), if_neg (by simp [next])]
  obtain ⟨⟨authority, version, cv', found, valid', equal'⟩, rest⟩ := committed
  refine ⟨by simp [commitEnvelope, next], ⟨authority, version, cv', found, valid', ?_⟩, rest⟩
  exact lawful.trans _ _ _ valid' validNext valid equal' equalNext

end Reducers

end Takode.SyncedProjection
