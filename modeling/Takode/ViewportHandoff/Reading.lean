import Takode.ViewportHandoff.Store

/-!
# Reading back what was written

What the readers have accepted they accept again, as it is. `Stored` says of a state what
`normalizePersistedState` asks of a file.
-/

namespace Takode.ViewportHandoff

open JsString

variable {lc : LowerCase} {value : Option JsonValue} {sessionId id key : JsString}

/-! ## Fields -/

def IsId (id : JsString) : Prop := normalizeRequiredId (some (.string id)) = some id

def IsThreadKey (lc : LowerCase) (key : JsString) : Prop :=
  normalizeViewportHandoffThreadKey lc (some (.string key)) = some key

theorem isId_of_read (read : normalizeRequiredId value = some id) : IsId id := by
  unfold normalizeRequiredId at read
  split at read
  · next text =>
    split at read
    · cases read
    · next fits =>
      cases read
      simp only [IsId, normalizeRequiredId, trim_trim]
      exact if_neg fits
  · cases read

theorem isThreadKey_of_read (read : normalizeViewportHandoffThreadKey lc value = some key) :
    IsThreadKey lc key ∧ isThreadKey key = true := by
  unfold normalizeViewportHandoffThreadKey at read
  split at read
  · next text =>
    dsimp only at read
    split at read
    · next fits =>
      cases read
      refine ⟨?_, fits⟩
      simp only [IsThreadKey, normalizeViewportHandoffThreadKey, lc.trimmed _ (trim_trim text),
        lc.idempotent]
      exact if_pos fits
    · cases read
  · cases read

theorem isThreadKey_main : IsThreadKey lc (js "main") := by
  have trimmed : trim (js "main") = js "main" := by decide +kernel
  have small : lc.toLowerCase (js "main") = js "main" :=
    lc.plain _ (forall_mem_of_all (by decide +kernel))
  simp only [IsThreadKey, normalizeViewportHandoffThreadKey, trimmed, small]
  rfl

theorem isArrayIndex_of_isThreadKey (own : isThreadKey key = true) : key.isArrayIndex = false := by
  have named : key = js "main" ∨ key = js "all" ∨ key.take 2 = js "q-" := by
    simp only [isThreadKey, Bool.or_eq_true, Bool.and_eq_true, decide_eq_true_eq] at own
    rcases own with (main | all) | ⟨⟨quest, -⟩, -⟩
    · exact .inl main
    · exact .inr (.inl all)
    · exact .inr (.inr quest)
  rcases named with rfl | rfl | quest
  · decide +kernel
  · decide +kernel
  · cases key with
    | nil => rfl
    | cons c rest =>
      have first : c = 113 := by
        have same : some c = some 113 := congrArg List.head? quest
        exact Option.some.inj same
      simp [isArrayIndex, first, isDigit]

theorem unchanged_of_read {read : Option JsonValue → Option JsString} {text : JsString}
    (own : read (some (.string text)) = some text) :
    unchanged read (some (.string text)) = some text := by
  simp [unchanged, own]

theorem finiteNonNegativeNumber_some {q : ℚ} (read : finiteNonNegativeNumber value = some q) :
    0 ≤ q := by
  simpa using (Option.filter_eq_some_iff.mp read).2

theorem finiteNonNegativeNumber_number {q : ℚ} (least : 0 ≤ q) :
    finiteNonNegativeNumber (some (number q)) = some q := by
  simp [finiteNonNegativeNumber, finiteNumber, number, least]

theorem nonNegativeSafeInteger_number {n : Nat} (most : n ≤ MAX_SAFE_INTEGER) :
    nonNegativeSafeInteger (some (number n)) = some n := by
  rw [nonNegativeSafeInteger, finiteNonNegativeNumber_number (Nat.cast_nonneg n),
    Option.bind_some, if_pos (JsNumber.isSafeInteger_natCast most), JsNumber.floor_natCast]

/-! ## Positions -/

theorem normalizeOptionalId_json {id : Option JsString} (read : normalizeOptionalId value = some id) :
    normalizeOptionalId (some (idOrNull id)) = some id := by
  unfold normalizeOptionalId at read
  split at read
  · cases read
    rfl
  · cases read
    rfl
  · next text =>
    split at read
    · cases read
    · next fits =>
      cases read
      exact if_neg fits
  · cases read

theorem normalizeOptionalFiniteNumber_json (own : Option ℚ) :
    normalizeOptionalFiniteNumber (own.map number) = some own := by
  cases own <;> rfl

theorem normalizeOptionalFiniteNumberOrNull_json (own : Option (Option ℚ)) :
    normalizeOptionalFiniteNumberOrNull (own.map fun bottom => (bottom.map number).getD .null) =
      some own := by
  rcases own with _ | _ | _ <;> rfl

/-- A position that a reader gave. -/
structure IsPosition (position : ViewportHandoffPosition) : Prop where
  scrollTop : 0 ≤ position.scrollTop
  scrollHeight : 0 ≤ position.scrollHeight
  anchorMessageId :
    normalizeOptionalId (some (idOrNull position.anchorMessageId)) = some position.anchorMessageId
  anchorTurnId :
    normalizeOptionalId (some (idOrNull position.anchorTurnId)) = some position.anchorTurnId

theorem isPosition_of_read {position : ViewportHandoffPosition}
    (read : normalizeViewportHandoffPosition value = some position) : IsPosition position := by
  unfold normalizeViewportHandoffPosition at read
  simp only [Option.bind_eq_bind, Option.bind_eq_some_iff] at read
  obtain ⟨_, -, top, readTop, height, readHeight, _, -, message, readMessage, turn, readTurn, _, -,
    _, -, made⟩ := read
  cases made
  exact ⟨finiteNonNegativeNumber_some readTop, finiteNonNegativeNumber_some readHeight,
    normalizeOptionalId_json readMessage, normalizeOptionalId_json readTurn⟩

theorem positionMembers_nodup (position : ViewportHandoffPosition) :
    ((positionMembers position).map Prod.fst).Nodup := by
  show [js "scrollTop", js "scrollHeight", js "isAtBottom", js "anchorMessageId",
    js "anchorTurnId", js "anchorOffsetTop", js "lastSeenContentBottom"].Nodup
  decide +kernel

theorem normalizeViewportHandoffPosition_json {position : ViewportHandoffPosition}
    (own : IsPosition position) :
    normalizeViewportHandoffPosition (some (.fields (positionMembers position))) =
      some position := by
  have reads : ∀ m ∈ positionMembers position,
      (JsonValue.fields (positionMembers position)).get m.1 = m.2 := fun m listed =>
    JsonValue.get_fields (positionMembers_nodup position) listed
  have object : (some (JsonValue.fields (positionMembers position))).filter JsonValue.isRecord =
      some (.fields (positionMembers position)) := rfl
  simp only [positionMembers, List.forall_mem_cons] at reads
  obtain ⟨scrollTop, scrollHeight, isAtBottom, anchorMessageId, anchorTurnId, anchorOffsetTop,
    lastSeenContentBottom, -⟩ := reads
  rw [normalizeViewportHandoffPosition, object]
  simp only [positionMembers, scrollTop, scrollHeight, isAtBottom, anchorMessageId, anchorTurnId,
    anchorOffsetTop, lastSeenContentBottom, finiteNonNegativeNumber_number own.scrollTop,
    finiteNonNegativeNumber_number own.scrollHeight, JsonValue.asBoolean, own.anchorMessageId,
    own.anchorTurnId, normalizeOptionalFiniteNumber_json, normalizeOptionalFiniteNumberOrNull_json,
    Option.bind_eq_bind, Option.bind_some]
  rfl

/-! ## Records -/

/-- A record as the state of revision `revision` and time `updatedAt` may have it at `key`. -/
structure IsRecord (lc : LowerCase) (revision : Nat) (updatedAt : ℚ) (key : JsString)
    (record : ViewportHandoffRecord) : Prop where
  threadKey : record.threadKey = key
  named : IsThreadKey lc key
  plain : isThreadKey key = true
  least : 1 ≤ record.revision
  most : record.revision ≤ revision
  sourceId : IsId record.sourceId
  departureId : IsId record.departureId
  activityAt : 0 ≤ record.activityAt
  positive : 0 ≤ record.updatedAt
  notLater : record.updatedAt ≤ updatedAt
  position : IsPosition record.position

theorem recordMembers_nodup (record : ViewportHandoffRecord) :
    ((recordMembers record).map Prod.fst).Nodup := by
  show [js "version", js "threadKey", js "revision", js "sourceId", js "departureId",
    js "activityAt", js "updatedAt", js "position"].Nodup
  decide +kernel

theorem readHandoff_json {revision : Nat} {updatedAt : ℚ} {record : ViewportHandoffRecord}
    (own : IsRecord lc revision updatedAt key record) (most : revision ≤ MAX_SAFE_INTEGER) :
    readHandoff lc revision updatedAt (key, recordJson record) = some (key, record) := by
  have reads : ∀ m ∈ recordMembers record, (recordJson record).get m.1 = m.2 := fun m listed =>
    JsonValue.get_fields (recordMembers_nodup record) listed
  simp only [recordMembers, List.forall_mem_cons] at reads
  obtain ⟨version, threadKey, ownRevision, sourceId, departureId, activityAt, ownUpdatedAt,
    position, -⟩ := reads
  have read : normalizeViewportHandoffRecord lc (recordJson record) = some record := by
    have version : (recordJson record).get (js "version") = some (.number (.finite 1)) := version
    have named : IsThreadKey lc record.threadKey := own.threadKey ▸ own.named
    simp only [normalizeViewportHandoffRecord, version, threadKey, ownRevision, sourceId,
      departureId, activityAt, ownUpdatedAt, position, unchanged_of_read named,
      unchanged_of_read own.sourceId, unchanged_of_read own.departureId,
      nonNegativeSafeInteger_number (own.most.trans most),
      finiteNonNegativeNumber_number own.activityAt, finiteNonNegativeNumber_number own.positive,
      normalizeViewportHandoffPosition_json own.position, Option.bind_eq_bind, Option.bind_some,
      Option.filter_some, own.least, decide_true, if_true, ne_eq, not_true_eq_false, if_false]
    rfl
  have fits : (decide (record.threadKey ≠ key) || decide (revision < record.revision) ||
      decide (updatedAt < record.updatedAt)) = false := by
    simp [own.threadKey, own.most, own.notLater]
  simp only [readHandoff, unchanged_of_read own.named, read, Option.bind_eq_bind, Option.bind_some,
    fits, Bool.false_eq_true, if_false]
  rfl

/-! ## States -/

/-- A state that `normalizePersistedState` gives back as it is. -/
structure Stored (lc : LowerCase) (sessionId : JsString) (state : PersistedViewportHandoffSession) :
    Prop where
  session : state.sessionId = sessionId
  own : IsId sessionId
  revision : state.revision ≤ MAX_SAFE_INTEGER
  updatedAt : 0 ≤ state.updatedAt
  selectedThreadKey : IsThreadKey lc state.selectedThreadKey
  selectedThreadRevision : state.selectedThreadRevision ≤ state.revision
  selectedThreadActivityAt : 0 ≤ state.selectedThreadActivityAt
  selectedThreadUpdatedAt : 0 ≤ state.selectedThreadUpdatedAt
  notLater : state.selectedThreadUpdatedAt ≤ state.updatedAt
  unwritten : state.revision = 0 → state.updatedAt = 0
  unselected : state.selectedThreadRevision = 0 →
    state.selectedThreadKey = js "main" ∧ state.selectedThreadUpdatedAt = 0
  selected : 0 < state.selectedThreadRevision → state.selectedThreadUpdatedAt ≠ 0
  handoffs : ∀ key record, state.handoffs.get? key = some record →
    IsRecord lc state.revision state.updatedAt key record
  few : state.handoffs.keys.length ≤ MAX_VIEWPORT_HANDOFFS_PER_SESSION
  recent : state.recentDepartures.length ≤ MAX_RECENT_VIEWPORT_DEPARTURES
  departures : ∀ departure ∈ state.recentDepartures, IsId departure.sourceId ∧
    IsId departure.departureId ∧ 1 ≤ departure.revision ∧ departure.revision ≤ state.revision
  distinct : (state.recentDepartures.map RecentViewportDeparture.key).Nodup

variable {state : PersistedViewportHandoffSession}

theorem Stored.plain (stored : Stored lc sessionId state) :
    ∀ key ∈ state.handoffs.keys, key.isArrayIndex = false := by
  intro key listed
  obtain ⟨record, found⟩ := JsMap.mem_keys.mp listed
  exact isArrayIndex_of_isThreadKey (stored.handoffs key record found).plain

theorem mapM_json {α β : Type} {read : β → Option α} {write : α → β} {items : List α}
    (same : ∀ a ∈ items, read (write a) = some a) : (items.map write).mapM read = some items := by
  induction items with
  | nil => rfl
  | cons a items ih =>
    rw [List.forall_mem_cons] at same
    rw [List.map_cons, List.mapM_cons, same.1, ih same.2]
    rfl

theorem persistedMembers_nodup (state : PersistedViewportHandoffSession) :
    ((persistedMembers state).map Prod.fst).Nodup := by
  show [js "version", js "sessionId", js "revision", js "updatedAt", js "selectedThreadKey",
    js "selectedThreadRevision", js "selectedThreadActivityAt", js "selectedThreadUpdatedAt",
    js "handoffs", js "recentDepartures"].Nodup
  decide +kernel

theorem readDeparture_json {departure : RecentViewportDeparture} {revision : Nat}
    (own : IsId departure.sourceId ∧ IsId departure.departureId ∧ 1 ≤ departure.revision ∧
      departure.revision ≤ revision) (most : revision ≤ MAX_SAFE_INTEGER) :
    readDeparture revision (departureJson departure) = some departure := by
  obtain ⟨source, id, least, notLater⟩ := own
  have names : ((departureMembers departure).map Prod.fst).Nodup := by
    show [js "sourceId", js "departureId", js "revision"].Nodup
    decide +kernel
  have reads : ∀ m ∈ departureMembers departure, (departureJson departure).get m.1 = m.2 :=
    fun m listed => JsonValue.get_fields names listed
  simp only [departureMembers, List.forall_mem_cons] at reads
  obtain ⟨sourceId, departureId, own, -⟩ := reads
  replace source : normalizeRequiredId (some (.string departure.sourceId)) = _ := source
  replace id : normalizeRequiredId (some (.string departure.departureId)) = _ := id
  simp only [readDeparture, sourceId, departureId, own, source, id,
    nonNegativeSafeInteger_number (notLater.trans most), Option.bind_eq_bind, Option.bind_some,
    Option.filter_some, least, notLater, decide_true, Bool.and_self, if_true]
  rfl

/-- What is written is read back. -/
theorem Stored.read (stored : Stored lc sessionId state) :
    normalizePersistedState lc (persistedJson state) sessionId = some state := by
  have reads : ∀ m ∈ persistedMembers state, (persistedJson state).get m.1 = m.2 :=
    fun m listed => JsonValue.get_fields (persistedMembers_nodup state) listed
  simp only [persistedMembers, stateMembers, List.cons_append, List.nil_append,
    List.forall_mem_cons] at reads
  obtain ⟨version, session, revision, updatedAt, selectedThreadKey, selectedThreadRevision,
    selectedThreadActivityAt, selectedThreadUpdatedAt, handoffs, recentDepartures, -⟩ := reads
  have entries : ((state.handoffs.ownEntries.map fun e => (e.1, recordJson e.2))).mapM
      (readHandoff lc state.revision state.updatedAt) = some state.handoffs.ownEntries := by
    apply mapM_json
    intro e listed
    exact readHandoff_json (stored.handoffs e.1 e.2 (Record.mem_ownEntries.mp listed))
      stored.revision
  have same : Record.ofEntries state.handoffs.ownEntries = state.handoffs :=
    Record.canonical_of_plain stored.plain
  have few : ¬ MAX_VIEWPORT_HANDOFFS_PER_SESSION < state.handoffs.ownKeys.length := by
    rw [← Record.map_fst_ownEntries, Record.ownEntries_of_plain stored.plain]
    exact Nat.not_lt.mpr stored.few
  have fits : (decide (state.sessionId ≠ sessionId) ||
      decide (state.revision < state.selectedThreadRevision) ||
      decide (state.updatedAt < state.selectedThreadUpdatedAt) ||
      (decide (state.revision = 0) && decide (state.updatedAt ≠ 0)) ||
      (decide (state.selectedThreadRevision = 0) &&
        (decide (state.selectedThreadKey ≠ js "main") ||
          decide (state.selectedThreadUpdatedAt ≠ 0))) ||
      (decide (0 < state.selectedThreadRevision) &&
        decide (state.selectedThreadUpdatedAt = 0))) = false := by
    have unwritten := stored.unwritten
    have unselected := stored.unselected
    have selected := stored.selected
    simp only [Bool.or_eq_false_iff, Bool.and_eq_false_imp, decide_eq_true_eq,
      decide_eq_false_iff_not, not_not, not_lt]
    exact ⟨⟨⟨⟨⟨stored.session, stored.selectedThreadRevision⟩, stored.notLater⟩, unwritten⟩,
      unselected⟩, selected⟩
  have version : (persistedJson state).get (js "version") = some (.number (.finite 1)) := version
  have session' : IsId state.sessionId := stored.session ▸ stored.own
  have base : normalizeViewportHandoffSessionState lc (persistedJson state) sessionId =
      some state.toViewportHandoffSessionState := by
    simp only [normalizeViewportHandoffSessionState, version, session, revision, updatedAt,
      selectedThreadKey, selectedThreadRevision, selectedThreadActivityAt, selectedThreadUpdatedAt,
      handoffs, unchanged_of_read session', unchanged_of_read stored.selectedThreadKey,
      nonNegativeSafeInteger_number stored.revision,
      nonNegativeSafeInteger_number (stored.selectedThreadRevision.trans stored.revision),
      finiteNonNegativeNumber_number stored.updatedAt,
      finiteNonNegativeNumber_number stored.selectedThreadActivityAt,
      finiteNonNegativeNumber_number stored.selectedThreadUpdatedAt, fits, Option.bind_eq_bind,
      Option.bind_some, Bool.false_eq_true, if_false, Option.filter_some, JsonValue.isRecord, if_true,
      JsonValue.entries_object, entries, same, few, ne_eq, not_true_eq_false]
    rfl
  have departures : (state.recentDepartures.map departureJson).mapM
      (readDeparture state.revision) = some state.recentDepartures :=
    mapM_json fun departure listed =>
      readDeparture_json (stored.departures departure listed) stored.revision
  simp only [normalizePersistedState, base, recentDepartures, departures, Option.bind_eq_bind,
    Option.bind_some, JsonValue.asArray, List.length_map, Nat.not_lt.mpr stored.revision,
    Nat.not_lt.mpr stored.recent, stored.distinct, if_false, not_true_eq_false]
  rfl

theorem stored_empty (own : IsId sessionId) : Stored lc sessionId (persistedEmptyState sessionId) where
  session := rfl
  own := own
  revision := Nat.zero_le _
  updatedAt := le_rfl
  selectedThreadKey := isThreadKey_main
  selectedThreadRevision := le_rfl
  selectedThreadActivityAt := le_rfl
  selectedThreadUpdatedAt := le_rfl
  notLater := le_rfl
  unwritten _ := rfl
  unselected _ := ⟨rfl, rfl⟩
  selected := nofun
  handoffs := nofun
  few := Nat.zero_le _
  recent := Nat.zero_le _
  departures := nofun
  distinct := List.nodup_nil

end Takode.ViewportHandoff
