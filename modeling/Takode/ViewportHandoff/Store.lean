import Takode.Lib.Doubles
import Takode.Lib.Machine
import Takode.ViewportHandoff.Records

/-!
# The store of handoffs

`ViewportHandoffStore.publish` for the publishes of one session, one after another as
`runExclusive` lets them. The times of a server are any numbers, and the writer may fail, which
leaves the file as it was.
-/

namespace Takode.ViewportHandoff

open JsString

def MAX_RECENT_VIEWPORT_DEPARTURES : Nat := MAX_VIEWPORT_HANDOFFS_PER_SESSION * 4

structure RecentViewportDeparture where
  sourceId : JsString
  departureId : JsString
  revision : Nat
  deriving DecidableEq

structure PersistedViewportHandoffSession extends ViewportHandoffSessionState where
  recentDepartures : List RecentViewportDeparture
  deriving DecidableEq

inductive LoadedViewportHandoffSession
  | valid (state : PersistedViewportHandoffSession)
  | invalid (detail : JsString)
  deriving DecidableEq

inductive ErrorCode
  | invalidInput
  | invalidState
  | writeFailed
  deriving DecidableEq

structure ViewportHandoffStoreError where
  message : JsString
  code : ErrorCode
  deriving DecidableEq

inductive ViewportHandoffWriteStatus
  | accepted
  | stale
  | duplicate
  deriving DecidableEq

structure ViewportHandoffWriteResponse where
  status : ViewportHandoffWriteStatus
  state : ViewportHandoffSessionState
  record : Option ViewportHandoffRecord
  serverNow : ℚ
  deriving DecidableEq

/-- What the store has of the session, and the file. -/
structure ViewportHandoffStore where
  loaded : Option LoadedViewportHandoffSession
  file : Option JsonValue
  deriving DecidableEq

/-! ## What is written and read -/

def departureMembers (departure : RecentViewportDeparture) :
    List (JsString × Option JsonValue) := [
  (js "sourceId", some (.string departure.sourceId)),
  (js "departureId", some (.string departure.departureId)),
  (js "revision", some (number departure.revision))]

def departureJson (departure : RecentViewportDeparture) : JsonValue :=
  .fields (departureMembers departure)

def persistedMembers (state : PersistedViewportHandoffSession) :
    List (JsString × Option JsonValue) :=
  stateMembers state.toViewportHandoffSessionState ++
    [(js "recentDepartures", some (.array (state.recentDepartures.map departureJson)))]

/-- The contents of the file. -/
def persistedJson (state : PersistedViewportHandoffSession) : JsonValue :=
  .fields (persistedMembers state)

def departureKey (sourceId departureId : JsString) : JsString := sourceId ++ 0 :: departureId

def RecentViewportDeparture.key (departure : RecentViewportDeparture) : JsString :=
  departureKey departure.sourceId departure.departureId

def readDeparture (revision : Nat) (entry : JsonValue) : Option RecentViewportDeparture := do
  let sourceId ← normalizeRequiredId (entry.get (js "sourceId"))
  let departureId ← normalizeRequiredId (entry.get (js "departureId"))
  let own ← (nonNegativeSafeInteger (entry.get (js "revision"))).filter fun own =>
    1 ≤ own && own ≤ revision
  return ⟨sourceId, departureId, own⟩

section

variable (lc : LowerCase)

def normalizePersistedState (input : JsonValue) (expectedSessionId : JsString) :
    Option PersistedViewportHandoffSession := do
  let state ← normalizeViewportHandoffSessionState lc input expectedSessionId
  if MAX_SAFE_INTEGER < state.revision then failure
  let raw ← (input.get (js "recentDepartures")).bind (·.asArray)
  if MAX_RECENT_VIEWPORT_DEPARTURES < raw.length then failure
  let recentDepartures ← raw.mapM (readDeparture state.revision)
  if ¬ (recentDepartures.map RecentViewportDeparture.key).Nodup then failure
  return { state with recentDepartures }

def persistedEmptyState (sessionId : JsString) : PersistedViewportHandoffSession :=
  { createEmptyViewportHandoffSessionState sessionId with recentDepartures := [] }

def rememberInvalid (store : ViewportHandoffStore) (detail : JsString) :
    ViewportHandoffStore × Except ViewportHandoffStoreError PersistedViewportHandoffSession :=
  ({ store with loaded := some (.invalid detail) }, .error ⟨detail, .invalidState⟩)

def requireState (store : ViewportHandoffStore) (sessionId : JsString) :
    ViewportHandoffStore × Except ViewportHandoffStoreError PersistedViewportHandoffSession :=
  if normalizeRequiredId (some (.string sessionId)) ≠ some sessionId then
    (store, .error ⟨js "Invalid viewport handoff session ID", .invalidInput⟩)
  else
    match store.loaded with
    | some (.valid state) => (store, .ok state)
    | some (.invalid detail) => (store, .error ⟨detail, .invalidState⟩)
    | none =>
      match store.file with
      | none =>
        let state := persistedEmptyState sessionId
        ({ store with loaded := some (.valid state) }, .ok state)
      | some contents =>
        match normalizePersistedState lc contents sessionId with
        | none =>
          rememberInvalid store (js "Viewport handoff state has an unsupported or invalid schema")
        | some state => ({ store with loaded := some (.valid state) }, .ok state)

/-! ## Publishing -/

def normalizeServerNow (now : JsNumber) (lastUpdatedAt : ℚ) : Option ℚ :=
  match now with
  | .finite value => if value < 0 then none else some (max (⌊value⌋ : ℚ) lastUpdatedAt)
  | .notFinite => none

/-- A revision of a request, which may be `null`: `none` where it is not valid. -/
def normalizeBaseRevision : Option JsonValue → Option (Option Nat)
  | some .null => some none
  | value => (nonNegativeSafeInteger value).map some

/-- The latest activity that a request may report. -/
def latestActivity (serverNow : ℚ) : ℚ :=
  Doubles.rounded (serverNow + VIEWPORT_HANDOFF_MAX_FUTURE_ACTIVITY_MS)

def normalizeWriteRequest (input : JsonValue) (serverNow : ℚ) :
    Option ViewportHandoffWriteRequest := do
  let baseRevision ← normalizeBaseRevision (input.get (js "baseRevision"))
  let baseSelectedThreadRevision ←
    nonNegativeSafeInteger (input.get (js "baseSelectedThreadRevision"))
  let lastDeliberateActivityAt ←
    normalizeViewportHandoffActivityAt (input.get (js "lastDeliberateActivityAt"))
  let lastSelectionActivityAt ←
    normalizeViewportHandoffActivityAt (input.get (js "lastSelectionActivityAt"))
  if lastDeliberateActivityAt.any (latestActivity serverNow < ·) ||
      lastSelectionActivityAt.any (latestActivity serverNow < ·) then
    failure
  let sourceId ← normalizeRequiredId (input.get (js "sourceId"))
  let departureId ← normalizeRequiredId (input.get (js "departureId"))
  let threadKey ← normalizeViewportHandoffThreadKey lc (input.get (js "threadKey"))
  let selectedThreadKey ← normalizeViewportHandoffThreadKey lc (input.get (js "selectedThreadKey"))
  let position ← normalizeViewportHandoffPosition (input.get (js "position"))
  return {
    baseRevision, baseSelectedThreadRevision, lastDeliberateActivityAt, lastSelectionActivityAt
    sourceId, departureId, threadKey, selectedThreadKey, position }

end

def advanceAcceptedActivityAt (currentActivityAt reportedActivityAt : Option ℚ) : ℚ :=
  max (currentActivityAt.getD 0) (reportedActivityAt.getD 0)

section

variable (localeCompare : JsString → JsString → Ordering)

/-- The order in which handoffs are kept: the latest first. -/
def keptBefore (left right : JsString × ViewportHandoffRecord) : Prop :=
  right.2.revision < left.2.revision ∨
    right.2.revision = left.2.revision ∧ localeCompare left.1 right.1 ≠ .gt

instance : DecidableRel (keptBefore localeCompare) := fun _ _ =>
  inferInstanceAs (Decidable (_ ∨ _ ∧ _))

def limitHandoffs (handoffs : Record ViewportHandoffRecord) : Record ViewportHandoffRecord :=
  .ofEntries ((handoffs.ownEntries.insertionSort (keptBefore localeCompare)).take
    MAX_VIEWPORT_HANDOFFS_PER_SESSION)

end

def cloneSessionState (state : ViewportHandoffSessionState) : ViewportHandoffSessionState :=
  { state with handoffs := .ofEntries state.handoffs.ownEntries }

def writeResponse (status : ViewportHandoffWriteStatus) (state : PersistedViewportHandoffSession)
    (threadKey : JsString) (serverNow : ℚ) : ViewportHandoffWriteResponse where
  status := status
  state := cloneSessionState state.toViewportHandoffSessionState
  record := state.handoffs.get? threadKey
  serverNow := serverNow

section

variable (state : PersistedViewportHandoffSession) (request : ViewportHandoffWriteRequest)

/-- The departure is one of the recent ones. -/
def isDuplicate : Bool :=
  state.recentDepartures.any fun departure =>
    departure.sourceId = request.sourceId && departure.departureId = request.departureId

def shouldAdvancePosition : Bool :=
  let current := state.handoffs.get? request.threadKey
  let positionBaseMatches := current.map ViewportHandoffRecord.revision = request.baseRevision
  let positionHasNewerActivity := request.lastDeliberateActivityAt.any fun reported =>
    current.all fun record => record.activityAt < reported
  positionBaseMatches || positionHasNewerActivity

def shouldAdvanceSelection : Bool :=
  let selectionBaseMatches := request.baseSelectedThreadRevision = state.selectedThreadRevision
  let selectionHasNewerActivity :=
    request.lastSelectionActivityAt.any (state.selectedThreadActivityAt < ·)
  selectionBaseMatches || selectionHasNewerActivity

/-- The `updatedAt` of the next write. -/
def nextUpdatedAt (serverNow : ℚ) : ℚ := max serverNow (Doubles.rounded (state.updatedAt + 1))

/-- The record of the request. -/
def nextRecord (serverNow : ℚ) : ViewportHandoffRecord where
  threadKey := request.threadKey
  revision := state.revision + 1
  sourceId := request.sourceId
  departureId := request.departureId
  activityAt :=
    advanceAcceptedActivityAt
      ((state.handoffs.get? request.threadKey).map ViewportHandoffRecord.activityAt)
      request.lastDeliberateActivityAt
  updatedAt := nextUpdatedAt state serverNow
  position := request.position

def nextHandoffs (localeCompare : JsString → JsString → Ordering) (serverNow : ℚ) :
    Record ViewportHandoffRecord :=
  let record :=
    if shouldAdvancePosition state request then some (nextRecord state request serverNow)
    else state.handoffs.get? request.threadKey
  match record with
  | some record => limitHandoffs localeCompare (state.handoffs.set request.threadKey record)
  | none => state.handoffs

def nextDepartures : List RecentViewportDeparture :=
  let departures := state.recentDepartures ++
    [⟨request.sourceId, request.departureId, state.revision + 1⟩]
  departures.drop (departures.length - MAX_RECENT_VIEWPORT_DEPARTURES)

/-- The state that an accepted request leads to. -/
def nextState (localeCompare : JsString → JsString → Ordering) (sessionId : JsString)
    (serverNow : ℚ) : PersistedViewportHandoffSession :=
  let advances := shouldAdvanceSelection state request
  { sessionId
    revision := state.revision + 1
    updatedAt := nextUpdatedAt state serverNow
    selectedThreadKey := if advances then request.selectedThreadKey else state.selectedThreadKey
    selectedThreadRevision := if advances then state.revision + 1 else state.selectedThreadRevision
    selectedThreadActivityAt :=
      if advances then
        advanceAcceptedActivityAt
          (if 0 < state.selectedThreadRevision then some state.selectedThreadActivityAt else none)
          request.lastSelectionActivityAt
      else state.selectedThreadActivityAt
    selectedThreadUpdatedAt :=
      if advances then nextUpdatedAt state serverNow else state.selectedThreadUpdatedAt
    handoffs := nextHandoffs state request localeCompare serverNow
    recentDepartures := nextDepartures state request }

end

section

variable (lc : LowerCase) (localeCompare : JsString → JsString → Ordering)

/-- `publish` with the state that `requireState` gave. The writer is given `nextState` and
succeeds, or fails with a message. -/
def publishLoaded (store : ViewportHandoffStore) (state : PersistedViewportHandoffSession)
    (sessionId : JsString) (input : JsonValue) (now : JsNumber) (written : Except JsString Unit) :
    ViewportHandoffStore × Except ViewportHandoffStoreError ViewportHandoffWriteResponse :=
  match normalizeServerNow now state.updatedAt with
  | none => (store, .error ⟨js "Invalid viewport handoff server time", .invalidInput⟩)
  | some serverNow =>
    match normalizeWriteRequest lc input serverNow with
    | none => (store, .error ⟨js "Invalid viewport handoff write", .invalidInput⟩)
    | some request =>
      if isDuplicate state request then
        (store, .ok (writeResponse .duplicate state request.threadKey serverNow))
      else if !shouldAdvancePosition state request && !shouldAdvanceSelection state request then
        (store, .ok (writeResponse .stale state request.threadKey serverNow))
      else if MAX_SAFE_INTEGER ≤ state.revision then
        (store, .error ⟨js "Viewport handoff revision is exhausted", .invalidState⟩)
      else
        let next := nextState state request localeCompare sessionId serverNow
        match written with
        | .error message =>
          (store, .error ⟨js "Failed to persist viewport handoff: " ++ message, .writeFailed⟩)
        | .ok _ =>
          (⟨some (.valid next), some (persistedJson next)⟩,
            .ok (writeResponse .accepted next request.threadKey next.updatedAt))

def publish (store : ViewportHandoffStore) (sessionId : JsString) (input : JsonValue)
    (now : JsNumber) (written : Except JsString Unit) :
    ViewportHandoffStore × Except ViewportHandoffStoreError ViewportHandoffWriteResponse :=
  match requireState lc store sessionId with
  | (loaded, .error failure) => (loaded, .error failure)
  | (loaded, .ok state) => publishLoaded lc localeCompare loaded state sessionId input now written

end

end Takode.ViewportHandoff
