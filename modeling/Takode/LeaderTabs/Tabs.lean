import Takode.LeaderTabs.Keys
import Takode.Lib.Machine

/-!
# Leader thread tabs

`leader-open-thread-tabs.ts`: the tabs of a leader, the updates of its browsers and the
candidates that the server would open.
-/

namespace Takode.LeaderTabs

open JsString

def LEADER_OPEN_THREAD_TABS_VERSION : ℚ := 1
def MAX_LEADER_CLOSED_THREAD_TOMBSTONES : Nat := 200
def MAX_LEADER_SERVER_CANDIDATE_PROMOTIONS : Nat := 200

structure LeaderClosedThreadTombstone where
  threadKey : JsString
  closedAt : ℚ
deriving DecidableEq

structure LeaderOpenThreadTabsState where
  orderedOpenThreadKeys : List JsString
  closedThreadTombstones : List LeaderClosedThreadTombstone
  updatedAt : ℚ
  migratedFromLocalStorageAt : Option ℚ := none
  /-- Latest explicit browser ordering action. -/
  explicitOrderUpdatedAt : Option ℚ := none
  /-- Latest accepted server-candidate event. -/
  latestServerCandidateEventAt : Option ℚ := none
  /-- For each thread, a fence for its server promotions. -/
  serverCandidatePromotedAt : Option (Record ℚ) := none
deriving DecidableEq

structure ServerCandidateOptions where
  repositionExisting : Bool := false
  placement : Option Placement := none
  beforeThreadKeys : JsSet JsString := ∅
  allowTombstoneReopen : Bool := true

/-! ## JSON -/

def number (value : ℚ) : JsonValue := .number (.finite value)

def LeaderClosedThreadTombstone.members (tombstone : LeaderClosedThreadTombstone) :
    List (JsString × Option JsonValue) :=
  [(js "threadKey", some (.string tombstone.threadKey)), (js "closedAt", some (number tombstone.closedAt))]

def LeaderClosedThreadTombstone.toJson (tombstone : LeaderClosedThreadTombstone) : JsonValue :=
  .fields tombstone.members

def promotionsToJson (promotions : Record ℚ) : JsonValue :=
  .object (promotions.ownEntries.map fun e => (e.1, number e.2))

def LeaderOpenThreadTabsState.members (state : LeaderOpenThreadTabsState) : List (JsString × Option JsonValue) :=
  [(js "version", some (number LEADER_OPEN_THREAD_TABS_VERSION)),
    (js "orderedOpenThreadKeys", some (.array (state.orderedOpenThreadKeys.map .string))),
    (js "closedThreadTombstones", some (.array (state.closedThreadTombstones.map (·.toJson)))),
    (js "updatedAt", some (number state.updatedAt)),
    (js "migratedFromLocalStorageAt", state.migratedFromLocalStorageAt.map number),
    (js "explicitOrderUpdatedAt", state.explicitOrderUpdatedAt.map number),
    (js "latestServerCandidateEventAt", state.latestServerCandidateEventAt.map number),
    (js "serverCandidatePromotedAt", state.serverCandidatePromotedAt.map promotionsToJson)]

/-- `JSON.parse(JSON.stringify(state))`. -/
def LeaderOpenThreadTabsState.toJson (state : LeaderOpenThreadTabsState) : JsonValue := .fields state.members

def validTimestamp (value : Option JsonValue) : Option ℚ :=
  match value with
  | some (.number (.finite value)) => some (max 0 value)
  | _ => none

section

variable (lc : LowerCase) (localeCompare : JsString → JsString → Ordering)

/-- The tombstones of the values whose keys are not among the result yet. -/
def collectTombstones : List JsonValue → List LeaderClosedThreadTombstone → List LeaderClosedThreadTombstone
  | [], result => result
  | value :: rest, result =>
    let threadKey := (((value.get (js "threadKey")).bind JsonValue.asString).map
      (normalizeSelectedFeedThreadKey lc)).getD []
    match validTimestamp (value.get (js "closedAt")) with
    | some closedAt =>
      if !shouldPersistLeaderThreadTab lc threadKey || threadKey ∈ result.map (·.threadKey) then
        collectTombstones rest result
      else collectTombstones rest (result ++ [{ threadKey, closedAt }])
    | none => collectTombstones rest result

def normalizeClosedThreadTombstones (candidate : Option JsonValue) : List LeaderClosedThreadTombstone :=
  let result := collectTombstones lc ((candidate.bind JsonValue.asArray).getD []) []
  (result.mergeSort fun left right => right.closedAt ≤ left.closedAt).take MAX_LEADER_CLOSED_THREAD_TOMBSTONES

/-- Later promotions first. -/
def promotedBefore (left right : JsString × ℚ) : Bool :=
  right.2 < left.2 || (right.2 = left.2 && localeCompare left.1 right.1 ≠ .gt)

def normalizeServerCandidatePromotedAt (candidate : Option JsonValue) : Record ℚ :=
  match candidate with
  | some (.object members) =>
    let entries := (JsonValue.object members).entries.filterMap fun (rawKey, rawTimestamp) =>
      let key := normalizeSelectedFeedThreadKey lc rawKey
      if shouldPersistLeaderThreadTab lc key then (validTimestamp (some rawTimestamp)).map (key, ·) else none
    .ofEntries ((entries.mergeSort (promotedBefore localeCompare)).take MAX_LEADER_SERVER_CANDIDATE_PROMOTIONS)
  | _ => ∅

def normalizeLeaderOpenThreadTabsState (candidate : JsonValue) : Option LeaderOpenThreadTabsState :=
  if candidate.get (js "version") = some (number LEADER_OPEN_THREAD_TABS_VERSION) then
    let promotions := normalizeServerCandidatePromotedAt lc localeCompare
      (candidate.get (js "serverCandidatePromotedAt"))
    some {
      orderedOpenThreadKeys := normalizeLeaderOpenThreadKeys lc
        (((candidate.get (js "orderedOpenThreadKeys")).bind JsonValue.asArray).getD [])
      closedThreadTombstones := normalizeClosedThreadTombstones lc (candidate.get (js "closedThreadTombstones"))
      updatedAt := (validTimestamp (candidate.get (js "updatedAt"))).getD 0
      migratedFromLocalStorageAt := validTimestamp (candidate.get (js "migratedFromLocalStorageAt"))
      explicitOrderUpdatedAt := validTimestamp (candidate.get (js "explicitOrderUpdatedAt"))
      latestServerCandidateEventAt := validTimestamp (candidate.get (js "latestServerCandidateEventAt"))
      serverCandidatePromotedAt := if promotions.size ≠ 0 then some promotions else none }
  else none

/-! ## Updates -/

def createLeaderOpenThreadTabsState (now : ℚ) : LeaderOpenThreadTabsState where
  orderedOpenThreadKeys := []
  closedThreadTombstones := []
  updatedAt := now

def canServerCandidateOpenThread (state : Option LeaderOpenThreadTabsState) (threadKey : JsString) (eventAt : ℚ)
    (options : ServerCandidateOptions) : Bool :=
  let key := normalizeSelectedFeedThreadKey lc threadKey
  if !shouldPersistLeaderThreadTab lc key then false
  else
    match state.bind fun state => state.closedThreadTombstones.find? (·.threadKey = key) with
    | none => true
    | some tombstone => options.allowTombstoneReopen && tombstone.closedAt < max 0 eventAt

/-- The state after an event that opens or places a tab. -/
def promote (base : LeaderOpenThreadTabsState) (key : JsString) (eventAt : ℚ) (options : ServerCandidateOptions) :
    LeaderOpenThreadTabsState :=
  let placement :=
    if key ∉ base.orderedOpenThreadKeys && base.explicitOrderUpdatedAt.any (eventAt ≤ ·) then .last
    else options.placement.getD .first
  let orderedOpenThreadKeys := place lc placement options.beforeThreadKeys base.orderedOpenThreadKeys key
  let closedThreadTombstones := base.closedThreadTombstones.filter (·.threadKey ≠ key)
  let visualChanged := base.orderedOpenThreadKeys ≠ orderedOpenThreadKeys ||
    closedThreadTombstones.length ≠ base.closedThreadTombstones.length
  { base with
    orderedOpenThreadKeys
    closedThreadTombstones
    updatedAt := if visualChanged then max base.updatedAt eventAt else base.updatedAt
    latestServerCandidateEventAt := some (max (base.latestServerCandidateEventAt.getD 0) eventAt)
    serverCandidatePromotedAt := some (normalizeServerCandidatePromotedAt lc localeCompare
      (some (promotionsToJson ((base.serverCandidatePromotedAt.getD ∅).set key eventAt)))) }

def applyLeaderServerCandidateThreadTabEvent (state : Option LeaderOpenThreadTabsState) (threadKey : JsString)
    (eventAt : ℚ) (options : ServerCandidateOptions) : Option LeaderOpenThreadTabsState :=
  let key := normalizeSelectedFeedThreadKey lc threadKey
  let alreadyOpen := state.any (key ∈ ·.orderedOpenThreadKeys)
  let promotedAt := (state.bind (·.serverCandidatePromotedAt)).bind (·.get? key)
  if !shouldPersistLeaderThreadTab lc key || eventAt ≤ promotedAt.getD (-1) then state
  else
    let latestEventAt := ((state.bind (·.latestServerCandidateEventAt)).or (state.map (·.updatedAt))).getD (-1)
    if alreadyOpen && (!options.repositionExisting || eventAt < latestEventAt ||
        eventAt ≤ (state.bind (·.explicitOrderUpdatedAt)).getD (-1)) then state
    else if !canServerCandidateOpenThread lc state key eventAt options then state
    else some (promote lc localeCompare (state.getD (createLeaderOpenThreadTabsState eventAt)) key eventAt options)

/-- An update of type `open` or `close`, of a thread whose tab persists. -/
def openTab (state : LeaderOpenThreadTabsState) (threadKey : JsString) (last : Bool) (now : ℚ) :
    LeaderOpenThreadTabsState :=
  let orderedOpenThreadKeys := placeLeaderOpenThreadTabKey lc state.orderedOpenThreadKeys threadKey (!last)
  let closedThreadTombstones := state.closedThreadTombstones.filter (·.threadKey ≠ threadKey)
  if state.orderedOpenThreadKeys = orderedOpenThreadKeys &&
      closedThreadTombstones.length = state.closedThreadTombstones.length then state
  else
    { state with
      orderedOpenThreadKeys
      closedThreadTombstones
      updatedAt := now
      explicitOrderUpdatedAt := some now }

def closeTab (state : LeaderOpenThreadTabsState) (threadKey : JsString) (closedAt : ℚ) : LeaderOpenThreadTabsState :=
  let orderedOpenThreadKeys := state.orderedOpenThreadKeys.filter (· ≠ threadKey)
  let closedThreadTombstones := normalizeClosedThreadTombstones lc (some (.array
    (({ threadKey, closedAt } :: state.closedThreadTombstones.filter (·.threadKey ≠ threadKey)).map (·.toJson))))
  if state.orderedOpenThreadKeys = orderedOpenThreadKeys &&
      (state.closedThreadTombstones.find? (·.threadKey = threadKey)).map (·.closedAt) = some closedAt &&
      state.updatedAt = closedAt && state.explicitOrderUpdatedAt = some closedAt then state
  else
    { state with
      orderedOpenThreadKeys
      closedThreadTombstones
      updatedAt := closedAt
      explicitOrderUpdatedAt := some closedAt }

def reorderTabs (state : LeaderOpenThreadTabsState) (requestedOrder : List JsonValue) (now : ℚ) :
    LeaderOpenThreadTabsState :=
  let orderedOpenThreadKeys := reorderLeaderOpenThreadKeys lc state.orderedOpenThreadKeys requestedOrder
  if state.orderedOpenThreadKeys = orderedOpenThreadKeys && state.explicitOrderUpdatedAt = some now then state
  else { state with orderedOpenThreadKeys, updatedAt := now, explicitOrderUpdatedAt := some now }

def migrateTabs (orderedOpenThreadKeys : List JsonValue) (migratedAt : ℚ) : LeaderOpenThreadTabsState :=
  { createLeaderOpenThreadTabsState migratedAt with
    orderedOpenThreadKeys := normalizeLeaderOpenThreadKeys lc orderedOpenThreadKeys
    migratedFromLocalStorageAt := some migratedAt }

/-- What an update asks for. -/
inductive Operation
  | migrate (orderedOpenThreadKeys : List JsonValue) (migratedAt : Option ℚ)
  | reorder (orderedOpenThreadKeys : List JsonValue)
  | opens (threadKey : JsString) (last : Bool)
  | closes (threadKey : JsString) (closedAt : Option ℚ)

def operation (update : JsonValue) : Option Operation :=
  let type := update.get (js "type")
  let keys := (update.get (js "orderedOpenThreadKeys")).bind JsonValue.asArray
  let threadKey := (update.get (js "threadKey")).bind JsonValue.asString
  if type = some (.string (js "migrate")) then
    keys.map (.migrate · (validTimestamp (update.get (js "migratedAt"))))
  else if type = some (.string (js "reorder")) then keys.map .reorder
  else if type = some (.string (js "open")) then
    threadKey.map (.opens · (update.get (js "placement") = some (.string (js "last"))))
  else if type = some (.string (js "close")) then
    threadKey.map (.closes · (validTimestamp (update.get (js "closedAt"))))
  else none

def Operation.apply (existingState : Option LeaderOpenThreadTabsState) (now : ℚ) :
    Operation → Option LeaderOpenThreadTabsState
  | .migrate orderedOpenThreadKeys migratedAt => some (migrateTabs lc orderedOpenThreadKeys (migratedAt.getD now))
  | .reorder orderedOpenThreadKeys => existingState.map (reorderTabs lc · orderedOpenThreadKeys now)
  | .opens threadKey last =>
    let state := existingState.getD (createLeaderOpenThreadTabsState now)
    let key := normalizeSelectedFeedThreadKey lc threadKey
    some (if shouldPersistLeaderThreadTab lc key then openTab lc state key last now else state)
  | .closes threadKey closedAt =>
    let state := existingState.getD (createLeaderOpenThreadTabsState now)
    let key := normalizeSelectedFeedThreadKey lc threadKey
    some (if shouldPersistLeaderThreadTab lc key then closeTab lc state key (closedAt.getD now) else state)

def applyLeaderThreadTabUpdate (existingState : Option LeaderOpenThreadTabsState) (update : JsonValue) (now : ℚ) :
    Option LeaderOpenThreadTabsState :=
  match operation update with
  | some operation => operation.apply lc existingState now
  | none => existingState

end

end Takode.LeaderTabs
