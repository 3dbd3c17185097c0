import Takode.Lib.Json
import Takode.Lib.LowerCase

/-!
# Handoffs of a viewport

`shared/viewport-handoff.ts`: where a reader left the threads of a session, and the readers that
every request and every stored state goes through. A field that is undefined is one that is not
there.
-/

namespace Takode.ViewportHandoff

open JsString

def MAX_VIEWPORT_HANDOFFS_PER_SESSION : Nat := 32
def MAX_VIEWPORT_HANDOFF_ID_LENGTH : Nat := 512
def VIEWPORT_HANDOFF_MAX_FUTURE_ACTIVITY_MS : ℚ := 30000
def MAX_SAFE_INTEGER : Nat := 2 ^ 53 - 1

structure ViewportHandoffPosition where
  scrollTop : ℚ
  scrollHeight : ℚ
  isAtBottom : Bool
  anchorMessageId : Option JsString
  anchorTurnId : Option JsString
  anchorOffsetTop : Option ℚ
  lastSeenContentBottom : Option (Option ℚ)
  deriving DecidableEq

/-- `ViewportHandoffRecord`. Its `version` is 1. -/
structure ViewportHandoffRecord where
  threadKey : JsString
  revision : Nat
  sourceId : JsString
  departureId : JsString
  activityAt : ℚ
  updatedAt : ℚ
  position : ViewportHandoffPosition
  deriving DecidableEq

/-- `ViewportHandoffSessionState`. Its `version` is 1. -/
structure ViewportHandoffSessionState where
  sessionId : JsString
  revision : Nat
  updatedAt : ℚ
  selectedThreadKey : JsString
  selectedThreadRevision : Nat
  selectedThreadActivityAt : ℚ
  selectedThreadUpdatedAt : ℚ
  handoffs : Record ViewportHandoffRecord
  deriving DecidableEq

/-- `ViewportHandoffWriteRequest`. -/
structure ViewportHandoffWriteRequest where
  baseRevision : Option Nat
  baseSelectedThreadRevision : Nat
  lastDeliberateActivityAt : Option ℚ
  lastSelectionActivityAt : Option ℚ
  sourceId : JsString
  departureId : JsString
  threadKey : JsString
  selectedThreadKey : JsString
  position : ViewportHandoffPosition
  deriving DecidableEq

def createEmptyViewportHandoffSessionState (sessionId : JsString) : ViewportHandoffSessionState where
  sessionId := sessionId
  revision := 0
  updatedAt := 0
  selectedThreadKey := js "main"
  selectedThreadRevision := 0
  selectedThreadActivityAt := 0
  selectedThreadUpdatedAt := 0
  handoffs := ∅

/-! ## Fields -/

def finiteNumber : Option JsonValue → Option ℚ
  | some (.number (.finite value)) => some value
  | _ => none

def finiteNonNegativeNumber (value : Option JsonValue) : Option ℚ :=
  (finiteNumber value).filter fun normalized => 0 ≤ normalized

def nonNegativeSafeInteger (value : Option JsonValue) : Option Nat :=
  (finiteNonNegativeNumber value).bind fun n =>
    if (JsNumber.finite n).isSafeInteger then some (JsNumber.finite n).floor else none

def normalizeRequiredId : Option JsonValue → Option JsString
  | some (.string value) =>
    if (trim value).isEmpty || MAX_VIEWPORT_HANDOFF_ID_LENGTH < (trim value).length then none
    else some (trim value)
  | _ => none

/-- `normalizeOptionalId`: `none` where it is undefined. -/
def normalizeOptionalId : Option JsonValue → Option (Option JsString)
  | none | some .null => some none
  | some (.string value) =>
    if value.isEmpty || MAX_VIEWPORT_HANDOFF_ID_LENGTH < value.length then none else some (some value)
  | some _ => none

/-- `normalizeOptionalFiniteNumber` of a field that may not be `null`: `none` where it is not
valid. -/
def normalizeOptionalFiniteNumber : Option JsonValue → Option (Option ℚ)
  | none => some none
  | some value => (finiteNumber (some value)).map some

/-- `normalizeOptionalFiniteNumber` of a field that may be `null`. -/
def normalizeOptionalFiniteNumberOrNull : Option JsonValue → Option (Option (Option ℚ))
  | none => some none
  | some .null => some (some none)
  | some value => (finiteNumber (some value)).map fun number => some (some number)

/-! ## Readers -/

section Readers

variable (lc : LowerCase)

/-- `normalizeViewportHandoffThreadKey`, whose pattern is `/^q-\d+$/`. -/
def isThreadKey (key : JsString) : Bool :=
  key = js "main" || key = js "all" ||
    (key.take 2 = js "q-" && 2 < key.length && (key.drop 2).all isDigit)

def normalizeViewportHandoffThreadKey : Option JsonValue → Option JsString
  | some (.string value) =>
    let normalized := lc.toLowerCase (trim value)
    if isThreadKey normalized then some normalized else none
  | _ => none

/-- `normalizeViewportHandoffActivityAt`: `none` where it is `null` for another value. -/
def normalizeViewportHandoffActivityAt : Option JsonValue → Option (Option ℚ)
  | some .null => some none
  | value => (finiteNonNegativeNumber value).map some

def normalizeViewportHandoffPosition (value : Option JsonValue) :
    Option ViewportHandoffPosition := do
  let record ← value.filter JsonValue.isRecord
  let scrollTop ← finiteNonNegativeNumber (record.get (js "scrollTop"))
  let scrollHeight ← finiteNonNegativeNumber (record.get (js "scrollHeight"))
  let isAtBottom ← (record.get (js "isAtBottom")).bind JsonValue.asBoolean
  let anchorMessageId ← normalizeOptionalId (record.get (js "anchorMessageId"))
  let anchorTurnId ← normalizeOptionalId (record.get (js "anchorTurnId"))
  let anchorOffsetTop ← normalizeOptionalFiniteNumber (record.get (js "anchorOffsetTop"))
  let lastSeenContentBottom ←
    normalizeOptionalFiniteNumberOrNull (record.get (js "lastSeenContentBottom"))
  return ⟨scrollTop, scrollHeight, isAtBottom, anchorMessageId, anchorTurnId, anchorOffsetTop,
    lastSeenContentBottom⟩

/-- A field that the reader leaves as it is. -/
def unchanged (read : Option JsonValue → Option JsString) (value : Option JsonValue) :
    Option JsString :=
  (read value).filter fun normalized => value = some (.string normalized)

def normalizeViewportHandoffRecord (raw : JsonValue) : Option ViewportHandoffRecord := do
  if raw.get (js "version") ≠ some (.number (.finite 1)) then failure
  let threadKey ← unchanged (normalizeViewportHandoffThreadKey lc) (raw.get (js "threadKey"))
  let revision ← (nonNegativeSafeInteger (raw.get (js "revision"))).filter fun revision => 1 ≤ revision
  let sourceId ← unchanged normalizeRequiredId (raw.get (js "sourceId"))
  let departureId ← unchanged normalizeRequiredId (raw.get (js "departureId"))
  let activityAt ← finiteNonNegativeNumber (raw.get (js "activityAt"))
  let updatedAt ← finiteNonNegativeNumber (raw.get (js "updatedAt"))
  let position ← normalizeViewportHandoffPosition (raw.get (js "position"))
  return ⟨threadKey, revision, sourceId, departureId, activityAt, updatedAt, position⟩

/-- One turn of the loop over the handoffs of `normalizeViewportHandoffSessionState`. -/
def readHandoff (revision : Nat) (updatedAt : ℚ) (entry : JsString × JsonValue) :
    Option (JsString × ViewportHandoffRecord) := do
  let threadKey ← unchanged (normalizeViewportHandoffThreadKey lc) (some (.string entry.1))
  let record ← normalizeViewportHandoffRecord lc entry.2
  if record.threadKey ≠ threadKey || revision < record.revision || updatedAt < record.updatedAt then
    failure
  return (threadKey, record)

def normalizeViewportHandoffSessionState (raw : JsonValue) (expectedSessionId : JsString) :
    Option ViewportHandoffSessionState := do
  if raw.get (js "version") ≠ some (.number (.finite 1)) then failure
  let sessionId ← unchanged normalizeRequiredId (raw.get (js "sessionId"))
  let revision ← nonNegativeSafeInteger (raw.get (js "revision"))
  let updatedAt ← finiteNonNegativeNumber (raw.get (js "updatedAt"))
  let selectedThreadRevision ← nonNegativeSafeInteger (raw.get (js "selectedThreadRevision"))
  let selectedThreadActivityAt ←
    finiteNonNegativeNumber (raw.get (js "selectedThreadActivityAt"))
  let selectedThreadUpdatedAt ← finiteNonNegativeNumber (raw.get (js "selectedThreadUpdatedAt"))
  let selectedThreadKey ←
    unchanged (normalizeViewportHandoffThreadKey lc) (raw.get (js "selectedThreadKey"))
  if sessionId ≠ expectedSessionId || revision < selectedThreadRevision ||
      updatedAt < selectedThreadUpdatedAt || (revision = 0 && updatedAt ≠ 0) ||
      (selectedThreadRevision = 0 &&
        (selectedThreadKey ≠ js "main" || selectedThreadUpdatedAt ≠ 0)) ||
      (0 < selectedThreadRevision && selectedThreadUpdatedAt = 0) then
    failure
  let rawHandoffs ← (raw.get (js "handoffs")).filter JsonValue.isRecord
  let handoffs ← rawHandoffs.entries.mapM (readHandoff lc revision updatedAt)
  if MAX_VIEWPORT_HANDOFFS_PER_SESSION < (Record.ofEntries handoffs).ownKeys.length then failure
  return {
    sessionId, revision, updatedAt, selectedThreadKey, selectedThreadRevision,
    selectedThreadActivityAt, selectedThreadUpdatedAt
    handoffs := Record.ofEntries handoffs }

end Readers

/-! ## Their JSON -/

def number (value : ℚ) : JsonValue := .number (.finite value)

def idOrNull (id : Option JsString) : JsonValue := (id.map .string).getD .null

def positionMembers (position : ViewportHandoffPosition) :
    List (JsString × Option JsonValue) := [
  (js "scrollTop", some (number position.scrollTop)),
  (js "scrollHeight", some (number position.scrollHeight)),
  (js "isAtBottom", some (.boolean position.isAtBottom)),
  (js "anchorMessageId", some (idOrNull position.anchorMessageId)),
  (js "anchorTurnId", some (idOrNull position.anchorTurnId)),
  (js "anchorOffsetTop", position.anchorOffsetTop.map number),
  (js "lastSeenContentBottom", position.lastSeenContentBottom.map fun bottom =>
    (bottom.map number).getD .null)]

def recordMembers (record : ViewportHandoffRecord) : List (JsString × Option JsonValue) := [
  (js "version", some (number 1)),
  (js "threadKey", some (.string record.threadKey)),
  (js "revision", some (number record.revision)),
  (js "sourceId", some (.string record.sourceId)),
  (js "departureId", some (.string record.departureId)),
  (js "activityAt", some (number record.activityAt)),
  (js "updatedAt", some (number record.updatedAt)),
  (js "position", some (.fields (positionMembers record.position)))]

def recordJson (record : ViewportHandoffRecord) : JsonValue := .fields (recordMembers record)

def stateMembers (state : ViewportHandoffSessionState) : List (JsString × Option JsonValue) := [
  (js "version", some (number 1)),
  (js "sessionId", some (.string state.sessionId)),
  (js "revision", some (number state.revision)),
  (js "updatedAt", some (number state.updatedAt)),
  (js "selectedThreadKey", some (.string state.selectedThreadKey)),
  (js "selectedThreadRevision", some (number state.selectedThreadRevision)),
  (js "selectedThreadActivityAt", some (number state.selectedThreadActivityAt)),
  (js "selectedThreadUpdatedAt", some (number state.selectedThreadUpdatedAt)),
  (js "handoffs", some (.object (state.handoffs.ownEntries.map fun e => (e.1, recordJson e.2))))]

end Takode.ViewportHandoff
