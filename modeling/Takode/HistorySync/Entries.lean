import Takode.Lib.JsonText

/-!
# Comparable history entries

`history-sync-hash.ts`: the messages of a history that a browser renders, and what is
compared of them. The fields of a message that are not compared are its `rest`, which a
predicate on messages may read.
-/

namespace Takode.HistorySync

open JsString JsonText

/-- The members of a JSON object, in the order of `Object.entries`. -/
abbrev Members := List (JsString × Value)

/-- The value of a member. -/
def Members.get? (members : Members) (key : JsString) : Option Value := List.lookup key members

/-- The members that are not `undefined`. -/
def defined (members : List (JsString × Option Value)) : Members :=
  members.filterMap fun (key, value) => value.map (key, ·)

/-- A string, unless it is missing or empty. -/
def filled (text : Option JsString) : Option JsString := text.filter (· ≠ [])

/-- `string | null`. -/
def nullable : Option JsString → Value
  | some text => .string text
  | none => .null

/-! ## Messages -/

/-- A block of an assistant's message, with all its members. -/
structure ContentBlock where
  members : Members

namespace ContentBlock

def isType (block : ContentBlock) (type : JsString) : Bool :=
  match block.members.get? (js "type") with
  | some (.string own) => own = type
  | _ => false

def text (block : ContentBlock) : JsString :=
  match block.members.get? (js "text") with
  | some (.string text) => text
  | _ => []

end ContentBlock

inductive CompactionStatus
  | started
  | completed
deriving DecidableEq

inductive QuestLifecycleKind
  | claimed
  | submitted
deriving DecidableEq

/-- What is read of a message of each type; `other` are the types that are not rendered. -/
inductive Content
  | user_message (id : Option JsString) (content : JsString) (images vscodeSelection agentSource : Option Value)
      (timestamp : Numeral)
  | codex_reasoning_detail (id text status : JsString) (reasoning_turn_id : Option JsString)
      (reasoning_item_ordinal : Option Numeral) (provider_item_id : Option JsString)
      (summary_index thinking_time_ms : Option Numeral) (threadKey questId parent_tool_use_id : Option JsString)
      (timestamp : Numeral)
  | markdown_report (id content : JsString) (timestamp : Numeral)
  | assistant (id model : JsString) (content : List ContentBlock) (stop_reason : Option JsString)
      (parent_tool_use_id : Option JsString) (turn_duration_ms : Option Numeral) (uuid : Option JsString)
      (timestamp : Option Numeral)
  | compact_marker (id summary : Option JsString) (compactionStatus : Option CompactionStatus)
  | codex_auto_pause_recovery_summary (id content : JsString) (recovery : Value) (timestamp : Numeral)
  | quest_lifecycle_event (id : JsString) (kind : QuestLifecycleKind) (title : JsString) (quest : Value)
      (threadRefs : Option Value) (threadKey questId : Option JsString) (timestamp : Numeral)
  | permission_denied (id summary : JsString)
  | permission_approved (id summary : JsString) (answers : Option (List Value))
  | task_notification (task_id summary : Option JsString)
  | result (is_error : Bool) (errors : Option (List JsString)) (result : Option JsString)
  | other

structure BrowserIncomingMessage (Rest : Type) where
  content : Content
  rest : Rest

structure HistorySyncHashOptions (Rest : Type) where
  suppressRootThinkingOnlyAssistant : Bool := false
  includeMessage : Option (BrowserIncomingMessage Rest → ℤ → Bool) := none

/-! ## Entries -/

structure ComparableHistoryEntry where
  id : JsString
  role : JsString
  content : JsString
  contentBlocks : Option Value := none
  images : Option Value := none
  metadata : Option Value := none
  agentSource : Option Value := none
  parentToolUseId : Option Value := none
  model : Option JsString := none
  stopReason : Option Value := none
  turnDurationMs : Option Numeral := none
  variant : Option JsString := none
  cliUuid : Option JsString := none
  timestamp : Value
  mutable : Bool := false

/-- The entry as an object. -/
def ComparableHistoryEntry.toValue (entry : ComparableHistoryEntry) : Value :=
  .object (defined
    [(js "id", some (.string entry.id)),
      (js "role", some (.string entry.role)),
      (js "content", some (.string entry.content)),
      (js "contentBlocks", entry.contentBlocks),
      (js "images", entry.images),
      (js "metadata", entry.metadata),
      (js "agentSource", entry.agentSource),
      (js "parentToolUseId", entry.parentToolUseId),
      (js "model", entry.model.map .string),
      (js "stopReason", entry.stopReason),
      (js "turnDurationMs", entry.turnDurationMs.map .number),
      (js "variant", entry.variant.map .string),
      (js "cliUuid", entry.cliUuid.map .string),
      (js "timestamp", some entry.timestamp),
      (js "mutable", if entry.mutable then some (.boolean true) else none)])

def extractTextFromBlocks (blocks : List ContentBlock) : JsString :=
  (blocks.filter (·.isType (js "text"))).flatMap (·.text)

/-- `errors.join(", ")`. -/
def joinErrors (errors : List JsString) : JsString := (errors.intersperse (js ", ")).flatten

def normalizeErrorText (is_error : Bool) (errors : Option (List JsString)) (result : Option JsString) :
    Option JsString :=
  if !is_error then none
  else if (errors.getD []).length ≠ 0 then some (joinErrors (errors.getD []))
  else match result.filter (trim · ≠ []) with
    | some result => some result
    | none => some (js "An error occurred")

def isRootThinkingOnlyAssistantHistoryEntry : Content → Bool
  | .assistant _ _ content _ parent_tool_use_id _ _ _ =>
    parent_tool_use_id.isNone && content ≠ [] && content.all (·.isType (js "thinking"))
  | _ => false

def compactionMarkerLabel (status : Option CompactionStatus) : JsString :=
  if status = some .started then js "Compaction started" else js "Conversation compacted"

/-- An integer in a template. -/
def indexText (index : ℤ) : JsString :=
  if index < 0 then js "-" ++ decimal index.natAbs else decimal index.natAbs

/-- The entry of a message, if it is rendered. -/
def comparableEntry (suppress : Bool) (historyIndex : ℤ) (message : Content) : Option ComparableHistoryEntry :=
  match message with
  | .user_message id content images vscodeSelection agentSource timestamp =>
    some {
      id := (filled id).getD (js "hist-user-" ++ indexText historyIndex)
      role := js "user"
      content
      images
      metadata := vscodeSelection.map fun selection => .object [(js "vscodeSelection", selection)]
      agentSource
      timestamp := .number timestamp }
  | .codex_reasoning_detail id text status reasoning_turn_id reasoning_item_ordinal provider_item_id summary_index
      thinking_time_ms threadKey questId parent_tool_use_id timestamp =>
    let codexReasoningDetail := defined
      [(js "status", some (.string status)),
        (js "reasoningTurnId", reasoning_turn_id.map .string),
        (js "reasoningItemOrdinal", reasoning_item_ordinal.map .number),
        (js "providerItemId", provider_item_id.map .string),
        (js "summaryIndex", summary_index.map .number),
        (js "thinkingTimeMs", thinking_time_ms.map .number)]
    some {
      id
      role := js "assistant"
      content := text
      metadata := some (.object (defined
        [(js "codexReasoningDetail", some (.object codexReasoningDetail)),
          (js "threadKey", threadKey.map .string),
          (js "questId", questId.map .string)]))
      parentToolUseId := some (nullable parent_tool_use_id)
      timestamp := .number timestamp
      mutable := true }
  | .markdown_report id content timestamp =>
    some { id, role := js "assistant", content, timestamp := .number timestamp }
  | .assistant id model content stop_reason parent_tool_use_id turn_duration_ms uuid timestamp =>
    if suppress && isRootThinkingOnlyAssistantHistoryEntry message then none
    else some {
      id
      role := js "assistant"
      content := extractTextFromBlocks content
      contentBlocks := some (.array (content.map fun block => .object block.members))
      parentToolUseId := some (nullable parent_tool_use_id)
      model := some model
      stopReason := some (nullable stop_reason)
      turnDurationMs := turn_duration_ms
      cliUuid := uuid
      timestamp := (timestamp.map .number).getD .null }
  | .compact_marker id summary compactionStatus =>
    some {
      id := (filled id).getD (js "compact-" ++ indexText historyIndex)
      role := js "system"
      content := (filled summary).getD (compactionMarkerLabel compactionStatus)
      variant := some (js "info")
      timestamp := .null }
  | .codex_auto_pause_recovery_summary id content recovery timestamp =>
    some {
      id
      role := js "system"
      content
      metadata := some recovery
      variant := some (js "info")
      timestamp := .number timestamp
      mutable := true }
  | .quest_lifecycle_event id kind title quest threadRefs threadKey questId timestamp =>
    let label := if kind = .submitted then js "Quest submitted" else js "Quest claimed"
    some {
      id
      role := js "system"
      content := label ++ js ": " ++ title
      metadata := some (.object (defined
        [(js "threadRefs", threadRefs),
          (js "threadKey", threadKey.map .string),
          (js "questId", questId.map .string),
          (js "quest", some quest)]))
      variant := some (if kind = .submitted then js "quest_submitted" else js "quest_claimed")
      timestamp := .number timestamp
      mutable := true }
  | .permission_denied id summary =>
    some { id, role := js "system", content := summary, variant := some (js "denied"), timestamp := .null }
  | .permission_approved id summary answers =>
    some {
      id
      role := js "system"
      content := summary
      variant := some (js "approved")
      metadata := (answers.filter fun answers => !answers.isEmpty).map fun answers =>
        .object [(js "answers", .array answers)]
      timestamp := .null }
  | .task_notification task_id summary =>
    (filled summary).map fun summary => {
      id := js "task-notif-" ++ (filled task_id).getD (indexText historyIndex)
      role := js "system"
      content := summary
      variant := some (js "task_completed")
      timestamp := .null }
  | .result is_error errors result =>
    (filled (normalizeErrorText is_error errors result)).map fun errorText => {
      id := js "hist-error-" ++ indexText historyIndex
      role := js "system"
      content := js "Error: " ++ errorText
      variant := some (js "error")
      timestamp := .null }
  | .other => none

/-- `forEachComparableHistoryEntry`: a place of the history that has no message is passed over. The
visitor gets the entry, its number and the index of its message, and the result is the number of entries
with what the visitor has left. -/
def forEachComparableHistoryEntry {Rest σ : Type} (visitor : σ → ComparableHistoryEntry → Nat → Nat → σ)
    (options : HistorySyncHashOptions Rest) (startIndex : ℤ) :
    List (Option (BrowserIncomingMessage Rest)) → (i renderedIndex : Nat) → σ → Nat × σ
  | [], _, renderedIndex, s => (renderedIndex, s)
  | message :: rest, i, renderedIndex, s =>
    let historyIndex := startIndex + i
    let included := message.filter fun message => options.includeMessage.all (· message historyIndex)
    match included.bind fun message =>
        comparableEntry options.suppressRootThinkingOnlyAssistant historyIndex message.content with
    | some entry =>
      forEachComparableHistoryEntry visitor options startIndex rest (i + 1) (renderedIndex + 1)
        (visitor s entry renderedIndex i)
    | none => forEachComparableHistoryEntry visitor options startIndex rest (i + 1) renderedIndex s

end Takode.HistorySync
