import Takode.Lib.Json
import Takode.Lib.JsonCompact
import Takode.ThreadRouting.Markers

/-!
# Replayed Codex plans

A recreated manager of Codex items starts its plans at one again: a plan that the history has already is a
replay, and another one gets the next sequence number (`codex-assistant-replay-dedup.ts`).
-/

namespace Takode.CodexPlans

open JsString JsonText ThreadRouting

structure CodexNativeSubagentOwnership where
  childId : JsString
  parentChildId : Option JsString := none
  rootTurnId : Option JsString := none
deriving DecidableEq

/-- A use of a tool, with its `input.todos` where that is an array. -/
structure ToolUseBlock where
  id : JsString
  name : JsString
  todos : Option (List Value) := none

inductive ContentBlock
  | toolUse (block : ToolUseBlock)
  | other

/-- Of `threadRefs` there are the keys, and of `threadAnswer` there are the ids. -/
structure AssistantMessage where
  id : JsString
  content : List ContentBlock
  toolStartTimes : Option (Record ℚ) := none
  codexSubagent : Option CodexNativeSubagentOwnership := none
  parentToolUseId : Option JsString := none
  threadKey : Option JsString := none
  questId : Option JsString := none
  threadRefs : Option (List JsString) := none
  leaderThreadRole : Option LeaderThreadTextRole := none
  threadAnswer : Option (List JsString) := none
  leaderAnswerUserMessageIds : Option (List JsString) := none
  codexMessagePhase : Option JsString := none

inductive HistoryEntry
  | assistant (message : AssistantMessage)
  | other

/-! ## Plans -/

structure SyntheticPlanState where
  block : ToolUseBlock
  blockIndex : Nat
  key : JsString
  sequence : Nat
  todos : List Value

/-- `JSON.stringify(block.input.todos)`. -/
def SyntheticPlanState.signature (plan : SyntheticPlanState) : List Char := compact (.array plan.todos)

def PLAN_PREFIX : JsString := js "codex-plan-"

def isPlanBlock : ContentBlock → Bool
  | .toolUse block => block.name = js "TodoWrite" && startsWith block.id PLAN_PREFIX
  | .other => false

def isLineTerminator (c : UInt16) : Bool := c = 10 || c = 13 || c = 0x2028 || c = 0x2029

/-- `/^codex-plan-(.+)-(\d+)$/`: the key and the sequence number, which is safe. -/
def matchPlanId (id : JsString) : Option (JsString × Nat) :=
  let rest := (id.drop PLAN_PREFIX.length).reverse
  let digits := (rest.takeWhile isDigit).reverse
  match rest.dropWhile isDigit with
  | 45 :: key =>
    if startsWith id PLAN_PREFIX ∧ digits ≠ [] ∧ key ≠ [] ∧ key.all (!isLineTerminator ·) then
      some (key.reverse, digitsValue digits)
    else none
  | _ => none

/-- The plan of a block. -/
def planOf (block : ToolUseBlock) (blockIndex : Nat) : Option SyntheticPlanState :=
  (matchPlanId block.id).bind fun parts => block.todos.map fun todos =>
    { block, blockIndex, key := parts.1, sequence := parts.2, todos }

def extractSyntheticPlan (message : AssistantMessage) : Option SyntheticPlanState :=
  (message.content.findIdx? isPlanBlock).bind fun blockIndex =>
    match message.content[blockIndex]? with
    | some (.toolUse block) => planOf block blockIndex
    | _ => none

/-! ## Scopes -/

def leaderAnswerIdsKey (message : AssistantMessage) : JsString :=
  if message.leaderThreadRole = some .answer then
    (js ",").intercalate ((message.threadAnswer.or message.leaderAnswerUserMessageIds).getD [])
  else []

def sameCodexNativeSubagentOwnership (left right : Option CodexNativeSubagentOwnership) : Bool :=
  left.map (·.childId) = right.map (·.childId) &&
    left.bind (·.parentChildId) = right.bind (·.parentChildId) &&
    left.bind (·.rootTurnId) = right.bind (·.rootTurnId)

/-- The thread of `threadRouteForTarget`. -/
def threadRouteForTarget (threadKey : JsString) : JsString :=
  ((normalizeThreadTarget threadKey).map (·.threadKey)).getD (js "main")

def normalizeThreadRoute (threadKey questId : Option JsString) : Option JsString :=
  ((threadKey.bind normalizeThreadTarget).or (questId.bind normalizeThreadTarget)).map fun target =>
    threadRouteForTarget target.threadKey

/-- The thread of an entry's route. -/
def routeFromHistoryEntry (entry : AssistantMessage) : Option JsString :=
  (normalizeThreadRoute entry.threadKey entry.questId).or
    (((entry.threadRefs.getD []).find? fun ref => (normalizeThreadTarget ref).isSome).map
      threadRouteForTarget)

def routeKey (route : Option JsString) : JsString :=
  let key := toLowerCase (trim (route.getD (js "main")))
  if key = [] then js "main" else key

def sameThreadRoute (left right : Option JsString) : Bool := routeKey left = routeKey right

def normalizeCodexMessagePhase (value : Option JsString) : Option JsString :=
  value.filter fun phase => phase = js "commentary" || phase = js "final_answer"

def samePlanReplayScope (existing incoming : AssistantMessage) : Bool :=
  sameCodexNativeSubagentOwnership existing.codexSubagent incoming.codexSubagent &&
    existing.parentToolUseId = incoming.parentToolUseId &&
    sameThreadRoute (routeFromHistoryEntry existing) (routeFromHistoryEntry incoming) &&
    existing.leaderThreadRole = incoming.leaderThreadRole &&
    leaderAnswerIdsKey existing = leaderAnswerIdsKey incoming &&
    normalizeCodexMessagePhase existing.codexMessagePhase =
      normalizeCodexMessagePhase incoming.codexMessagePhase

/-! ## Replays -/

/-- `n + 1` of a number that is at most `2 ^ 53`, above which not every integer is one. -/
def successor (n : Nat) : Nat := if n < 2 ^ 53 then n + 1 else n

/-- What is known of the history: the newest signature in the scope, and the largest sequence number. -/
structure PlanScan where
  latestSignature : Option (List Char) := none
  maxSequence : Nat := 0

def scanStep (message : AssistantMessage) (key : JsString) (scan : PlanScan) : HistoryEntry → PlanScan
  | .other => scan
  | .assistant entry =>
    match extractSyntheticPlan entry with
    | none => scan
    | some existing =>
      if existing.key ≠ key then scan
      else
        { latestSignature :=
            if samePlanReplayScope entry message then scan.latestSignature.or (some existing.signature)
            else scan.latestSignature
          maxSequence := max scan.maxSequence existing.sequence }

/-- The history is scanned from its end. -/
def scanHistory (history : List HistoryEntry) (message : AssistantMessage) (key : JsString) : PlanScan :=
  history.reverse.foldl (scanStep message key) {}

structure CodexPlanReplayPreparation where
  message : AssistantMessage
  isDuplicate : Bool

def planToolUseId (key : JsString) (sequence : Nat) : JsString :=
  PLAN_PREFIX ++ key ++ js "-" ++ decimal sequence

/-- The message with its plan under the next sequence number. -/
def rekeyed (message : AssistantMessage) (incoming : SyntheticPlanState) (nextSequence : Nat) :
    AssistantMessage :=
  let nextToolUseId := planToolUseId incoming.key nextSequence
  { message with
    id :=
      if message.id = js "codex-tool_use-" ++ incoming.block.id then js "codex-tool_use-" ++ nextToolUseId
      else message.id ++ js "-plan-sequence-" ++ decimal nextSequence
    content := message.content.mapIdx fun index block =>
      if index = incoming.blockIndex then .toolUse { incoming.block with id := nextToolUseId } else block
    toolStartTimes := message.toolStartTimes.map fun times =>
      Record.ofEntries (times.ownEntries.map fun entry =>
        (if entry.1 = incoming.block.id then nextToolUseId else entry.1, entry.2)) }

def prepareCodexPlanAssistantReplay (history : List HistoryEntry) (message : AssistantMessage) :
    CodexPlanReplayPreparation :=
  match extractSyntheticPlan message with
  | none => ⟨message, false⟩
  | some incoming =>
    let scan := scanHistory history message incoming.key
    if scan.latestSignature = some incoming.signature then ⟨message, true⟩
    else if incoming.sequence > scan.maxSequence then ⟨message, false⟩
    else ⟨rekeyed message incoming (successor scan.maxSequence), false⟩

/-- What an entry that arrives adds to the history. -/
def receive (history : List HistoryEntry) : HistoryEntry → List HistoryEntry
  | .other => history ++ [.other]
  | .assistant message =>
    let prepared := prepareCodexPlanAssistantReplay history message
    if prepared.isDuplicate then history else history ++ [.assistant prepared.message]

def received (stream : List HistoryEntry) : List HistoryEntry := stream.foldl receive []

end Takode.CodexPlans
