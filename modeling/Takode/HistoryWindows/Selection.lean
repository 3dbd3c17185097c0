import Takode.Lib.FreshNames

/-!
# Windows of a history

The messages of some turns of a history, and of what stands between them
(`history-window-selection.ts`).
-/

namespace Takode.HistoryWindows

open JsString

/-! ## Histories and turns -/

/-- A message; `id` and `messageId` are absent where they are no strings. -/
structure HistoryMessage (α : Type*) where
  type : JsString
  id : Option JsString
  messageId : Option JsString
  historyIndex : Option Int
  content : α

/-- `endIdx` is negative while the turn is open. -/
structure TurnBoundary where
  startIdx : Nat
  endIdx : Int
deriving DecidableEq

abbrev MessageFilter (α : Type*) := HistoryMessage α → Nat → Bool

/-- What a window is asked for. -/
structure WindowInput (α : Type*) where
  messageHistory : List (HistoryMessage α)
  turns : List TurnBoundary
  requestedFromTurn : Int
  turnCount : Nat
  targetMessageId : Option JsString
  targetHistoryIndex : Option Rat
  includeMessage : Option (MessageFilter α)
  includeOutsideTurnMessage : Option (MessageFilter α)

variable {α : Type*}

namespace HistoryMessage

/-- `{ ...message, history_index }`. -/
def placed (message : HistoryMessage α) (historyIndex : Nat) : HistoryMessage α :=
  { message with historyIndex := some historyIndex }

/-- `messageId`, of the message at an index. -/
def name (message : HistoryMessage α) (historyIndex : Nat) : JsString :=
  let assistantId := if message.type = js "assistant" then message.messageId else none
  ((message.id.filter fun id => trim id ≠ []).or (assistantId.filter fun id => trim id ≠ [])).getD
    (message.type ++ js ":" ++ decimal historyIndex)

end HistoryMessage

namespace WindowInput

/-- `!includeMessage || includeMessage(message, index)`. -/
def accepts (input : WindowInput α) (message : HistoryMessage α) (index : Nat) : Bool :=
  input.includeMessage.all fun includes => includes message index

/-- `includeOutsideTurnMessage?.(message, index)`. -/
def acceptsOutside (input : WindowInput α) (message : HistoryMessage α) (index : Nat) : Bool :=
  input.includeOutsideTurnMessage.any fun includes => includes message index

/-! ## The first turn -/

def resolveTargetHistoryIndex (input : WindowInput α) : Option Nat :=
  match input.targetHistoryIndex with
  | some index =>
    some (max 0 (min index.floor (max 0 ((input.messageHistory.length : Int) - 1)))).toNat
  | none =>
    ((input.targetMessageId.map trim).filter (· ≠ [])).bind fun target =>
      (input.messageHistory.zipIdx.find? fun entry =>
        input.accepts entry.1 entry.2 && entry.1.name entry.2 = target).map (·.2)

/-- The index before which a turn's messages and those after it end. -/
def nextStart (input : WindowInput α) (index : Nat) : Nat :=
  ((input.turns[index + 1]?).map (·.startIdx)).getD input.messageHistory.length

def ownsMessage (input : WindowInput α) (target : Nat) (message : HistoryMessage α)
    (turn : TurnBoundary) (index : Nat) : Bool :=
  if target < turn.startIdx || input.nextStart index ≤ target then false
  else if turn.endIdx < 0 || (target : Int) ≤ turn.endIdx then true
  else input.acceptsOutside message target

def findOwningTurn (input : WindowInput α) (target : Nat) : Option Nat :=
  match input.messageHistory[target]? with
  | none => none
  | some message =>
    if !input.accepts message target then none
    else if (input.turns.head?).any fun first => target < first.startIdx then
      if input.acceptsOutside message target then some 0 else none
    else
      (input.turns.zipIdx.find? fun entry => input.ownsMessage target message entry.1 entry.2).map (·.2)

def resolveHistoryWindowFromTurn (input : WindowInput α) : Nat :=
  let totalTurns := input.turns.length
  if totalTurns = 0 then 0
  else
    match input.resolveTargetHistoryIndex.bind input.findOwningTurn with
    | some targetTurn =>
      (max 0 (min ((targetTurn : Int) - (input.turnCount / 2 : Nat))
        ((totalTurns : Int) - input.turnCount))).toNat
    | none =>
      if input.requestedFromTurn < 0 then totalTurns - input.turnCount
      else (max 0 (min input.requestedFromTurn ((totalTurns : Int) - 1))).toNat

/-! ## The messages -/

/-- The loop of `projectHistoryRange`, with what it has projected. -/
def projectMessages (input : WindowInput α) (startIndex : Nat) :
    List (HistoryMessage α) → List Nat → List (HistoryMessage α)
  | projected, [] => projected
  | projected, historyIndex :: rest =>
    match input.messageHistory[historyIndex]? with
    | none => input.projectMessages startIndex projected rest
    | some message =>
      if !input.accepts message historyIndex then input.projectMessages startIndex projected rest
      else
        let row :=
          if historyIndex = startIndex + projected.length && message.historyIndex.isNone then message
          else message.placed historyIndex
        input.projectMessages startIndex (projected ++ [row]) rest

def projectHistoryRange (input : WindowInput α) (startIndex endIndex : Nat) :
    List (HistoryMessage α) :=
  input.projectMessages startIndex [] (List.range' startIndex (endIndex - startIndex))

/-- The loops that take messages from outside turns. -/
def outsideMessages (input : WindowInput α) (startIndex endIndex : Nat) : List (HistoryMessage α) :=
  (List.range' startIndex (endIndex - startIndex)).filterMap fun historyIndex =>
    (input.messageHistory[historyIndex]?).bind fun message =>
      if input.acceptsOutside message historyIndex then some (message.placed historyIndex) else none

end WindowInput

/-- A message after leading ones says where it is. -/
def HistoryMessage.settled (message : HistoryMessage α) (position : Nat) : HistoryMessage α :=
  if message.historyIndex.any (0 ≤ ·) then message else message.placed position

structure HistoryWindow (α : Type*) where
  fromTurn : Nat
  turnCount : Nat
  startIdx : Int
  messages : List (HistoryMessage α)

namespace WindowInput

def endTurnExclusive (input : WindowInput α) : Nat :=
  min input.turns.length (input.resolveHistoryWindowFromTurn + input.turnCount)

def turnStartIdx (input : WindowInput α) : Nat :=
  ((input.turns[input.resolveHistoryWindowFromTurn]?).map (·.startIdx)).getD 0

/-- The last turn, if it is closed. -/
def closedTurn (input : WindowInput α) : Option TurnBoundary :=
  (if input.endTurnExclusive = 0 then none else input.turns[input.endTurnExclusive - 1]?).filter
    fun lastTurn => 0 ≤ lastTurn.endIdx

def trailingEndExclusive (input : WindowInput α) : Nat :=
  ((input.turns[input.endTurnExclusive]?).map (·.startIdx)).getD input.messageHistory.length

def baseEndExclusive (input : WindowInput α) : Nat :=
  (input.closedTurn.map fun lastTurn => lastTurn.endIdx.toNat + 1).getD input.trailingEndExclusive

def leadingMessages (input : WindowInput α) : List (HistoryMessage α) :=
  if input.resolveHistoryWindowFromTurn = 0 && 0 < input.turnStartIdx then
    input.outsideMessages 0 input.turnStartIdx
  else []

def trailingMessages (input : WindowInput α) : List (HistoryMessage α) :=
  if input.closedTurn.isSome then
    input.outsideMessages input.baseEndExclusive input.trailingEndExclusive
  else []

end WindowInput

def selectHistoryWindowRange (input : WindowInput α) : HistoryWindow α :=
  let messages := input.projectHistoryRange input.turnStartIdx input.baseEndExclusive
  { fromTurn := input.resolveHistoryWindowFromTurn
    turnCount := input.endTurnExclusive - input.resolveHistoryWindowFromTurn
    startIdx := (input.leadingMessages.head?.bind (·.historyIndex)).getD input.turnStartIdx
    messages :=
      (if input.leadingMessages = [] then messages
      else input.leadingMessages ++ messages.mapIdx fun offset message =>
        message.settled (input.turnStartIdx + offset)) ++ input.trailingMessages }

end Takode.HistoryWindows
