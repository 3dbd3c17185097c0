import Takode.Lib.Scanning
import Takode.Quests.Evidence

/-!
# Rounds as they are read

`buildQuestRounds`: the rounds of a quest with the feedback, the Journey runs and the deliveries
that are placed in them by time.
-/

namespace Takode.Quests

open JsString

/-! ## Titles from notes -/

/-- `\w`. -/
def isWordUnit (c : UInt16) : Bool :=
  isDigit c || (97 ≤ lower c && lower c ≤ 122) || c == unit '_'

/-- What `.` does not match. -/
def isLineTerminator (c : UInt16) : Bool := c == unit '\n' || c == unit '\r' || c == 8232 || c == 8233

/-- `replace(/^\s*(?:[-*]|#+|\d+\.)\s+/, "")`. -/
def removeBullet (line : JsString) : JsString :=
  let text := line.dropWhile isSpace
  let hashes := text.takeWhile (· = unit '#')
  let digits := text.takeWhile isDigit
  let mark :=
    if text.head? = some (unit '-') ∨ text.head? = some (unit '*') then 1
    else if hashes ≠ [] then hashes.length
    else if digits ≠ [] ∧ text[digits.length]? = some (unit '.') then digits.length + 1
    else 0
  if mark ≠ 0 ∧ (text.drop mark).head?.any isSpace then (text.drop mark).dropWhile isSpace else line

/-- ``replace(/\*\*|__|`/g, "")``. -/
def removeEmphasis : JsString → JsString
  | [] => []
  | [c] => if c = unit '\x60' then [] else [c]
  | c :: d :: rest =>
    if c = unit '\x60' then removeEmphasis (d :: rest)
    else if c = d ∧ (c = unit '*' ∨ c = unit '_') then removeEmphasis rest
    else c :: removeEmphasis (d :: rest)

/-- `/^(?:Outcome|Work|Summary)/i`: what follows. -/
def afterNoteWord (line : JsString) : Option JsString :=
  ((afterLiteral (js "outcome") line).or (afterLiteral (js "work") line)).or
    (afterLiteral (js "summary") line)

/-- `replace(/^(?:Outcome|Work|Summary)(?: for [^:]+)?:\s*/i, "")`. -/
def removeNoteWord (line : JsString) : JsString :=
  match afterNoteWord line with
  | none => line
  | some rest =>
    let named := (afterLiteral (js " for ") rest).bind fun name =>
      let text := name.takeWhile (· ≠ unit ':')
      if text = [] then none else afterLiteral (js ":") (name.drop text.length)
    match named.or (afterLiteral (js ":") rest) with
    | some text => text.dropWhile isSpace
    | none => line

/-- `/^(?:Outcome|Work|Summary)\b.{0,30}$/i`. -/
def isNoteHeading (line : JsString) : Bool :=
  (afterNoteWord line).any fun rest =>
    !rest.head?.any isWordUnit && rest.length ≤ 30 && !rest.any isLineTerminator

/-- `/^(.{20,}?[.;])(?:\s|$)/`: the first sentence, without its stop. -/
def firstSentence (text : JsString) : Option JsString :=
  ((List.range text.length).find? fun n =>
    20 ≤ n && (text[n]? = some (unit '.') || text[n]? = some (unit ';')) &&
      !(text.take n).any isLineTerminator && (text[n + 1]?).all isSpace).map text.take

def ROUND_TITLE_LIMIT : Nat := 90

def roundTitle (summary : Option JsString) : Option JsString :=
  let lines := (summary.map (List.splitOn (unit '\n'))).getD []
  let candidates := lines.map fun candidate =>
    trim (removeNoteWord (removeEmphasis (removeBullet candidate)))
  (candidates.find? fun candidate => 0 < candidate.length && !isNoteHeading candidate).map fun line =>
    let sentence := (firstSentence line).getD line
    if sentence.length ≤ ROUND_TITLE_LIMIT then sentence
    else
      let cut := sentence.take ROUND_TITLE_LIMIT
      let lastSpace := ROUND_TITLE_LIMIT - 1 - cut.reverse.idxOf (unit ' ')
      let words := cut.take (if unit ' ' ∈ cut ∧ 40 < lastSpace then lastSpace else cut.length)
      words.rdropWhile (fun c => c ∈ js ",(:-") ++ [8230]

/-! ## Notes -/

def isWorkNote (entry : QuestFeedbackEntry) : Bool :=
  entry.author = .agent && entry.phaseId = some (js "work") &&
    (entry.kind = none || entry.kind = some (js "phase_summary") ||
      entry.kind = some (js "phase_finding"))

def noteSummary (entry : Option QuestFeedbackEntry) : Option JsString :=
  entry.map fun entry => (entry.tldr.bind nonempty).getD (trim entry.text)

/-- The entries that are not deleted, with their places. -/
def indexedLiveQuestFeedbackEntries (entries : Option (List QuestFeedbackEntry)) :
    List (Nat × QuestFeedbackEntry) :=
  ((entries.getD []).mapIdx fun index entry => (index, entry)).filter (·.2.deletedAt.isNone)

/-- The Work occurrence of a delivery, which the store only carries along. -/
def QuestCodeDelivery.phaseOccurrenceId (delivery : QuestCodeDelivery) : JsString :=
  ((delivery.rest.get (js "phaseOccurrenceId")).bind JsonValue.asString).getD []

/-! ## Places -/

structure QuestRoundView where
  number : Nat
  title : JsString
  brief : Option JsString
  openedAt : Nat
  closedAt : Option Nat
  isOpen : Bool
  derived : Bool
  outcome : Option JsString
  outcomeTldr : Option JsString
  requestIndices : List Nat
  feedbackIndices : List Nat
  runIds : List JsString
  deliveryIds : List JsString
deriving DecidableEq

structure QuestRoundsView where
  rounds : List QuestRoundView
  pendingFeedbackIndices : List Nat
deriving DecidableEq

section Places

variable (quest : Quest)

/-- When a round closed; the last round of a done quest closes with it. -/
def closedAt (index : Nat) : Option Nat :=
  (((questRoundRecords quest)[index]?).bind (·.closedAt)).or
    (if index = (questRoundRecords quest).length - 1 ∧ quest.status = .done then
      some (quest.completedAt.getD quest.createdAt) else none)

/-- The last round that had opened, each after the one before. -/
def openedBy (ts : Nat) : Nat :=
  ((questRoundRecords quest).tail.takeWhile (·.openedAt ≤ ts)).length

/-- The round that was open then; the next one where it had closed. -/
def roundAt (ts : Nat) : Nat :=
  let index := openedBy quest ts
  match closedAt quest index with
  | some closed => if closed < ts then index + 1 else index
  | none => index

/-- The run that an id names: of several the one that started last. -/
def runOf (runId : JsString) : Option QuestJourneyRun :=
  (sortedRuns quest.journeyRuns).reverse.find? (·.runId = runId)

def runRound (runId : JsString) : Option Nat :=
  (runOf quest runId).map fun run => roundAt quest run.createdAt

/-- The round of the run of a phase note, unless it was written in a later round. -/
def noteRound (entry : QuestFeedbackEntry) : Option Nat :=
  let records := questRoundRecords quest
  ((filled entry.journeyRunId).bind (runRound quest)).filter fun index =>
    index < records.length &&
      (index = records.length - 1 || (records[index + 1]?).any fun next => entry.ts < next.openedAt)

/-- The last round that names an entry as its request. -/
def explicitRequest (index : Nat) : Option Nat :=
  (List.range (questRoundRecords quest).length).reverse.find? fun round =>
    ((questRoundRecords quest)[round]?).any fun record => index ∈ record.requests.getD []

def entryRound (index : Nat) (entry : QuestFeedbackEntry) : Nat :=
  (explicitRequest quest index).getD ((noteRound quest entry).getD (roundAt quest entry.ts))

/-- The round of the run of a delivery, or of its time. -/
def deliveryPlace (delivery : QuestCodeDelivery) : Nat :=
  let run := (sortedRuns quest.journeyRuns).find? fun candidate =>
    startsWith delivery.phaseOccurrenceId (candidate.runId ++ js ":")
  (run.bind fun run => runRound quest run.runId).getD (roundAt quest delivery.recordedAt)

def deliveryRound (delivery : QuestCodeDelivery) : Nat :=
  min (deliveryPlace quest delivery) ((questRoundRecords quest).length - 1)

/-! ## Rounds -/

/-- A round before anything but its runs is placed in it. -/
def roundView (index : Nat) (record : QuestRound) : QuestRoundView where
  number := index + 1
  title := (record.title.map trim).getD []
  brief := record.brief.bind nonempty
  openedAt := if index = 0 then min record.openedAt quest.createdAt else record.openedAt
  closedAt := closedAt quest index
  isOpen := (closedAt quest index).isNone
  derived := record.derived
  outcome := filled record.outcome
  outcomeTldr := filled record.outcomeTldr
  requestIndices := []
  feedbackIndices := []
  runIds := ((sortedRuns quest.journeyRuns).filter
    fun run => runRound quest run.runId = some index).map (·.runId)
  deliveryIds := []

/-- The debrief of a done quest is the outcome of its last round. -/
def debriefed (view : QuestRoundView) : QuestRoundView :=
  if quest.status = .done ∧ quest.cancelled ≠ some true ∧ view.outcome = none then
    { view with
      outcome := quest.debrief.bind nonempty
      outcomeTldr := (quest.debriefTldr.bind nonempty).or view.outcomeTldr }
  else view

def roundViews : List QuestRoundView :=
  let records := questRoundRecords quest
  (records.mapIdx (roundView quest)).modify (records.length - 1) (debriefed quest)

/-- The step of the loop that places the feedback. -/
def placeEntry (view : QuestRoundsView) (entry : Nat × QuestFeedbackEntry) : QuestRoundsView :=
  let index := entryRound quest entry.1 entry.2
  match view.rounds[index]? with
  | none => { view with pendingFeedbackIndices := view.pendingFeedbackIndices ++ [entry.1] }
  | some round =>
    let askedBeforeOpening := entry.2.author = .human && (filled entry.2.journeyRunId).isNone &&
      entry.2.ts < round.openedAt
    { view with rounds := view.rounds.modify index fun round =>
        { round with
          feedbackIndices := round.feedbackIndices ++ [entry.1]
          requestIndices :=
            if explicitRequest quest entry.1 = some index || askedBeforeOpening then
              round.requestIndices ++ [entry.1]
            else round.requestIndices } }

/-- The step of the loop that places the deliveries. -/
def placeDelivery (rounds : List QuestRoundView) (delivery : QuestCodeDelivery) :
    List QuestRoundView :=
  rounds.modify (deliveryRound quest delivery) fun round =>
    { round with deliveryIds := round.deliveryIds ++ [delivery.id] }

/-- The summary and the title that a round takes from its Work notes. -/
def summarized (index : Nat) (view : QuestRoundView) : QuestRoundView :=
  let records := questRoundRecords quest
  let notes := (view.feedbackIndices.filterMap fun index => (quest.feedback.getD [])[index]?).filter
    isWorkNote
  { view with
    outcomeTldr :=
      if view.outcomeTldr = none ∧ view.isOpen = false then
        (noteSummary notes.getLast?).filter (· ≠ [])
      else view.outcomeTldr
    title :=
      if view.title = [] then
        (if view.derived ∧ 1 < records.length then roundTitle (noteSummary notes.head?) else none).getD
          (if index = 0 then quest.title else js "Round " ++ decimal (index + 1))
      else view.title }

def buildQuestRounds : QuestRoundsView :=
  let placed := (indexedLiveQuestFeedbackEntries quest.feedback).foldl (placeEntry quest)
    ⟨roundViews quest, []⟩
  let rounds := (quest.codeDeliveries.getD []).foldl (placeDelivery quest) placed.rounds
  { placed with rounds := rounds.mapIdx (summarized quest) }

end Places

end Takode.Quests
