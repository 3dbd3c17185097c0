import Takode.Quests.Normalizing

/-!
# Rounds

The rounds of a quest (`quest-rounds.ts`): those that are stored, or one for each
Journey run of the board where none are.
-/

namespace Takode.Quests

open JsString

structure QuestRoundOpenInput where
  title : JsString
  brief : Option JsString := none
  requests : Option (List Nat) := none
deriving DecidableEq

structure QuestRoundEdit where
  number : Nat
  title : Option JsString := none
  brief : Option JsString := none
deriving DecidableEq

def sortedRuns (runs : Option (List QuestJourneyRun)) : List QuestJourneyRun :=
  (runs.getD []).insertionSort fun a b => a.createdAt ≤ b.createdAt

def lastWorkActivity (run : QuestJourneyRun) (feedback : Option (List QuestFeedbackEntry)) : Nat :=
  let worked := run.phaseOccurrences.filter fun occurrence => occurrence.phaseId = js "work"
  let noted := (feedback.getD []).filter fun entry =>
    entry.journeyRunId = some run.runId && entry.phaseId = some (js "work")
  (worked.flatMap (fun occurrence => occurrence.startedAt.toList ++ occurrence.completedAt.toList) ++
    noted.map (·.ts)).foldl max run.createdAt

/-- The rounds of the board's runs; `first` is when the first one opened. -/
def derivedRounds (feedback : Option (List QuestFeedbackEntry)) :
    Nat → List QuestJourneyRun → List QuestRound
  | _, [] => []
  | first, [_] => [{ openedAt := first, derived := true }]
  | first, run :: next :: rest =>
    { openedAt := first
      closedAt := some (min (lastWorkActivity run feedback) next.createdAt)
      derived := true } :: derivedRounds feedback next.createdAt (next :: rest)

def questRoundRecords (quest : Quest) : List QuestRound :=
  match filled quest.rounds with
  | some rounds => rounds
  | none =>
    let runs := (sortedRuns quest.journeyRuns).filter fun run => run.source = .board
    if runs.length ≤ 1 then [{ openedAt := quest.createdAt, derived := true }]
    else derivedRounds quest.feedback quest.createdAt runs

/-- The latest round once the quest is reopened: it closes, and keeps the debrief of a done quest. -/
def closeRound (quest : Quest) (now : Nat) (latest : QuestRound) : QuestRound :=
  let latest := match latest.closedAt with
    | some _ => latest
    | none => { latest with
        closedAt := some (if quest.status = .done then quest.completedAt.getD now
          else max (now - 1) latest.openedAt) }
  if quest.status = .done && quest.cancelled ≠ some true && (filled latest.outcome).isNone then
    { latest with
      outcome := (quest.debrief.bind nonempty).or latest.outcome
      outcomeTldr := (quest.debriefTldr.bind nonempty).or latest.outcomeTldr }
  else latest

/-- A request that a round may name. -/
def isRequest (feedback : Option (List QuestFeedbackEntry)) (request : Nat) : Bool :=
  ((feedback.getD [])[request]?).any fun entry => entry.deletedAt.isNone

def reopenQuestRounds (quest : Quest) (input : QuestRoundOpenInput) (now : Nat) :
    Except JsString (List QuestRound) := do
  let records := questRoundRecords quest
  let rounds := records.modify (records.length - 1) (closeRound quest now)
  let some title := input.title.nonempty | .error (js "A new round needs a title")
  let requests := (input.requests.getD []).eraseDups.insertionSort (· ≤ ·)
  match requests.find? fun request => !isRequest quest.feedback request with
  | some request =>
    .error (js "Request #" ++ decimal request ++ js " is not a feedback entry of this quest")
  | none =>
    return rounds ++ [{
      openedAt := now
      title := some title
      brief := input.brief.bind nonempty
      requests := listed requests }]

def editRound (edit : QuestRoundEdit) (round : QuestRound) : QuestRound :=
  { round with
    title := match edit.title with
      | some title => title.nonempty
      | none => round.title
    brief := match edit.brief with
      | some brief => brief.nonempty
      | none => round.brief }

def editQuestRound (quest : Quest) (edit : QuestRoundEdit) : Except JsString (List QuestRound) :=
  let rounds := questRoundRecords quest
  if 1 ≤ edit.number && edit.number ≤ rounds.length then
    .ok (rounds.modify (edit.number - 1) (editRound edit))
  else
    .error (js "Round " ++ decimal edit.number ++ js " does not exist; this quest has " ++
      decimal rounds.length ++ js " round(s)")

end Takode.Quests
