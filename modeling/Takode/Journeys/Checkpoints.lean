import Takode.Journeys.Plans
import Takode.Lib.Distinct
import Takode.Lib.Insertions

/-!
# Automatic User Checkpoints

A question to the user that blocks a quest moves its board row from Work into a User Checkpoint, and the
row resumes Work when the last one is resolved (`board-user-checkpoint.ts`).
-/

namespace Takode.Journeys

open JsString

structure BoardRowAutoCheckpoint where
  checkpointIndex : Int
  resumedAt : Option ℚ := none
deriving DecidableEq

structure BoardRow where
  status : Option JsString
  journey : Option QuestJourneyPlanState
  waitForInput : Option (List JsString) := none
  openQuestions : Option (List JsString) := none
  autoCheckpoint : Option BoardRowAutoCheckpoint := none
deriving DecidableEq

def AUTO_CHECKPOINT_REOPEN_WINDOW_MS : ℚ := 10 * 60000

def AUTO_CHECKPOINT_NOTE : JsString :=
  js "Added by Takode while the leader's questions to the user were open."

def AUTO_CHECKPOINT_REVISION_REASON : JsString :=
  js "Takode added a User Checkpoint for the leader's open question to the user."

/-- `phaseIds[index]`. -/
def phaseAt (phaseIds : List JsString) (index : Int) : Option JsString :=
  if 0 ≤ index then phaseIds[index.toNat]? else none

/-- `String(index)`. -/
def indexText (index : Int) : JsString :=
  if 0 ≤ index then decimal index.toNat else js "-" ++ decimal index.natAbs

/-! ## Questions -/

/-- `/^n-\d+$/`. -/
def isQuestionId (id : JsString) : Bool :=
  id.take 2 = js "n-" && !(id.drop 2).isEmpty && (id.drop 2).all isDigit

def sortIds (ids : List JsString) : Option (List JsString) :=
  let sorted := (ids.filter isQuestionId).insertionSort fun a b =>
    digitsValue (a.drop 2) ≤ digitsValue (b.drop 2)
  if sorted = [] then none else some sorted

/-- `isAutomaticCheckpointCurrent`. -/
def BoardRow.isAutomaticCheckpointCurrent (row : BoardRow) : Bool :=
  row.autoCheckpoint.any fun previous =>
    (row.journey.bind (·.activePhaseIndex)) = some previous.checkpointIndex

/-! ## Plans -/

/-- Phases are inserted, and what stands at later positions is shifted. -/
def insertPhases (journey : QuestJourneyPlanState) (phaseIds : List JsString) (position : Nat)
    (inserted : List JsString) (now : ℚ) : QuestJourneyPlanState :=
  { journey with
    phaseIds := phaseIds.take position ++ inserted ++ phaseIds.drop position
    phaseNotes := journey.phaseNotes.map (·.shift position inserted.length)
    phaseSkipReasons := journey.phaseSkipReasons.map (·.shift position inserted.length)
    phaseTimings := journey.phaseTimings.map (·.shift position inserted.length)
    revisionReason := some AUTO_CHECKPOINT_REVISION_REASON
    revisedAt := some now
    revisionCount := some (journey.revisionCount.getD 0 + 1) }

/-- The timing of a phase that is left: one that started and did not end ends. -/
def endedTiming (now : ℚ) (timing : QuestJourneyPhaseTiming) : QuestJourneyPhaseTiming :=
  if (timing.startedAt.any (· ≠ 0)) && !(timing.endedAt.any (· ≠ 0)) then
    { timing with endedAt := some now }
  else timing

/-- The timings once a plan moves from a phase to another. -/
def movedTimings (timings : Record (Option QuestJourneyPhaseTiming)) (fromIndex toIndex : Int) (now : ℚ) :
    Record (Option QuestJourneyPhaseTiming) :=
  let left := match timings.get? (indexText fromIndex) with
    | some (some timing) => timings.set (indexText fromIndex) (some (endedTiming now timing))
    | _ => timings
  left.set (indexText toIndex) (some ⟨some now, none⟩)

/-- The timings once a checkpoint takes the place of the Work after it: it never ended. -/
def reopenedTimings (timings : Record (Option QuestJourneyPhaseTiming)) (workIndex : Nat)
    (checkpointIndex : Int) (now : ℚ) : Record (Option QuestJourneyPhaseTiming) :=
  let rest := timings.delete (indexText workIndex)
  let startedAt := ((rest.get? (indexText checkpointIndex)).join.bind (·.startedAt)).getD now
  rest.set (indexText checkpointIndex) (some ⟨some startedAt, none⟩)

namespace Casing

variable (casing : Casing)

def addIds (ids : Option (List JsString)) (added : List JsString) : Option (List JsString) :=
  sortIds (ids.getD [] ++ added.map casing.lowered).eraseDups

def addId (ids : Option (List JsString)) (id : JsString) : List JsString := (casing.addIds ids [id]).getD []

def removeIds (ids : Option (List JsString)) (removed : List JsString) : Option (List JsString) :=
  sortIds ((ids.getD []).filter fun id => id ∉ removed.map casing.lowered)

def setJourney (row : BoardRow) (journey : QuestJourneyPlanState) (phaseIds : List JsString)
    (activePhaseIndex : Int) (status : JsString) : BoardRow :=
  { row with
    status := some status
    journey := some (casing.normalizeQuestJourneyPlan
      { journey with
        phaseIds
        activePhaseIndex := some activePhaseIndex
        currentPhaseId := phaseAt phaseIds activePhaseIndex } (some status)) }

def moveToPhase (row : BoardRow) (journey : QuestJourneyPlanState) (phaseIds : List JsString)
    (fromIndex toIndex : Int) (status : JsString) (now : ℚ) : BoardRow :=
  casing.setJourney row
    { journey with
      phaseTimings := some (movedTimings (journey.phaseTimings.getD ∅) fromIndex toIndex now) }
    phaseIds toIndex status

/-! ## Checkpoints -/

/-- The checkpoint that Work was just resumed from, if a question is soon enough to reopen it. -/
def reopenedCheckpoint (row : BoardRow) (phaseIds : List JsString) (workIndex : Nat) (now : ℚ) :
    Option BoardRowAutoCheckpoint :=
  row.autoCheckpoint.filter fun previous =>
    previous.resumedAt.any (fun resumedAt => now - resumedAt ≤ AUTO_CHECKPOINT_REOPEN_WINDOW_MS) &&
      previous.checkpointIndex + 1 = workIndex &&
      phaseAt phaseIds previous.checkpointIndex = some (js "user-checkpoint")

/-- The short Work since becomes time of the checkpoint, which resumes into that Work again. -/
def reopenCheckpoint (row : BoardRow) (journey : QuestJourneyPlanState) (phaseIds : List JsString)
    (workIndex : Nat) (checkpointIndex : Int) (now : ℚ) : BoardRow :=
  { casing.setJourney row
      { journey with
        phaseTimings := some (reopenedTimings (journey.phaseTimings.getD ∅) workIndex checkpointIndex now) }
      phaseIds checkpointIndex (js "USER_CHECKPOINTING") with
    autoCheckpoint := some { checkpointIndex } }

/-- A planned checkpoint comes next, with Work after it. -/
def takePlannedCheckpoint (row : BoardRow) (journey : QuestJourneyPlanState) (phaseIds : List JsString)
    (workIndex : Nat) (now : ℚ) : BoardRow :=
  let journey := if phaseIds[workIndex + 2]? ≠ some (js "work") then
      insertPhases journey phaseIds (workIndex + 2) [js "work"] now
    else journey
  { casing.moveToPhase row journey (casing.normalizeKnownQuestJourneyPhaseIds journey.phaseIds)
      workIndex (workIndex + 1) (js "USER_CHECKPOINTING") now with
    autoCheckpoint := none }

/-- A checkpoint is added, with Work after it. -/
def addCheckpoint (row : BoardRow) (journey : QuestJourneyPlanState) (phaseIds : List JsString)
    (workIndex : Nat) (now : ℚ) : BoardRow :=
  let inserted := insertPhases journey phaseIds (workIndex + 1) [js "user-checkpoint", js "work"] now
  let journey := { inserted with
    phaseNotes := some ((inserted.phaseNotes.getD ∅).set (decimal (workIndex + 1))
      (some AUTO_CHECKPOINT_NOTE)) }
  { casing.moveToPhase row journey (casing.normalizeKnownQuestJourneyPhaseIds journey.phaseIds)
      workIndex (workIndex + 1) (js "USER_CHECKPOINTING") now with
    autoCheckpoint := some { checkpointIndex := workIndex + 1 } }

def enterUserCheckpoint (row : BoardRow) (journey : QuestJourneyPlanState) (phaseIds : List JsString)
    (workIndex : Nat) (now : ℚ) : BoardRow :=
  match reopenedCheckpoint row phaseIds workIndex now with
  | some previous => casing.reopenCheckpoint row journey phaseIds workIndex previous.checkpointIndex now
  | none =>
    if phaseIds[workIndex + 1]? = some (js "user-checkpoint") then
      casing.takePlannedCheckpoint row journey phaseIds workIndex now
    else casing.addCheckpoint row journey phaseIds workIndex now

/-- The row, and whether it moved. -/
def syncAutomaticUserCheckpoint (row : BoardRow) (now : ℚ) : BoardRow × Bool :=
  match row.journey with
  | none => (row, false)
  | some journey =>
    if journey.mode = some (js "proposed") then (row, false)
    else match journey.activePhaseIndex with
      | none => (row, false)
      | some index =>
        let phaseIds := casing.normalizeKnownQuestJourneyPhaseIds journey.phaseIds
        let status := casing.normalizedStatus row.status
        let hasLinks := row.waitForInput.getD [] ≠ []
        if status = js "WORKING" ∧ phaseAt phaseIds index = some (js "work") ∧ hasLinks then
          (casing.enterUserCheckpoint row journey phaseIds index.toNat now, true)
        else if status = js "USER_CHECKPOINTING" ∧ row.isAutomaticCheckpointCurrent ∧ ¬ hasLinks then
          if phaseAt phaseIds (index + 1) ≠ some (js "work") then (row, false)
          else
            ({ casing.moveToPhase row journey phaseIds index (index + 1) (js "WORKING") now with
                autoCheckpoint := some { checkpointIndex := index, resumedAt := some now } }, true)
        else (row, false)

/-- The row, and whether it changed. -/
def addLeaderQuestionToBoardRow (row : BoardRow) (notificationId : JsString) (blocking : Bool) (now : ℚ) :
    BoardRow × Bool :=
  let status := casing.normalizedStatus row.status
  if status = js "QUEUED" ∨ status = js "PROPOSED" ∨ status = [] then (row, false)
  else if blocking ∧ (status = js "WORKING" ∨ status = js "USER_CHECKPOINTING") then
    ((casing.syncAutomaticUserCheckpoint
      { row with
        waitForInput := some (casing.addId row.waitForInput notificationId)
        openQuestions := casing.removeIds row.openQuestions [notificationId] } now).1, true)
  else ({ row with openQuestions := some (casing.addId row.openQuestions notificationId) }, true)

/-- The row, and whether it changed. -/
def removeResolvedQuestionFromBoardRow (row : BoardRow) (notificationId : JsString) (now : ℚ) :
    BoardRow × Bool :=
  let id := casing.lowered notificationId
  if id ∉ row.waitForInput.getD [] ∧ id ∉ row.openQuestions.getD [] then (row, false)
  else
    ((casing.syncAutomaticUserCheckpoint
      { row with
        waitForInput := casing.removeIds row.waitForInput [id]
        openQuestions := casing.removeIds row.openQuestions [id] } now).1, true)

end Casing

end Takode.Journeys
