import Takode.Journeys.Phases
import Takode.Lib.Positions

/-!
# Journey plans

How a plan is read, with the phase that it is at (`normalizeQuestJourneyPlan`). A plan of any origin
and the plan that it is read as have one type; values that are of no use are absent.
-/

namespace Takode.Journeys

open JsString

structure QuestJourneyPhaseTiming where
  startedAt : Option ℚ
  endedAt : Option ℚ
deriving DecidableEq

structure QuestJourneyProposalPresentation where
  state : Option JsString
  signature : Option JsString
  presentedAt : Option ℚ
  summary : Option JsString
  scheduling : Option (Record JsonValue)
deriving DecidableEq

/-- A note is absent where it is no string, and a timing where it is no object. -/
@[ext]
structure QuestJourneyPlanState where
  presetId : Option JsString := none
  phaseIds : List JsString := []
  mode : Option JsString := none
  activePhaseIndex : Option Int := none
  currentPhaseId : Option JsString := none
  phaseNotes : Option (Record (Option JsString)) := none
  phaseSkipReasons : Option (Record (Option JsString)) := none
  phaseTimings : Option (Record (Option QuestJourneyPhaseTiming)) := none
  presentation : Option QuestJourneyProposalPresentation := none
  nextLeaderAction : Option JsString := none
  revisionReason : Option JsString := none
  revisedAt : Option ℚ := none
  revisionCount : Option ℚ := none
deriving DecidableEq

/-! ## What stands at positions -/

/-- A text that is not blank, trimmed. -/
def readNote (note : Option JsString) : Option (Option JsString) := (note.bind nonempty).map some

def normalizeQuestJourneyPhaseNotes (phaseNotes : Option (Record (Option JsString)))
    (phaseCount : Nat) : Option (Record (Option JsString)) :=
  phaseNotes.bind fun raw => raw.normalizePositions readNote phaseCount

def normalizeQuestJourneyPhaseSkipReasons (phaseSkipReasons : Option (Record (Option JsString)))
    (phaseCount : Nat) : Option (Record (Option JsString)) :=
  normalizeQuestJourneyPhaseNotes phaseSkipReasons phaseCount

def normalizeQuestJourneyTimestamp (value : Option ℚ) : Option ℚ := value.filter fun value => 0 < value

def readTiming (timing : Option QuestJourneyPhaseTiming) :
    Option (Option QuestJourneyPhaseTiming) :=
  timing.bind fun timing =>
    (normalizeQuestJourneyTimestamp timing.startedAt).map fun startedAt =>
      some ⟨some startedAt, (normalizeQuestJourneyTimestamp timing.endedAt).filter fun endedAt =>
        startedAt ≤ endedAt⟩

def normalizeQuestJourneyPhaseTimings (phaseTimings : Option (Record (Option QuestJourneyPhaseTiming)))
    (phaseCount : Nat) : Option (Record (Option QuestJourneyPhaseTiming)) :=
  phaseTimings.bind fun raw => raw.normalizePositions readTiming phaseCount

def normalizeQuestJourneyProposalPresentation
    (presentation : Option QuestJourneyProposalPresentation) :
    Option QuestJourneyProposalPresentation :=
  presentation.map fun presentation =>
    { state := some (if presentation.state = some (js "presented") then js "presented" else js "draft")
      signature := presentation.signature.bind nonempty
      presentedAt := presentation.presentedAt.filter (· ≠ 0)
      summary := presentation.summary.bind nonempty
      scheduling := presentation.scheduling }

/-! ## The phase that a plan is at -/

def getQuestJourneyPhaseIndices (phaseIds : List JsString) (targetPhaseId : JsString) : List Nat :=
  (List.range phaseIds.length).filter fun index => phaseIds[index]? = some targetPhaseId

def getUniqueQuestJourneyPhaseIndex (phaseIds : List JsString) (targetPhaseId : Option JsString) :
    Option Nat :=
  targetPhaseId.bind fun targetPhaseId =>
    match getQuestJourneyPhaseIndices phaseIds targetPhaseId with
    | [index] => some index
    | _ => none

/-- `QUEST_JOURNEY_HINTS.PROPOSED`. -/
def PROPOSED_HINT : JsString :=
  js "present or revise the proposed Journey, then promote it after approval"

namespace QuestJourneyPlanState

/-- The position that a plan says it is at. -/
def explicitIndex (plan : QuestJourneyPlanState) (phaseIds : List JsString) : Option Nat :=
  plan.activePhaseIndex.bind fun index =>
    if 0 ≤ index ∧ index < phaseIds.length then some index.toNat else none

end QuestJourneyPlanState

namespace Casing

variable (casing : Casing)

/-- `status.trim().toUpperCase()`, or nothing. -/
def normalizedStatus (status : Option JsString) : JsString := (status.map casing.uppered).getD []

def statusPhaseId (status : Option JsString) : Option JsString :=
  (casing.getQuestJourneyPhaseForState status).map (·.id)

def plannedCurrentPhaseId (plan : QuestJourneyPlanState) : Option JsString :=
  (casing.getQuestJourneyPhase plan.currentPhaseId).map (·.id)

/-- What is left of the position where the status names no User Checkpoint in Work. -/
def indexOfStatus (plan : QuestJourneyPlanState) (phaseIds : List JsString)
    (status : Option JsString) : Option Nat :=
  match casing.statusPhaseId status with
  | some statusPhaseId =>
    match (plan.explicitIndex phaseIds).filter fun index => phaseIds[index]? = some statusPhaseId with
    | some index => some index
    | none =>
      if casing.plannedCurrentPhaseId plan = some statusPhaseId then
        getUniqueQuestJourneyPhaseIndex phaseIds (casing.plannedCurrentPhaseId plan)
      else getUniqueQuestJourneyPhaseIndex phaseIds (some statusPhaseId)
  | none =>
    if casing.normalizedStatus status = js "QUEUED" ∨ casing.normalizedStatus status = js "PROPOSED" then
      none
    else (plan.explicitIndex phaseIds).or
      (getUniqueQuestJourneyPhaseIndex phaseIds (casing.plannedCurrentPhaseId plan))

def normalizeQuestJourneyActivePhaseIndex (plan : QuestJourneyPlanState) (phaseIds : List JsString)
    (status : Option JsString) : Option Nat :=
  if casing.normalizedStatus status = js "USER_CHECKPOINTING" then
    if casing.plannedCurrentPhaseId plan = some (js "work") then
      getUniqueQuestJourneyPhaseIndex phaseIds (some (js "work"))
    else
      ((plan.explicitIndex phaseIds).filter fun index => phaseIds[index]? = some (js "work")).or
        ((getUniqueQuestJourneyPhaseIndex phaseIds (some (js "work"))).or
          (casing.indexOfStatus plan phaseIds status))
  else casing.indexOfStatus plan phaseIds status

/-! ## Plans -/

def nonEmptyPhaseIds (plan : QuestJourneyPlanState) (status : Option JsString) : List JsString :=
  let phaseIds := casing.normalizeKnownQuestJourneyPhaseIds plan.phaseIds
  if phaseIds ≠ [] then phaseIds
  else if status.map casing.upper = some (js "PLANNING") then
    [js "alignment", js "work", js "memory"]
  else DEFAULT_QUEST_JOURNEY_PHASE_IDS

def planMode (plan : QuestJourneyPlanState) : JsString :=
  (casing.canonicalizeQuestJourneyLifecycleMode plan.mode).getD (js "active")

def planActiveIndex (plan : QuestJourneyPlanState) (status : Option JsString) : Option Nat :=
  if casing.planMode plan = js "proposed" then none
  else casing.normalizeQuestJourneyActivePhaseIndex plan (casing.nonEmptyPhaseIds plan status) status

def planCurrentPhaseId (plan : QuestJourneyPlanState) (status : Option JsString) : Option JsString :=
  (casing.planActiveIndex plan status).bind fun index => (casing.nonEmptyPhaseIds plan status)[index]?

def planNextLeaderAction (plan : QuestJourneyPlanState) (status : Option JsString) : Option JsString :=
  if casing.planMode plan = js "proposed" then some PROPOSED_HINT
  else
    ((casing.getQuestJourneyPhase (casing.planCurrentPhaseId plan status)).map (·.nextLeaderAction)).or
      (if casing.normalizedStatus status = js "QUEUED" then none else plan.nextLeaderAction)

def normalizeQuestJourneyPlan (plan : QuestJourneyPlanState) (status : Option JsString) :
    QuestJourneyPlanState :=
  let phaseIds := casing.nonEmptyPhaseIds plan status
  { presetId := some (plan.presetId.getD (js "v2-work"))
    phaseIds
    mode := some (casing.planMode plan)
    activePhaseIndex := (casing.planActiveIndex plan status).map fun index : Nat => (index : Int)
    currentPhaseId := casing.planCurrentPhaseId plan status
    phaseNotes := normalizeQuestJourneyPhaseNotes plan.phaseNotes phaseIds.length
    phaseSkipReasons := normalizeQuestJourneyPhaseSkipReasons plan.phaseSkipReasons phaseIds.length
    phaseTimings := normalizeQuestJourneyPhaseTimings plan.phaseTimings phaseIds.length
    presentation := normalizeQuestJourneyProposalPresentation plan.presentation
    nextLeaderAction := (casing.planNextLeaderAction plan status).filter (· ≠ [])
    revisionReason := plan.revisionReason.filter (· ≠ [])
    revisedAt := plan.revisedAt.filter (· ≠ 0)
    revisionCount := plan.revisionCount }

end Casing

end Takode.Journeys
