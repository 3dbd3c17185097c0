import Takode.Lib.JsValue
import Takode.Lib.LowerCase

/-!
# Phases of a quest Journey

The phases that are known, the board states that they stand for, and the names under which they are
read (`quest-journey.ts`).
-/

namespace Takode.Journeys

open JsString

structure QuestJourneyPhase where
  id : JsString
  label : JsString
  boardState : JsString
  nextLeaderAction : JsString
  aliases : List JsString
deriving DecidableEq

/-! ## The phases -/

def workPhase : QuestJourneyPhase where
  id := js "work"
  label := js "Work"
  boardState := js "WORKING"
  nextLeaderAction := js "review the Work note and transition evidence for blockers or checkpoint needs; once Memory is reached with tracked Work commits already attached as structured metadata, promptly report the accepted outcome, then send final Memory to the same worker without waiting for closure"
  aliases := [js "working"]

def userCheckpointPhase : QuestJourneyPhase where
  id := js "user-checkpoint"
  label := js "User Checkpoint"
  boardState := js "USER_CHECKPOINTING"
  nextLeaderAction := js "before checkpoint entry verify or revise the remaining suffix to include later Work, publish and notify the decision, wait, record the approved continuation, reconcile stale quest metadata when needed, then pass it on to the assigned worker in that later Work (Takode returns a checkpoint it added to Work once its questions are resolved; advance a planned one); never route a taken checkpoint directly to Memory"
  aliases := [js "user-decision", js "decision-checkpoint", js "user-approval"]

def memoryPhase : QuestJourneyPhase where
  id := js "memory"
  label := js "Memory"
  boardState := js "MEMORY"
  nextLeaderAction := js "verify tracked Work commits are already structured quest metadata or route back to Work, report the accepted outcome if it is not already visible, assign final Memory, allow eligible dependents to proceed, and complete only after mandatory durable closure is settled"
  aliases := [js "final-memory", js "memory-closure", js "durable-closure"]

def landingPhase : QuestJourneyPhase where
  id := js "landing"
  label := js "Landing"
  boardState := js "LANDING"
  nextLeaderAction := js "nothing while the change waits or lands; Takode completes the quest when it lands. When it bounces, decide who fixes it and when, then advance into the next Work occurrence"
  aliases := [js "landing-queue", js "awaiting-landing"]

def alignmentPhase : QuestJourneyPhase where
  id := js "alignment"
  label := js "Alignment"
  boardState := js "PLANNING"
  nextLeaderAction := js "read the alignment leader brief, send the alignment-only instruction, then review the worker read-in for leader approval, routing, or necessary user escalation"
  aliases := []

def historicalPhase (id label boardState : String) (aliases : List JsString) : QuestJourneyPhase where
  id := js id
  label := js label
  boardState := js boardState
  nextLeaderAction := js "historical phase only"
  aliases

def QUEST_JOURNEY_PHASES : List QuestJourneyPhase :=
  [workPhase, userCheckpointPhase, memoryPhase, landingPhase]

def RETAINED_QUEST_JOURNEY_PHASES : List QuestJourneyPhase := [alignmentPhase]

def LEGACY_QUEST_JOURNEY_PHASES : List QuestJourneyPhase := [
  historicalPhase "explore" "Explore" "EXPLORING" [],
  historicalPhase "implement" "Implement" "IMPLEMENTING" [js "implementation"],
  historicalPhase "code-review" "Code Review" "CODE_REVIEWING"
    [js "skeptic-review", js "reviewer-groom"],
  historicalPhase "mental-simulation" "Mental Simulation" "MENTAL_SIMULATING" [],
  historicalPhase "execute" "Execute" "EXECUTING" [],
  historicalPhase "outcome-review" "Outcome Review" "OUTCOME_REVIEWING" [],
  historicalPhase "port" "Port" "PORTING" [js "porting"],
  historicalPhase "bookkeeping" "Bookkeeping" "BOOKKEEPING" [js "state-update", js "stream-update"]]

def KNOWN_QUEST_JOURNEY_PHASES : List QuestJourneyPhase :=
  QUEST_JOURNEY_PHASES ++ RETAINED_QUEST_JOURNEY_PHASES ++ LEGACY_QUEST_JOURNEY_PHASES

def ACTIVE_QUEST_JOURNEY_PHASE_IDS : List JsString :=
  [js "work", js "user-checkpoint", js "memory", js "landing"]

def DEFAULT_QUEST_JOURNEY_PHASE_IDS : List JsString := [js "work", js "memory"]

def QUEST_JOURNEY_STATES : List JsString :=
  [js "PROPOSED", js "QUEUED", js "WORKING", js "USER_CHECKPOINTING", js "MEMORY", js "LANDING"]

def LEGACY_QUEST_JOURNEY_STATES : List JsString :=
  [js "EXPLORING", js "IMPLEMENTING", js "CODE_REVIEWING", js "MENTAL_SIMULATING", js "EXECUTING",
    js "OUTCOME_REVIEWING", js "PORTING", js "BOOKKEEPING"]

def KNOWN_QUEST_JOURNEY_STATE_ALIAS_MAP : List (JsString × JsString) :=
  [(js "SKEPTIC_REVIEWING", js "CODE_REVIEWING"), (js "GROOM_REVIEWING", js "CODE_REVIEWING")]

def aliasesOf (phases : List QuestJourneyPhase) : List (JsString × JsString) :=
  phases.flatMap fun phase => phase.aliases.map fun name => (name, phase.id)

def QUEST_JOURNEY_PHASE_ALIAS_MAP : List (JsString × JsString) := aliasesOf QUEST_JOURNEY_PHASES

def KNOWN_QUEST_JOURNEY_PHASE_ALIAS_MAP : List (JsString × JsString) :=
  (js "planning", js "alignment") :: aliasesOf KNOWN_QUEST_JOURNEY_PHASES

/-- The properties that every object inherits, which `in` finds as well. -/
def inheritedNames : List JsString :=
  [js "__proto__", js "__defineGetter__", js "__defineSetter__", js "__lookupGetter__",
    js "__lookupSetter__", js "constructor", js "hasOwnProperty", js "isPrototypeOf",
    js "propertyIsEnumerable", js "toLocaleString", js "toString", js "valueOf"]

/-- The keys of `QUEST_JOURNEY_PHASE_BY_ID`. -/
def knownPhaseIds : List JsString := KNOWN_QUEST_JOURNEY_PHASES.map (·.id)

/-! ## Names -/

/-- `toLowerCase` and `toUpperCase`. -/
structure Casing where
  lower : LowerCase
  upper : JsString → JsString

/-- The casing that leaves all but ASCII letters as they are. -/
def Casing.ascii : Casing where
  lower := .ascii
  upper value := value.map fun c => if 97 ≤ c && c ≤ 122 then c - 32 else c

namespace Casing

variable (casing : Casing)

def lowered (value : JsString) : JsString := casing.lower.toLowerCase (trim value)
def uppered (value : JsString) : JsString := casing.upper (trim value)

def canonicalizeQuestJourneyPhaseId (value : JsString) : Option JsString :=
  let normalized := casing.lowered value
  if normalized = [] then none
  else if normalized ∈ ACTIVE_QUEST_JOURNEY_PHASE_IDS then some normalized
  else ((QUEST_JOURNEY_PHASE_ALIAS_MAP.find? fun entry => entry.1 = normalized).map (·.2)).filter
    fun id => id ∈ ACTIVE_QUEST_JOURNEY_PHASE_IDS

def canonicalizeKnownQuestJourneyPhaseId (value : JsString) : Option JsString :=
  let normalized := casing.lowered value
  if normalized = [] then none
  else if normalized ∈ knownPhaseIds ∨ normalized ∈ inheritedNames then some normalized
  else (KNOWN_QUEST_JOURNEY_PHASE_ALIAS_MAP.find? fun entry => entry.1 = normalized).map (·.2)

def canonicalizeKnownQuestJourneyState (value : Option JsString) : Option JsString :=
  value.bind fun value =>
    let normalized := casing.uppered value
    if normalized = [] then none
    else if normalized = js "PLANNING" ∨ normalized ∈ QUEST_JOURNEY_STATES ∨
        normalized ∈ LEGACY_QUEST_JOURNEY_STATES then some normalized
    else (KNOWN_QUEST_JOURNEY_STATE_ALIAS_MAP.find? fun entry => entry.1 = normalized).map (·.2)

def canonicalizeQuestJourneyLifecycleMode (value : Option JsString) : Option JsString :=
  value.bind fun value =>
    let normalized := casing.lowered value
    if normalized = js "active" ∨ normalized = js "proposed" then some normalized else none

def normalizeQuestJourneyPhaseIds (values : List JsString) : List JsString :=
  values.filterMap casing.canonicalizeQuestJourneyPhaseId

def normalizeKnownQuestJourneyPhaseIds (values : List JsString) : List JsString :=
  values.filterMap casing.canonicalizeKnownQuestJourneyPhaseId

/-- The phase; what is inherited has none of the properties of one. -/
def getQuestJourneyPhase (phaseId : Option JsString) : Option QuestJourneyPhase :=
  (phaseId.bind casing.canonicalizeKnownQuestJourneyPhaseId).bind fun canonical =>
    KNOWN_QUEST_JOURNEY_PHASES.find? fun phase => phase.id = canonical

def getQuestJourneyPhaseForState (status : Option JsString) : Option QuestJourneyPhase :=
  (casing.canonicalizeKnownQuestJourneyState status).bind fun canonical =>
    casing.getQuestJourneyPhase
      ((KNOWN_QUEST_JOURNEY_PHASES.find? fun phase => phase.boardState = canonical).map (·.id))

/-! ## Canonical names -/

theorem lowered_lowered (value : JsString) : casing.lowered (casing.lowered value) = casing.lowered value := by
  unfold lowered
  rw [casing.lower.trimmed _ (trim_trim value), casing.lower.idempotent]

theorem lowered_of_plain {value : JsString} (own : trim value = value)
    (small : ∀ c ∈ value, c < 128 ∧ JsString.lower c = c) : casing.lowered value = value := by
  unfold lowered
  rw [own, casing.lower.plain value small]

theorem lowered_of_known {id : JsString} (known : id ∈ knownPhaseIds) : casing.lowered id = id := by
  have plain : ∀ id ∈ knownPhaseIds, trim id = id ∧ ∀ c ∈ id, c < 128 ∧ JsString.lower c = c := by
    have checked : knownPhaseIds.all (fun id => decide (trim id = id) &&
        id.all fun c => decide (c < 128) && decide (JsString.lower c = c)) = true := by decide
    intro id listed
    have both := List.all_eq_true.mp checked id listed
    rw [Bool.and_eq_true, decide_eq_true_eq, List.all_eq_true] at both
    refine ⟨both.1, fun c inside => ?_⟩
    simpa using both.2 c inside
  exact casing.lowered_of_plain (plain id known).1 (plain id known).2

theorem ne_nil_of_known {id : JsString} (known : id ∈ knownPhaseIds) : id ≠ [] := by
  rintro rfl
  revert known
  decide

theorem canonicalizeKnown_of_known {id : JsString} (known : id ∈ knownPhaseIds) :
    casing.canonicalizeKnownQuestJourneyPhaseId id = some id := by
  unfold canonicalizeKnownQuestJourneyPhaseId
  dsimp only
  rw [casing.lowered_of_known known, if_neg (ne_nil_of_known known), if_pos (.inl known)]

theorem known_of_alias {normalized id : JsString}
    (found : (KNOWN_QUEST_JOURNEY_PHASE_ALIAS_MAP.find? fun entry => entry.1 = normalized).map (·.2) =
      some id) : id ∈ knownPhaseIds := by
  obtain ⟨entry, there, rfl⟩ := Option.map_eq_some_iff.mp found
  have listed := List.mem_of_find?_eq_some there
  have checked : KNOWN_QUEST_JOURNEY_PHASE_ALIAS_MAP.all (fun entry =>
      decide (entry.2 ∈ knownPhaseIds)) = true := by decide
  exact of_decide_eq_true (List.all_eq_true.mp checked entry listed)

theorem canonicalizeKnown_cases {value id : JsString}
    (canonical : casing.canonicalizeKnownQuestJourneyPhaseId value = some id) :
    id ∈ knownPhaseIds ∨ id ∈ inheritedNames ∧ id = casing.lowered value := by
  unfold canonicalizeKnownQuestJourneyPhaseId at canonical
  dsimp only at canonical
  split at canonical
  · cases canonical
  · split at canonical
    · rename_i listed
      cases canonical
      exact listed.imp_right fun inherited => ⟨inherited, rfl⟩
    · exact .inl (known_of_alias canonical)

theorem canonicalizeKnown_idempotent {value id : JsString}
    (canonical : casing.canonicalizeKnownQuestJourneyPhaseId value = some id) :
    casing.canonicalizeKnownQuestJourneyPhaseId id = some id := by
  rcases casing.canonicalizeKnown_cases canonical with known | ⟨inherited, rfl⟩
  · exact casing.canonicalizeKnown_of_known known
  · unfold canonicalizeKnownQuestJourneyPhaseId at canonical ⊢
    dsimp only at canonical ⊢
    rw [casing.lowered_lowered]
    split at canonical
    · cases canonical
    · rename_i filled
      rw [if_neg filled, if_pos (.inr inherited)]

theorem normalizeKnown_of_canonical {ids : List JsString}
    (canonical : ∀ id ∈ ids, casing.canonicalizeKnownQuestJourneyPhaseId id = some id) :
    casing.normalizeKnownQuestJourneyPhaseIds ids = ids := by
  unfold normalizeKnownQuestJourneyPhaseIds
  rw [List.filterMap_congr canonical, List.filterMap_some]

theorem canonical_of_mem_normalizeKnown {values : List JsString} {id : JsString}
    (listed : id ∈ casing.normalizeKnownQuestJourneyPhaseIds values) :
    casing.canonicalizeKnownQuestJourneyPhaseId id = some id := by
  obtain ⟨value, -, canonical⟩ := List.mem_filterMap.mp listed
  exact casing.canonicalizeKnown_idempotent canonical

theorem getQuestJourneyPhase_of_known {id : JsString} (known : id ∈ knownPhaseIds) :
    (casing.getQuestJourneyPhase (some id)).map (·.id) = some id := by
  unfold getQuestJourneyPhase
  rw [Option.bind_some, casing.canonicalizeKnown_of_known known, Option.bind_some]
  have checked : knownPhaseIds.all (fun id => decide
      ((KNOWN_QUEST_JOURNEY_PHASES.find? fun phase => phase.id = id).map (·.id) = some id)) = true := by
    decide
  exact of_decide_eq_true (List.all_eq_true.mp checked id known)

theorem known_of_getQuestJourneyPhase {phaseId : Option JsString} {phase : QuestJourneyPhase}
    (found : casing.getQuestJourneyPhase phaseId = some phase) : phase.id ∈ knownPhaseIds := by
  obtain ⟨canonical, -, there⟩ := Option.bind_eq_some_iff.mp found
  exact List.mem_map.mpr ⟨phase, List.mem_of_find?_eq_some there, rfl⟩

end Casing

end Takode.Journeys
