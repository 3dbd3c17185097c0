import Takode.Journeys.Checkpoints
import Takode.Journeys.Stability

/-!
# Plans on the move

How a plan is set to another phase and given new ones: which phase it is read at, what stands at its
positions, and for which phase the clock runs.
-/

namespace Takode.Journeys

open JsString

/-! ## What stands at a position -/

/-- The value of a record by position. -/
def valueAt {α : Type} (record : Option (Record (Option α))) (index : Nat) : Option α :=
  ((record.getD ∅).get? (decimal index)).join

/-- Such a record is read as it is. -/
def ReadAsIs {α : Type} (parse : Option α → Option (Option α)) (count : Nat)
    (record : Option (Record (Option α))) : Prop :=
  (record.getD ∅).Readable parse count

section Positions

variable {α : Type} {parse : Option α → Option (Option α)} {count : Nat}
  {record : Option (Record (Option α))}

theorem readAsIs_normalizePositions
    (stable : ∀ value value', parse value = some value' → parse value' = some value')
    (raw : Option (Record (Option α))) :
    ReadAsIs parse count (raw.bind fun raw => raw.normalizePositions parse count) :=
  Record.readable_normalizePositions stable raw

theorem ReadAsIs.valueAt_normalizePositions (readable : ReadAsIs parse count record) (index : Nat) :
    valueAt (record.bind fun raw => raw.normalizePositions parse count) index = valueAt record index := by
  cases record with
  | none => rfl
  | some raw => exact congrArg Option.join (Record.Readable.get?_normalizePositions readable index)

theorem ReadAsIs.shift (readable : ReadAsIs parse count record) (position more : Nat) :
    ReadAsIs parse (count + more) (record.map (·.shift position more)) := by
  cases record with
  | none => exact Record.Readable.empty
  | some raw => exact Record.Readable.shift readable

theorem ReadAsIs.valueAt_shift (readable : ReadAsIs parse count record) (position more index : Nat) :
    valueAt (record.map (·.shift position more)) index =
      if index < position then valueAt record index
      else if index < position + more then none else valueAt record (index - more) := by
  cases record with
  | none => simp [valueAt]
  | some raw =>
    have found : (raw.shift position more).get? (decimal index) = _ :=
      Record.get?_shift readable.keyed index
    unfold valueAt
    rw [Option.map_some, Option.getD_some, Option.getD_some] at *
    rw [found]
    split
    · rfl
    · split
      · rfl
      · rfl

theorem ReadAsIs.set (readable : ReadAsIs parse count record) {index : Nat} {value : α}
    (below : index < count) (parsed : parse (some value) = some (some value)) :
    ReadAsIs parse count (some ((record.getD ∅).set (decimal index) (some value))) :=
  Record.Readable.set readable below parsed

theorem valueAt_set (record : Record (Option α)) (index other : Nat) (value : α) :
    valueAt (some (record.set (decimal index) (some value))) other =
      if other = index then some value else valueAt (some record) other := by
  unfold valueAt
  rw [Option.getD_some, Option.getD_some, JsMap.get?_set]
  by_cases same : other = index
  · rw [if_pos same, if_pos (congrArg decimal same)]
    rfl
  · rw [if_neg same, if_neg fun equal => same (decimal_injective equal)]

theorem valueAt_delete (record : Record (Option α)) (index other : Nat) :
    valueAt (some (record.delete (decimal index))) other =
      if other = index then none else valueAt (some record) other := by
  unfold valueAt
  rw [Option.getD_some, Option.getD_some, JsMap.get?_delete]
  by_cases same : other = index
  · rw [if_pos same, if_pos (congrArg decimal same)]
    rfl
  · rw [if_neg same, if_neg fun equal => same (decimal_injective equal)]

theorem valueAt_getD_empty (record : Option (Record (Option α))) (index : Nat) :
    valueAt (some (record.getD ∅)) index = valueAt record index := by
  cases record <;> rfl

theorem ReadAsIs.lt_of_valueAt (readable : ReadAsIs parse count record) {index : Nat} {value : α}
    (found : valueAt record index = some value) : index < count := by
  unfold valueAt at found
  exact Record.Readable.position_lt readable (Option.join_eq_some_iff.mp found)

theorem ReadAsIs.parsed (readable : ReadAsIs parse count record) {index : Nat} {value : α}
    (found : valueAt record index = some value) : parse (some value) = some (some value) := by
  unfold valueAt at found
  exact Record.Readable.parsed readable (Option.join_eq_some_iff.mp found)

end Positions

/-! ## Statuses -/

/-- `toUpperCase` leaves capitals and underscores as they are. -/
def Casing.KeepsCapitals (casing : Casing) : Prop :=
  ∀ text : JsString, (∀ c ∈ text, 65 ≤ c ∧ c ≤ 90 ∨ c = 95) → casing.upper text = text

namespace Casing

variable (casing : Casing)

theorem KeepsCapitals.normalizedStatus {casing : Casing} (keeps : casing.KeepsCapitals) {status : JsString}
    (capitals : ∀ c ∈ status, 65 ≤ c ∧ c ≤ 90 ∨ c = 95) :
    casing.normalizedStatus (some status) = status := by
  have plain : ∀ c ∈ status, isSpace c = false := by
    intro c inside
    rcases capitals c inside with ⟨low, high⟩ | rfl
    · rw [UInt16.le_iff_toNat_le] at low high
      have low : 65 ≤ c.toNat := low
      have high : c.toNat ≤ 90 := high
      rw [← UInt16.ofNat_toNat (x := c)]
      generalize c.toNat = m at low high
      interval_cases m <;> rfl
    · rfl
  show casing.upper (trim status) = status
  rw [trim_of_not_space plain, keeps status capitals]

theorem KeepsCapitals.normalizedStatus_working {casing : Casing} (keeps : casing.KeepsCapitals) :
    casing.normalizedStatus (some (js "WORKING")) = js "WORKING" :=
  keeps.normalizedStatus (forall_mem_of_all (by decide))

theorem KeepsCapitals.normalizedStatus_checkpointing {casing : Casing} (keeps : casing.KeepsCapitals) :
    casing.normalizedStatus (some (js "USER_CHECKPOINTING")) = js "USER_CHECKPOINTING" :=
  keeps.normalizedStatus (forall_mem_of_all (by decide))

/-- What the canonical state of a status is. -/
theorem canonicalizeKnownState_cases {status : Option JsString} {state : JsString}
    (canonical : casing.canonicalizeKnownQuestJourneyState status = some state) :
    state = casing.normalizedStatus status ∨ state = js "CODE_REVIEWING" := by
  unfold canonicalizeKnownQuestJourneyState at canonical
  obtain ⟨value, same, named⟩ := Option.bind_eq_some_iff.mp canonical
  subst same
  clear canonical
  dsimp only at named
  split at named
  · cases named
  · split at named
    · exact .inl (Option.some.inj named).symm
    · obtain ⟨entry, found, rfl⟩ := Option.map_eq_some_iff.mp named
      have named : ∀ entry ∈ KNOWN_QUEST_JOURNEY_STATE_ALIAS_MAP, entry.2 = js "CODE_REVIEWING" :=
        forall_mem_of_all (by decide)
      exact .inr (named entry (List.mem_of_find?_eq_some found))

theorem boardState_of_statusPhaseId {status : Option JsString} {id : JsString}
    (named : casing.statusPhaseId status = some id) :
    ∃ phase ∈ KNOWN_QUEST_JOURNEY_PHASES, phase.id = id ∧
      (phase.boardState = casing.normalizedStatus status ∨ phase.boardState = js "CODE_REVIEWING") := by
  obtain ⟨phase, found, rfl⟩ := Option.map_eq_some_iff.mp named
  obtain ⟨state, canonical, found⟩ := Option.bind_eq_some_iff.mp found
  cases there : KNOWN_QUEST_JOURNEY_PHASES.find? fun phase => phase.boardState = state with
  | none =>
    rw [there] at found
    cases found
  | some phase' =>
    have listed := List.mem_of_find?_eq_some there
    have own : phase'.boardState = state := by simpa using List.find?_some there
    rw [there, Option.map_some] at found
    have known : phase'.id ∈ knownPhaseIds := List.mem_map.mpr ⟨phase', listed, rfl⟩
    have same := casing.getQuestJourneyPhase_of_known known
    rw [found, Option.map_some] at same
    refine ⟨phase', listed, (Option.some.inj same).symm, ?_⟩
    rw [own]
    exact casing.canonicalizeKnownState_cases canonical

theorem normalizedStatus_of_phase {status : Option JsString} {id state : JsString}
    (named : casing.statusPhaseId status = some id)
    (only : ∀ phase ∈ KNOWN_QUEST_JOURNEY_PHASES, phase.id = id → phase.boardState = state)
    (plain : state ≠ js "CODE_REVIEWING") : casing.normalizedStatus status = state := by
  obtain ⟨phase, listed, own, found⟩ := casing.boardState_of_statusPhaseId named
  rw [only phase listed own] at found
  rcases found with same | other
  · exact same.symm
  · exact absurd other plain

theorem normalizedStatus_of_work {status : Option JsString}
    (named : casing.statusPhaseId status = some (js "work")) :
    casing.normalizedStatus status = js "WORKING" :=
  casing.normalizedStatus_of_phase named (forall_mem_of_all (by decide)) (by decide)

theorem normalizedStatus_of_checkpoint {status : Option JsString}
    (named : casing.statusPhaseId status = some (js "user-checkpoint")) :
    casing.normalizedStatus status = js "USER_CHECKPOINTING" :=
  casing.normalizedStatus_of_phase named (forall_mem_of_all (by decide)) (by decide)

theorem statusPhaseId_of_work {status : Option JsString}
    (working : casing.normalizedStatus status = js "WORKING") :
    casing.statusPhaseId status = some (js "work") :=
  (casing.statusPhaseId_of_state status (by decide) working).trans (by decide)

/-! ## Rows in a phase -/

end Casing

/-- An active plan whose phases, and what stands at their positions, are read as they are. -/
structure Casing.Reads (casing : Casing) (journey : QuestJourneyPlanState) : Prop where
  mode : casing.planMode journey = js "active"
  canonical : ∀ id ∈ journey.phaseIds, casing.canonicalizeKnownQuestJourneyPhaseId id = some id
  notes : ReadAsIs readNote journey.phaseIds.length journey.phaseNotes
  skipReasons : ReadAsIs readNote journey.phaseIds.length journey.phaseSkipReasons
  timings : ReadAsIs readTiming journey.phaseIds.length journey.phaseTimings

/-- The row is in a phase of such a plan. At a User Checkpoint, no Work is the only one of the plan. -/
structure Casing.InPhase (casing : Casing) (row : BoardRow) (journey : QuestJourneyPlanState) (index : Nat)
    (phase : JsString) : Prop extends casing.Reads journey where
  planned : row.journey = some journey
  active : journey.activePhaseIndex = some (index : Int)
  there : journey.phaseIds[index]? = some phase
  status : casing.statusPhaseId row.status = some phase
  others : phase = js "user-checkpoint" →
    getUniqueQuestJourneyPhaseIndex journey.phaseIds (some (js "work")) = none

/-- A phase of a plan, with its note and its skip reason. -/
structure Stage where
  id : JsString
  note : Option JsString
  skipReason : Option JsString
deriving DecidableEq

def stageAt (journey : QuestJourneyPlanState) (index : Nat) (id : JsString) : Stage where
  id
  note := valueAt journey.phaseNotes index
  skipReason := valueAt journey.phaseSkipReasons index

def stages (journey : QuestJourneyPlanState) : List Stage := journey.phaseIds.mapIdx (stageAt journey)

theorem getElem?_stages (journey : QuestJourneyPlanState) (index : Nat) :
    (stages journey)[index]? = (journey.phaseIds[index]?).map (stageAt journey index) :=
  List.getElem?_mapIdx

theorem length_stages (journey : QuestJourneyPlanState) :
    (stages journey).length = journey.phaseIds.length := List.length_mapIdx

theorem stages_congr {journey journey' : QuestJourneyPlanState} (ids : journey'.phaseIds = journey.phaseIds)
    (notes : ∀ index, valueAt journey'.phaseNotes index = valueAt journey.phaseNotes index)
    (skipReasons : ∀ index, valueAt journey'.phaseSkipReasons index =
      valueAt journey.phaseSkipReasons index) : stages journey' = stages journey := by
  apply List.ext_getElem?
  intro index
  rw [getElem?_stages, getElem?_stages, ids]
  congr 1
  funext id
  simp only [stageAt, notes, skipReasons]

/-- The timing of a phase that has started and not ended. -/
def IsOpen (timing : QuestJourneyPhaseTiming) : Prop := timing.startedAt.isSome ∧ timing.endedAt = none

/-- The clock runs for this phase only, and none started later than this time. -/
structure ClockOf (timings : Option (Record (Option QuestJourneyPhaseTiming))) (index : Nat) (now : ℚ) :
    Prop where
  runs : ∃ timing, valueAt timings index = some timing ∧ IsOpen timing
  only : ∀ other timing, valueAt timings other = some timing → IsOpen timing → other = index
  started : ∀ other timing startedAt, valueAt timings other = some timing →
    timing.startedAt = some startedAt → startedAt ≤ now

/-- The clock runs for this phase at most, and none started later than this time. -/
structure Ticks (timings : Option (Record (Option QuestJourneyPhaseTiming))) (active : Option Nat) (now : ℚ) :
    Prop where
  only : ∀ other timing, valueAt timings other = some timing → IsOpen timing → active = some other
  started : ∀ other timing startedAt, valueAt timings other = some timing →
    timing.startedAt = some startedAt → startedAt ≤ now

/-! ## Setting the phase of a row -/

namespace Casing

variable (casing : Casing)

theorem explicitIndex_set (journey : QuestJourneyPlanState) {phaseIds : List JsString} {index : Nat}
    (below : index < phaseIds.length) (current : Option JsString) :
    { journey with
      phaseIds, activePhaseIndex := some (index : Int), currentPhaseId := current }.explicitIndex
        phaseIds = some index := by
  unfold QuestJourneyPlanState.explicitIndex
  rw [Option.bind_some, if_pos ⟨Int.natCast_nonneg index, by omega⟩, Int.toNat_natCast]

theorem activeIndex_set {journey : QuestJourneyPlanState} {phaseIds : List JsString} {index : Nat}
    {phase : JsString} {status : Option JsString} (there : phaseIds[index]? = some phase)
    (named : casing.statusPhaseId status = some phase)
    (kind : phase = js "work" ∨ phase = js "user-checkpoint" ∧
      getUniqueQuestJourneyPhaseIndex phaseIds (some (js "work")) = none) :
    casing.normalizeQuestJourneyActivePhaseIndex
      { journey with
        phaseIds, activePhaseIndex := some (index : Int), currentPhaseId := some phase }
      phaseIds status = some index := by
  have below : index < phaseIds.length := (List.getElem?_eq_some_iff.mp there).1
  have explicit := explicitIndex_set journey below (some phase)
  have byStatus : casing.indexOfStatus
      { journey with phaseIds, activePhaseIndex := some (index : Int), currentPhaseId := some phase }
      phaseIds status = some index := by
    rw [casing.indexOfStatus_of_phase _ status named, explicit, Option.filter_some,
      if_pos (by simpa using there), Option.some_or]
  unfold normalizeQuestJourneyActivePhaseIndex
  rcases kind with rfl | ⟨rfl, others⟩
  · rw [casing.normalizedStatus_of_work named, if_neg (by decide)]
    exact byStatus
  · have known : js "user-checkpoint" ∈ knownPhaseIds := by decide
    have planned : casing.plannedCurrentPhaseId
        { journey with
          phaseIds, activePhaseIndex := some (index : Int)
          currentPhaseId := some (js "user-checkpoint") } = some (js "user-checkpoint") :=
      casing.getQuestJourneyPhase_of_known known
    have noWork : (some index).filter (fun index => phaseIds[index]? = some (js "work")) = none := by
      rw [Option.filter_some, there]
      rfl
    rw [casing.normalizedStatus_of_checkpoint named, if_pos rfl, planned, if_neg (by decide), explicit,
      noWork, others, byStatus]
    rfl

/-- What `setJourney` makes of a row whose plan is read as it stands. -/
theorem inPhase_setJourney (row : BoardRow) {journey : QuestJourneyPlanState} {index : Nat}
    {phase status : JsString} (reads : casing.Reads journey) (there : journey.phaseIds[index]? = some phase)
    (named : casing.statusPhaseId (some status) = some phase)
    (kind : phase = js "work" ∨ phase = js "user-checkpoint" ∧
      getUniqueQuestJourneyPhaseIndex journey.phaseIds (some (js "work")) = none) :
    ∃ journey', casing.InPhase (casing.setJourney row journey journey.phaseIds index status) journey'
        index phase ∧
      journey'.phaseIds = journey.phaseIds ∧ stages journey' = stages journey ∧
      ∀ other, valueAt journey'.phaseTimings other = valueAt journey.phaseTimings other := by
  let moved : QuestJourneyPlanState :=
    { journey with
      phaseIds := journey.phaseIds
      activePhaseIndex := some (index : Int)
      currentPhaseId := some phase }
  have current : phaseAt journey.phaseIds (index : Int) = some phase := by
    unfold phaseAt
    rw [if_pos (Int.natCast_nonneg index), Int.toNat_natCast, there]
  have ids : casing.nonEmptyPhaseIds moved (some status) = journey.phaseIds := by
    unfold nonEmptyPhaseIds
    dsimp only
    rw [casing.normalizeKnown_of_canonical reads.canonical, if_pos]
    intro empty
    have there : journey.phaseIds[index]? = some phase := there
    rw [show journey.phaseIds = [] from empty] at there
    cases there
  have sameMode : casing.planMode moved = js "active" := reads.mode
  have active : casing.planActiveIndex moved (some status) = some index := by
    unfold planActiveIndex
    rw [sameMode, if_neg (by decide), ids]
    exact casing.activeIndex_set there named kind
  have set : (casing.setJourney row journey journey.phaseIds index status).journey =
      some (casing.normalizeQuestJourneyPlan moved (some status)) := by
    unfold setJourney
    rw [current]
  have ids' : (casing.normalizeQuestJourneyPlan moved (some status)).phaseIds = journey.phaseIds := ids
  have notes' : (casing.normalizeQuestJourneyPlan moved (some status)).phaseNotes =
      journey.phaseNotes.bind fun raw => raw.normalizePositions readNote journey.phaseIds.length := by
    show normalizeQuestJourneyPhaseNotes _ (casing.nonEmptyPhaseIds moved (some status)).length = _
    rw [ids]
    rfl
  have skipReasons' : (casing.normalizeQuestJourneyPlan moved (some status)).phaseSkipReasons =
      journey.phaseSkipReasons.bind fun raw =>
        raw.normalizePositions readNote journey.phaseIds.length := by
    show normalizeQuestJourneyPhaseNotes _ (casing.nonEmptyPhaseIds moved (some status)).length = _
    rw [ids]
    rfl
  have timings' : (casing.normalizeQuestJourneyPlan moved (some status)).phaseTimings =
      journey.phaseTimings.bind fun raw =>
        raw.normalizePositions readTiming journey.phaseIds.length := by
    show normalizeQuestJourneyPhaseTimings _ (casing.nonEmptyPhaseIds moved (some status)).length = _
    rw [ids]
    rfl
  have reads' : casing.Reads (casing.normalizeQuestJourneyPlan moved (some status)) := by
    refine ⟨?_, ?_, ?_, ?_, ?_⟩
    · rw [casing.planMode_normalize, sameMode]
    · rw [ids']
      exact reads.canonical
    · rw [ids', notes']
      exact readAsIs_normalizePositions readNote_stable _
    · rw [ids', skipReasons']
      exact readAsIs_normalizePositions readNote_stable _
    · rw [ids', timings']
      exact readAsIs_normalizePositions readTiming_stable _
  refine ⟨_, ⟨reads', set, ?_, ?_, named, ?_⟩, ids', ?_, ?_⟩
  · show (casing.planActiveIndex moved (some status)).map (fun index : Nat => (index : Int)) = _
    rw [active]
    rfl
  · rw [ids', there]
  · intro checkpoint
    rw [ids']
    rcases kind with work | ⟨-, others⟩
    · rw [checkpoint] at work
      exact absurd work (by decide)
    · exact others
  · refine stages_congr ids' (fun index => ?_) fun index => ?_
    · rw [notes', reads.notes.valueAt_normalizePositions]
    · rw [skipReasons', reads.skipReasons.valueAt_normalizePositions]
  · intro other
    rw [timings', reads.timings.valueAt_normalizePositions]

end Casing

/-! ## Timings -/

theorem indexText_natCast (index : Nat) : indexText (index : Int) = decimal index := by
  unfold indexText
  rw [if_pos (Int.natCast_nonneg index), Int.toNat_natCast]

theorem readTiming_started {now : ℚ} (positive : 0 < now) :
    readTiming (some ⟨some now, none⟩) = some (some ⟨some now, none⟩) := by
  unfold readTiming normalizeQuestJourneyTimestamp
  simp [positive]

theorem exists_start_of_parsed {timing : QuestJourneyPhaseTiming}
    (parsed : readTiming (some timing) = some (some timing)) :
    ∃ startedAt, timing.startedAt = some startedAt ∧ 0 < startedAt := by
  unfold readTiming at parsed
  obtain ⟨raw, same, found⟩ := Option.bind_eq_some_iff.mp parsed
  cases same
  obtain ⟨startedAt, start, -⟩ := Option.map_eq_some_iff.mp found
  obtain ⟨known, positive⟩ := Option.filter_eq_some_iff.mp start
  exact ⟨startedAt, known, of_decide_eq_true positive⟩

theorem endedTiming_of_isOpen {timing : QuestJourneyPhaseTiming} {startedAt now : ℚ}
    (start : timing.startedAt = some startedAt) (positive : 0 < startedAt) (running : IsOpen timing) :
    endedTiming now timing = ⟨some startedAt, some now⟩ := by
  obtain ⟨start', end'⟩ := timing
  obtain rfl : start' = some startedAt := start
  obtain rfl : end' = none := running.2
  unfold endedTiming
  have different : startedAt ≠ 0 := ne_of_gt positive
  simp [different]

theorem readTiming_ended {startedAt now : ℚ} (positive : 0 < startedAt) (later : startedAt ≤ now) :
    readTiming (some ⟨some startedAt, some now⟩) = some (some ⟨some startedAt, some now⟩) := by
  have positive' : 0 < now := lt_of_lt_of_le positive later
  unfold readTiming normalizeQuestJourneyTimestamp
  simp [positive, positive', later]

section Clocks

variable {timings : Option (Record (Option QuestJourneyPhaseTiming))} {count index index' : Nat}
  {now later : ℚ}

theorem ClockOf.running (clock : ClockOf timings index now) (readable : ReadAsIs readTiming count timings) :
    ∃ startedAt, valueAt timings index = some ⟨some startedAt, none⟩ ∧ 0 < startedAt ∧ startedAt ≤ now := by
  obtain ⟨⟨start, ended⟩, found, running⟩ := clock.runs
  obtain ⟨startedAt, known, positive⟩ := exists_start_of_parsed (readable.parsed found)
  obtain rfl : start = some startedAt := known
  obtain rfl : ended = none := running.2
  exact ⟨startedAt, found, positive, clock.started index _ startedAt found rfl⟩

theorem ClockOf.mono (clock : ClockOf timings index now) (order : now ≤ later) :
    ClockOf timings index later where
  runs := clock.runs
  only := clock.only
  started other timing startedAt found start :=
    le_trans (clock.started other timing startedAt found start) order

theorem ClockOf.congr {timings' : Option (Record (Option QuestJourneyPhaseTiming))}
    (clock : ClockOf timings index now) (same : ∀ other, valueAt timings' other = valueAt timings other) :
    ClockOf timings' index now where
  runs := by simpa only [same] using clock.runs
  only := by simpa only [same] using clock.only
  started := by simpa only [same] using clock.started

theorem endedTiming_spec {timing : QuestJourneyPhaseTiming}
    (parsed : readTiming (some timing) = some (some timing))
    (started : ∀ startedAt, timing.startedAt = some startedAt → startedAt ≤ later) :
    readTiming (some (endedTiming later timing)) = some (some (endedTiming later timing)) ∧
      ¬ IsOpen (endedTiming later timing) ∧ (endedTiming later timing).startedAt = timing.startedAt := by
  obtain ⟨startedAt, start, positive⟩ := exists_start_of_parsed parsed
  have reached := started startedAt start
  cases ended : timing.endedAt with
  | none =>
    have running : IsOpen timing := ⟨start ▸ rfl, ended⟩
    rw [endedTiming_of_isOpen start positive running]
    exact ⟨readTiming_ended positive reached, fun opened => (by cases opened.2), start.symm⟩
  | some endedAt =>
    have later' : startedAt ≤ endedAt ∧ 0 < endedAt := by
      have begun : normalizeQuestJourneyTimestamp (some startedAt) = some startedAt :=
        Option.filter_eq_some_iff.mpr ⟨rfl, by simpa using positive⟩
      unfold readTiming at parsed
      rw [Option.bind_some, start, begun, Option.map_some] at parsed
      have same := congrArg QuestJourneyPhaseTiming.endedAt (Option.some.inj (Option.some.inj parsed))
      rw [ended] at same
      obtain ⟨found, order⟩ := Option.filter_eq_some_iff.mp same
      exact ⟨of_decide_eq_true order, of_decide_eq_true (Option.filter_eq_some_iff.mp found).2⟩
    have stays : endedTiming later timing = timing := by
      unfold endedTiming
      have different : endedAt ≠ 0 := ne_of_gt later'.2
      rw [ended]
      simp [different]
    rw [stays]
    refine ⟨parsed, fun opened => ?_, rfl⟩
    have none := opened.2
    rw [ended] at none
    cases none

theorem valueAt_movedTimings (record : Record (Option QuestJourneyPhaseTiming)) (index index' : Nat)
    (now : ℚ) (place : Nat) :
    valueAt (some (movedTimings record index index' now)) place =
      if place = index' then some ⟨some now, none⟩
      else if place = index then (valueAt (some record) index).map (endedTiming now)
      else valueAt (some record) place := by
  unfold movedTimings
  rw [indexText_natCast, indexText_natCast, valueAt_set]
  by_cases entered : place = index'
  · rw [if_pos entered, if_pos entered]
  · rw [if_neg entered, if_neg entered]
    have own : valueAt (some record) index = (record.get? (decimal index)).join := rfl
    rw [own]
    split
    · next timing found =>
      rw [found, valueAt_set]
      rfl
    · next missing =>
      by_cases left : place = index
      · rw [if_pos left, left, own]
        cases found : record.get? (decimal index) with
        | none => rfl
        | some timing =>
          cases timing with
          | none => rfl
          | some timing => exact absurd found (missing timing)
      · rw [if_neg left]

theorem ticks_moved (readable : ReadAsIs readTiming count timings) (ticks : Ticks timings (some index) now)
    (order : now ≤ later) (positive : 0 < later) (below : index' < count) :
    ReadAsIs readTiming count (some (movedTimings (timings.getD ∅) index index' later)) ∧
      Ticks (some (movedTimings (timings.getD ∅) index index' later)) (some index') later := by
  have reached : ∀ place timing startedAt, valueAt timings place = some timing →
      timing.startedAt = some startedAt → startedAt ≤ later :=
    fun place timing startedAt found start => le_trans (ticks.started place timing startedAt found start) order
  refine ⟨?_, ?_, ?_⟩
  · unfold movedTimings
    rw [indexText_natCast, indexText_natCast]
    have entered : ∀ record : Record (Option QuestJourneyPhaseTiming),
        ReadAsIs readTiming count (some record) →
        ReadAsIs readTiming count (some (record.set (decimal index') (some ⟨some later, none⟩))) :=
      fun record left => left.set below (readTiming_started positive)
    refine entered _ ?_
    split
    · next timing found =>
      have there : valueAt timings index = some timing := Option.join_eq_some_iff.mpr found
      exact readable.set (readable.lt_of_valueAt there)
        (endedTiming_spec (readable.parsed there) fun startedAt => reached index timing startedAt there).1
    · exact readable
  · intro place timing there running
    rw [valueAt_movedTimings, valueAt_getD_empty, valueAt_getD_empty] at there
    by_cases entered : place = index'
    · rw [entered]
    · rw [if_neg entered] at there
      by_cases left : place = index
      · rw [if_pos left] at there
        obtain ⟨timing', found, rfl⟩ := Option.map_eq_some_iff.mp there
        exact absurd running (endedTiming_spec (readable.parsed found) fun startedAt =>
          reached index timing' startedAt found).2.1
      · rw [if_neg left] at there
        exact absurd (Option.some.inj (ticks.only place timing there running)) (Ne.symm left)
  · intro place timing began there start
    rw [valueAt_movedTimings, valueAt_getD_empty, valueAt_getD_empty] at there
    by_cases entered : place = index'
    · rw [if_pos entered] at there
      cases there
      exact le_of_eq (Option.some.inj start).symm
    · rw [if_neg entered] at there
      by_cases left : place = index
      · rw [if_pos left] at there
        obtain ⟨timing', found, rfl⟩ := Option.map_eq_some_iff.mp there
        rw [(endedTiming_spec (readable.parsed found) fun startedAt =>
          reached index timing' startedAt found).2.2] at start
        exact reached index timing' began found start
      · rw [if_neg left] at there
        exact reached place timing began there start

theorem ClockOf.ticks (clock : ClockOf timings index now) : Ticks timings (some index) now where
  only other timing found running := congrArg some (clock.only other timing found running).symm
  started := clock.started

theorem clockOf_moved (readable : ReadAsIs readTiming count timings) (clock : ClockOf timings index now)
    (order : now ≤ later) (below : index' < count) :
    ReadAsIs readTiming count (some (movedTimings (timings.getD ∅) index index' later)) ∧
      ClockOf (some (movedTimings (timings.getD ∅) index index' later)) index' later := by
  obtain ⟨startedAt, -, positive, started⟩ := clock.running readable
  obtain ⟨readable', ticks⟩ := ticks_moved readable clock.ticks order
    (lt_of_lt_of_le positive (le_trans started order)) below
  refine ⟨readable', ⟨⟨some later, none⟩, ?_, rfl, rfl⟩, ?_, ticks.started⟩
  · rw [valueAt_movedTimings, if_pos rfl]
  · intro place timing there running
    exact (Option.some.inj (ticks.only place timing there running)).symm

theorem clockOf_reopened (readable : ReadAsIs readTiming count timings)
    (clock : ClockOf timings index now) (order : now ≤ later) (below : index' < count)
    (other : index ≠ index') :
    ReadAsIs readTiming count (some (reopenedTimings (timings.getD ∅) index index' later)) ∧
      ClockOf (some (reopenedTimings (timings.getD ∅) index index' later)) index' later := by
  obtain ⟨workStart, -, workPositive, workStarted⟩ := clock.running readable
  have positive : 0 < later := lt_of_lt_of_le workPositive (le_trans workStarted order)
  have rest : ReadAsIs readTiming count (some ((timings.getD ∅).delete (decimal index))) :=
    Record.Readable.delete readable (decimal index)
  have valueAt_rest : ∀ place, valueAt (some ((timings.getD ∅).delete (decimal index))) place =
      if place = index then none else valueAt timings place := by
    intro place
    rw [valueAt_delete, valueAt_getD_empty]
  obtain ⟨startedAt, start, begun, reached⟩ : ∃ startedAt,
      ((((timings.getD ∅).delete (decimal index)).get? (decimal index')).join.bind
        (·.startedAt)).getD later = startedAt ∧ 0 < startedAt ∧ startedAt ≤ later := by
    refine ⟨_, rfl, ?_⟩
    cases found : (((timings.getD ∅).delete (decimal index)).get? (decimal index')).join with
    | none => exact ⟨positive, le_refl later⟩
    | some timing =>
      have there : valueAt (some ((timings.getD ∅).delete (decimal index))) index' = some timing := found
      obtain ⟨startedAt, known, began⟩ := exists_start_of_parsed (rest.parsed there)
      rw [valueAt_rest, if_neg (Ne.symm other)] at there
      rw [Option.bind_some, known, Option.getD_some]
      exact ⟨began, le_trans (clock.started index' timing startedAt there known) order⟩
  have reopened : reopenedTimings (timings.getD ∅) index index' later =
      ((timings.getD ∅).delete (decimal index)).set (decimal index') (some ⟨some startedAt, none⟩) := by
    unfold reopenedTimings
    rw [indexText_natCast, indexText_natCast]
    dsimp only
    rw [start]
  have valueAt_reopened : ∀ place,
      valueAt (some (reopenedTimings (timings.getD ∅) index index' later)) place =
        if place = index' then some ⟨some startedAt, none⟩
        else if place = index then none else valueAt timings place := by
    intro place
    rw [reopened, valueAt_set, valueAt_rest]
  refine ⟨?_, ⟨⟨some startedAt, none⟩, ?_, rfl, rfl⟩, ?_, ?_⟩
  · rw [reopened]
    exact rest.set below (readTiming_started begun)
  · rw [valueAt_reopened, if_pos rfl]
  · intro place timing there running
    rw [valueAt_reopened] at there
    by_cases entered : place = index'
    · exact entered
    · rw [if_neg entered] at there
      by_cases left : place = index
      · rw [if_pos left] at there
        cases there
      · rw [if_neg left] at there
        exact absurd (clock.only place timing there running) left
  · intro place timing began there known
    rw [valueAt_reopened] at there
    by_cases entered : place = index'
    · rw [if_pos entered] at there
      cases there
      rw [← Option.some.inj known]
      exact reached
    · rw [if_neg entered] at there
      by_cases left : place = index
      · rw [if_pos left] at there
        cases there
      · rw [if_neg left] at there
        exact le_trans (clock.started place timing began there known) order

/-- Insertions behind a phase leave its clock alone. -/
theorem Ticks.shift (readable : ReadAsIs readTiming count timings) (ticks : Ticks timings (some index) now)
    {position : Nat} (behind : index < position) (more : Nat) :
    Ticks (timings.map (·.shift position more)) (some index) now where
  only := by
    intro place timing there running
    rw [readable.valueAt_shift] at there
    split at there
    · exact ticks.only place timing there running
    · split at there
      · cases there
      · have := Option.some.inj (ticks.only _ timing there running)
        omega
  started := by
    intro place timing startedAt there start
    rw [readable.valueAt_shift] at there
    split at there
    · exact ticks.started place timing startedAt there start
    · split at there
      · cases there
      · exact ticks.started _ timing startedAt there start

/-- The clock runs on for a phase before which nothing is inserted. -/
theorem ClockOf.shift (readable : ReadAsIs readTiming count timings) (clock : ClockOf timings index now)
    {position : Nat} (behind : index < position) (more : Nat) :
    ClockOf (timings.map (·.shift position more)) index now := by
  have ticks := clock.ticks.shift readable behind more
  refine ⟨?_, ?_, ticks.started⟩
  · rw [readable.valueAt_shift, if_pos behind]
    exact clock.runs
  · intro place timing there running
    exact (Option.some.inj (ticks.only place timing there running)).symm

end Clocks

/-! ## Insertions -/

/-- The phases into which stages are put, at a position. -/
theorem stages_spliced {journey journey' : QuestJourneyPlanState} {position : Nat} {added : List Stage}
    (within : position ≤ journey.phaseIds.length)
    (ids : journey'.phaseIds =
      journey.phaseIds.take position ++ added.map (·.id) ++ journey.phaseIds.drop position)
    (notes : ∀ index, valueAt journey'.phaseNotes index =
      if index < position then valueAt journey.phaseNotes index
      else if index < position + added.length then added[index - position]?.bind (·.note)
      else valueAt journey.phaseNotes (index - added.length))
    (skipReasons : ∀ index, valueAt journey'.phaseSkipReasons index =
      if index < position then valueAt journey.phaseSkipReasons index
      else if index < position + added.length then added[index - position]?.bind (·.skipReason)
      else valueAt journey.phaseSkipReasons (index - added.length)) :
    stages journey' = (stages journey).take position ++ added ++ (stages journey).drop position := by
  have within' : position ≤ (stages journey).length := by rwa [length_stages]
  apply List.ext_getElem?
  intro index
  rw [getElem?_stages, ids, getElem?_splice within, getElem?_splice within', List.length_map]
  unfold stageAt
  rw [notes, skipReasons]
  split
  · rw [getElem?_stages]
    rfl
  · split
    · rw [List.getElem?_map]
      cases added[index - position]? with
      | none => rfl
      | some stage => rfl
    · rw [getElem?_stages]
      rfl

/-- A phase with nothing noted of it. -/
def bareStage (id : JsString) : Stage := ⟨id, none, none⟩

/-- A stage that is inserted: a User Checkpoint or Work. -/
def IsPause (stage : Stage) : Prop := stage.id = js "work" ∨ stage.id = js "user-checkpoint"

section Inserting

variable {casing : Casing} {journey : QuestJourneyPlanState} {position : Nat} {inserted : List JsString}

theorem phaseIds_insertPhases (journey : QuestJourneyPlanState) (position : Nat) (inserted : List JsString)
    (now : ℚ) : (insertPhases journey journey.phaseIds position inserted now).phaseIds =
      journey.phaseIds.take position ++ inserted ++ journey.phaseIds.drop position := rfl

theorem length_insertPhases (journey : QuestJourneyPlanState) (position : Nat) (inserted : List JsString)
    (now : ℚ) : (insertPhases journey journey.phaseIds position inserted now).phaseIds.length =
      journey.phaseIds.length + inserted.length := by
  rw [phaseIds_insertPhases, List.length_append, List.length_append, List.length_take, List.length_drop]
  omega

theorem Casing.Reads.insertPhases (reads : casing.Reads journey) (position : Nat)
    (known : ∀ id ∈ inserted, id ∈ knownPhaseIds) (now : ℚ) :
    casing.Reads (insertPhases journey journey.phaseIds position inserted now) where
  mode := reads.mode
  canonical := by
    intro id inside
    rw [phaseIds_insertPhases, List.mem_append, List.mem_append] at inside
    rcases inside with (before | new) | behind
    · exact reads.canonical id (List.mem_of_mem_take before)
    · exact casing.canonicalizeKnown_of_known (known id new)
    · exact reads.canonical id (List.mem_of_mem_drop behind)
  notes := by
    rw [length_insertPhases]
    exact reads.notes.shift position inserted.length
  skipReasons := by
    rw [length_insertPhases]
    exact reads.skipReasons.shift position inserted.length
  timings := by
    rw [length_insertPhases]
    exact reads.timings.shift position inserted.length

theorem stages_insertPhases (reads : casing.Reads journey) (within : position ≤ journey.phaseIds.length)
    (now : ℚ) :
    stages (insertPhases journey journey.phaseIds position inserted now) =
      (stages journey).take position ++ inserted.map bareStage ++ (stages journey).drop position := by
  have ids : (inserted.map bareStage).map Stage.id = inserted := by
    rw [List.map_map]
    exact List.map_id inserted
  have blank : ∀ index : Nat, (inserted.map bareStage)[index]?.bind Stage.note = none ∧
      (inserted.map bareStage)[index]?.bind Stage.skipReason = none := by
    intro index
    rw [List.getElem?_map]
    cases inserted[index]? with
    | none => exact ⟨rfl, rfl⟩
    | some id => exact ⟨rfl, rfl⟩
  refine stages_spliced within ?_ (fun index => ?_) fun index => ?_
  · rw [ids]
    rfl
  · rw [(blank _).1, List.length_map]
    exact reads.notes.valueAt_shift position inserted.length index
  · rw [(blank _).2, List.length_map]
    exact reads.skipReasons.valueAt_shift position inserted.length index

end Inserting

end Takode.Journeys
