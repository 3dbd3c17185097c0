import Takode.Journeys.Pausing
import Takode.Lib.Machine

/-!
# Rows that wait for the user

Whatever questions come and are resolved, a row waits for the ones that block it in a User Checkpoint:
its plan only grows, and the clock runs for the phase that it is in.
-/

namespace Takode.Journeys

open JsString

/-! ## Moving a row -/

theorem getUnique_eq_none {phaseIds : List JsString} {target : JsString} {index index' : Nat}
    (there : phaseIds[index]? = some target) (too : phaseIds[index']? = some target)
    (different : index ≠ index') : getUniqueQuestJourneyPhaseIndex phaseIds (some target) = none := by
  cases unique : getUniqueQuestJourneyPhaseIndex phaseIds (some target) with
  | none => rfl
  | some only =>
    exact absurd ((eq_of_getUnique unique there).trans (eq_of_getUnique unique too).symm) different

/-- A phase that is not the only one of a plan is there again. -/
theorem exists_other_of_getUnique_none {phaseIds : List JsString} {target : JsString} {index : Nat}
    (several : getUniqueQuestJourneyPhaseIndex phaseIds (some target) = none)
    (there : phaseIds[index]? = some target) : ∃ other ≠ index, phaseIds[other]? = some target := by
  have listed := mem_getQuestJourneyPhaseIndices.mpr there
  have sorted : (getQuestJourneyPhaseIndices phaseIds target).Nodup :=
    List.nodup_range.filter _
  unfold getUniqueQuestJourneyPhaseIndex at several
  rw [Option.bind_some] at several
  cases found : getQuestJourneyPhaseIndices phaseIds target with
  | nil =>
    rw [found] at listed
    cases listed
  | cons first rest =>
    cases rest with
    | nil =>
      rw [found] at several
      cases several
    | cons second rest =>
      rw [found] at sorted
      have apart : first ≠ second := by
        rintro rfl
        exact (List.nodup_cons.mp sorted).1 List.mem_cons_self
      have both : ∀ other ∈ [first, second], phaseIds[other]? = some target := by
        intro other inside
        rw [← mem_getQuestJourneyPhaseIndices, found]
        rcases List.mem_cons.mp inside with rfl | second
        · exact List.mem_cons_self
        · rw [List.mem_singleton.mp second]
          exact List.mem_cons_of_mem _ List.mem_cons_self
      by_cases same : first = index
      · exact ⟨second, fun equal => apart (same.trans equal.symm),
          both second (List.mem_cons_of_mem _ List.mem_cons_self)⟩
      · exact ⟨first, same, both first List.mem_cons_self⟩

/-- A row in a phase, with the clock of that phase, whose plan has these stages. -/
structure Casing.Paces (casing : Casing) (row : BoardRow) (journey : QuestJourneyPlanState) (index : Nat)
    (phase : JsString) (now : ℚ) : Prop extends casing.InPhase row journey index phase where
  clock : ClockOf journey.phaseTimings index now

namespace Casing

variable {casing : Casing} {row : BoardRow} {journey : QuestJourneyPlanState} {index : Nat} {phase : JsString}
  {now later : ℚ}

theorem Paces.mono (paces : casing.Paces row journey index phase now) (order : now ≤ later) :
    casing.Paces row journey index phase later :=
  ⟨paces.toInPhase, paces.clock.mono order⟩

/-- The fields of a row that say where it is are all that matters. -/
theorem Paces.congr {row' : BoardRow} (paces : casing.Paces row journey index phase now)
    (journeys : row'.journey = row.journey) (statuses : row'.status = row.status) :
    casing.Paces row' journey index phase now where
  toReads := paces.toReads
  planned := journeys.trans paces.planned
  active := paces.active
  there := paces.there
  status := by rw [statuses, paces.status]
  others := paces.others
  clock := paces.clock

/-- A row that moves on to another phase of its plan. -/
theorem paces_moveToPhase (row : BoardRow) {index' : Nat} {status : JsString}
    (reads : casing.Reads journey) (clock : ClockOf journey.phaseTimings index now)
    (order : now ≤ later) (there : journey.phaseIds[index']? = some phase)
    (named : casing.statusPhaseId (some status) = some phase)
    (kind : phase = js "work" ∨ phase = js "user-checkpoint" ∧
      getUniqueQuestJourneyPhaseIndex journey.phaseIds (some (js "work")) = none) :
    ∃ journey', casing.Paces
        (casing.moveToPhase row journey journey.phaseIds index index' status later) journey' index' phase
        later ∧
      journey'.phaseIds = journey.phaseIds ∧ stages journey' = stages journey := by
  have below : index' < journey.phaseIds.length := (List.getElem?_eq_some_iff.mp there).1
  obtain ⟨readable, runs⟩ := clockOf_moved reads.timings clock order below
  have reads' : casing.Reads { journey with
      phaseTimings := some (movedTimings (journey.phaseTimings.getD ∅) index index' later) } :=
    ⟨reads.mode, reads.canonical, reads.notes, reads.skipReasons, readable⟩
  obtain ⟨journey', inPhase, ids, same, timings⟩ :=
    casing.inPhase_setJourney row reads' there named kind
  exact ⟨journey', ⟨inPhase, runs.congr timings⟩, ids, same⟩

/-! ## Entering a checkpoint -/

theorem KeepsCapitals.statusPhaseId_checkpointing (keeps : casing.KeepsCapitals) :
    casing.statusPhaseId (some (js "USER_CHECKPOINTING")) = some (js "user-checkpoint") :=
  casing.statusPhaseId_of_checkpoint _ keeps.normalizedStatus_checkpointing

theorem KeepsCapitals.statusPhaseId_working (keeps : casing.KeepsCapitals) :
    casing.statusPhaseId (some (js "WORKING")) = some (js "work") :=
  casing.statusPhaseId_of_work keeps.normalizedStatus_working

/-- The Work that a row has returned to from a checkpoint is not the only one. -/
def Remembers (row : BoardRow) (journey : QuestJourneyPlanState) (index : Nat) : Prop :=
  ∀ previous, row.autoCheckpoint = some previous → previous.resumedAt.isSome →
    previous.checkpointIndex + 1 = index →
    phaseAt journey.phaseIds previous.checkpointIndex = some (js "user-checkpoint") →
    ∃ other ≠ index, journey.phaseIds[other]? = some (js "work")

theorem phaseAt_eq_some {phaseIds : List JsString} {index : Int} {id : JsString} :
    phaseAt phaseIds index = some id ↔ ∃ n : Nat, index = n ∧ phaseIds[n]? = some id := by
  unfold phaseAt
  constructor
  · intro found
    split at found
    · exact ⟨index.toNat, by omega, found⟩
    · cases found
  · rintro ⟨n, rfl, found⟩
    rw [if_pos (Int.natCast_nonneg n), Int.toNat_natCast, found]

/-- What entering a checkpoint makes of a row in Work. -/
structure Entered (casing : Casing) (row row' : BoardRow) (journey : QuestJourneyPlanState) (now : ℚ) :
    Prop where
  links : row'.waitForInput = row.waitForInput
  questions : row'.openQuestions = row.openQuestions
  forgets : ∀ previous, row'.autoCheckpoint = some previous → previous.resumedAt = none
  paces : ∃ journey' index, casing.Paces row' journey' index (js "user-checkpoint") now ∧
    Inserted IsPause (stages journey) (stages journey')

theorem entered_reopenCheckpoint (keeps : casing.KeepsCapitals)
    (paces : casing.Paces row journey index (js "work") now) (order : now ≤ later)
    {checkpoint : Nat} (behind : checkpoint + 1 = index)
    (there : journey.phaseIds[checkpoint]? = some (js "user-checkpoint"))
    (others : ∃ other ≠ index, journey.phaseIds[other]? = some (js "work")) :
    Entered casing row (casing.reopenCheckpoint row journey journey.phaseIds index checkpoint later) journey
      later := by
  have below : checkpoint < journey.phaseIds.length := (List.getElem?_eq_some_iff.mp there).1
  have different : index ≠ checkpoint := by omega
  obtain ⟨readable, runs⟩ := clockOf_reopened paces.timings paces.clock order below different
  have reads : casing.Reads { journey with
      phaseTimings := some (reopenedTimings (journey.phaseTimings.getD ∅) index checkpoint later) } :=
    ⟨paces.mode, paces.canonical, paces.notes, paces.skipReasons, readable⟩
  obtain ⟨other, away, work⟩ := others
  have several := getUnique_eq_none work paces.there away
  obtain ⟨journey', inPhase, ids, same, timings⟩ := casing.inPhase_setJourney row reads there
    keeps.statusPhaseId_checkpointing (.inr ⟨rfl, several⟩)
  have entered : casing.Paces _ journey' checkpoint (js "user-checkpoint") later :=
    ⟨inPhase, runs.congr timings⟩
  refine ⟨rfl, rfl, ?_, journey', checkpoint, entered.congr rfl rfl, ?_⟩
  · intro previous remembered
    cases remembered
    rfl
  · rw [same]
    exact .refl _

theorem entered_takePlannedCheckpoint (keeps : casing.KeepsCapitals)
    (paces : casing.Paces row journey index (js "work") now) (order : now ≤ later)
    (planned : journey.phaseIds[index + 1]? = some (js "user-checkpoint")) :
    Entered casing row (casing.takePlannedCheckpoint row journey journey.phaseIds index later) journey
      later := by
  have below : index + 1 < journey.phaseIds.length := (List.getElem?_eq_some_iff.mp planned).1
  -- the plan with Work behind the checkpoint
  obtain ⟨ready, made, reads, clock, first, next, last, inserted⟩ : ∃ ready : QuestJourneyPlanState,
      (if journey.phaseIds[index + 2]? ≠ some (js "work") then
        insertPhases journey journey.phaseIds (index + 2) [js "work"] later else journey) = ready ∧
      casing.Reads ready ∧ ClockOf ready.phaseTimings index now ∧
      ready.phaseIds[index]? = some (js "work") ∧
      ready.phaseIds[index + 1]? = some (js "user-checkpoint") ∧
      ready.phaseIds[index + 2]? = some (js "work") ∧
      Inserted IsPause (stages journey) (stages ready) := by
    by_cases followed : journey.phaseIds[index + 2]? = some (js "work")
    · refine ⟨journey, ?_, paces.toReads, paces.clock, paces.there, planned, followed, .refl _⟩
      rw [if_neg (not_not.mpr followed)]
    · have within : index + 2 ≤ journey.phaseIds.length := by omega
      refine ⟨insertPhases journey journey.phaseIds (index + 2) [js "work"] later, ?_, ?_, ?_, ?_, ?_, ?_,
        ?_⟩
      · rw [if_pos followed]
      · exact paces.toReads.insertPhases (index + 2) (forall_mem_of_all (by decide)) later
      · exact paces.clock.shift paces.timings (by omega) 1
      · rw [phaseIds_insertPhases, getElem?_splice within, if_pos (by omega)]
        exact paces.there
      · rw [phaseIds_insertPhases, getElem?_splice within, if_pos (by omega)]
        exact planned
      · rw [phaseIds_insertPhases, getElem?_splice within, if_neg (by omega),
          if_pos (by simp), Nat.sub_self]
        rfl
      · rw [stages_insertPhases paces.toReads within]
        refine Inserted.splice _ _ ?_
        intro stage inside
        rw [List.map_cons, List.map_nil, List.mem_singleton] at inside
        rw [inside]
        exact .inl rfl
  have several := getUnique_eq_none first last (by omega)
  obtain ⟨journey', moved, ids, same⟩ := paces_moveToPhase row reads clock order next
    keeps.statusPhaseId_checkpointing (.inr ⟨rfl, several⟩)
  have taken : casing.takePlannedCheckpoint row journey journey.phaseIds index later =
      { casing.moveToPhase row ready ready.phaseIds (index : Nat) ((index + 1 : Nat) : Int)
          (js "USER_CHECKPOINTING") later with autoCheckpoint := none } := by
    unfold takePlannedCheckpoint
    dsimp only
    rw [made, casing.normalizeKnown_of_canonical reads.canonical]
    rfl
  rw [taken]
  refine ⟨rfl, rfl, ?_, journey', index + 1, moved.congr rfl rfl, ?_⟩
  · intro previous remembered
    cases remembered
  · rw [same]
    exact inserted

theorem readNote_autoCheckpointNote :
    readNote (some AUTO_CHECKPOINT_NOTE) = some (some AUTO_CHECKPOINT_NOTE) := by
  decide +kernel

/-- The checkpoint that is added, as a stage. -/
def addedStage : Stage := ⟨js "user-checkpoint", some AUTO_CHECKPOINT_NOTE, none⟩

theorem entered_addCheckpoint (keeps : casing.KeepsCapitals)
    (paces : casing.Paces row journey index (js "work") now) (order : now ≤ later) :
    Entered casing row (casing.addCheckpoint row journey journey.phaseIds index later) journey later := by
  have below : index < journey.phaseIds.length := (List.getElem?_eq_some_iff.mp paces.there).1
  have within : index + 1 ≤ journey.phaseIds.length := below
  have known : ∀ id ∈ [js "user-checkpoint", js "work"], id ∈ knownPhaseIds :=
    forall_mem_of_all (by decide)
  have bare := paces.toReads.insertPhases (index + 1) known later
  let grown := insertPhases journey journey.phaseIds (index + 1) [js "user-checkpoint", js "work"] later
  let ready : QuestJourneyPlanState := { grown with
    phaseNotes := some ((grown.phaseNotes.getD ∅).set (decimal (index + 1)) (some AUTO_CHECKPOINT_NOTE)) }
  have ids : ready.phaseIds =
      journey.phaseIds.take (index + 1) ++ [js "user-checkpoint", js "work"] ++
        journey.phaseIds.drop (index + 1) := rfl
  have reads : casing.Reads ready :=
    ⟨bare.mode, bare.canonical, bare.notes.set (by rw [length_insertPhases, List.length_cons]; omega)
      readNote_autoCheckpointNote, bare.skipReasons, bare.timings⟩
  have clock : ClockOf ready.phaseTimings index now := paces.clock.shift paces.timings (by omega) 2
  have first : ready.phaseIds[index]? = some (js "work") := by
    rw [ids, getElem?_splice within, if_pos (by omega)]
    exact paces.there
  have next : ready.phaseIds[index + 1]? = some (js "user-checkpoint") := by
    rw [ids, getElem?_splice within, if_neg (by omega), if_pos (by simp), Nat.sub_self]
    rfl
  have last : ready.phaseIds[index + 2]? = some (js "work") := by
    rw [ids, getElem?_splice within, if_neg (by omega), if_pos (by simp),
      show index + 2 - (index + 1) = 1 by omega]
    rfl
  have stages : stages ready = (stages journey).take (index + 1) ++ [addedStage, bareStage (js "work")] ++
      (stages journey).drop (index + 1) := by
    have two : [addedStage, bareStage (js "work")].length = 2 := rfl
    refine stages_spliced within ids (fun place => ?_) fun place => ?_
    · have shifted := paces.notes.valueAt_shift (index + 1) 2 place
      rw [two]
      show valueAt (some _) place = _
      rw [valueAt_set, valueAt_getD_empty]
      show (if place = index + 1 then _ else valueAt (journey.phaseNotes.map _) place) = _
      by_cases noted : place = index + 1
      · rw [if_pos noted, if_neg (by omega), if_pos (by omega), noted,
          Nat.sub_self]
        rfl
      · rw [if_neg noted]
        refine shifted.trans ?_
        by_cases before : place < index + 1
        · rw [if_pos before, if_pos before]
        · rw [if_neg before, if_neg before]
          by_cases amid : place < index + 1 + 2
          · rw [if_pos amid, if_pos amid, show place - (index + 1) = 1 by omega]
            rfl
          · rw [if_neg amid, if_neg amid]
    · rw [two]
      refine (paces.skipReasons.valueAt_shift (index + 1) 2 place).trans ?_
      by_cases before : place < index + 1
      · rw [if_pos before, if_pos before]
      · rw [if_neg before, if_neg before]
        by_cases amid : place < index + 1 + 2
        · rw [if_pos amid, if_pos amid]
          have either : place - (index + 1) = 0 ∨ place - (index + 1) = 1 := by omega
          rcases either with first | second
          · rw [first]
            rfl
          · rw [second]
            rfl
        · rw [if_neg amid, if_neg amid]
  have several := getUnique_eq_none first last (by omega)
  obtain ⟨journey', moved, ids', same⟩ := paces_moveToPhase row reads clock order next
    keeps.statusPhaseId_checkpointing (.inr ⟨rfl, several⟩)
  have added : casing.addCheckpoint row journey journey.phaseIds index later =
      { casing.moveToPhase row ready ready.phaseIds (index : Nat) ((index + 1 : Nat) : Int)
          (js "USER_CHECKPOINTING") later with
        autoCheckpoint := some { checkpointIndex := index + 1 } } := by
    unfold addCheckpoint
    dsimp only
    rw [casing.normalizeKnown_of_canonical bare.canonical]
    rfl
  rw [added]
  refine ⟨rfl, rfl, ?_, journey', index + 1, moved.congr rfl rfl, ?_⟩
  · intro previous remembered
    cases remembered
    rfl
  · rw [same, stages]
    refine Inserted.splice _ _ ?_
    intro stage inside
    rcases List.mem_cons.mp inside with rfl | work
    · exact .inr rfl
    · rw [List.mem_singleton.mp work]
      exact .inl rfl

theorem Remembers.others (remembers : Remembers row journey index)
    {previous : BoardRowAutoCheckpoint}
    (reopened : reopenedCheckpoint row journey.phaseIds index later = some previous) :
    ∃ other ≠ index, journey.phaseIds[other]? = some (js "work") := by
  obtain ⟨remembered, soon⟩ := Option.filter_eq_some_iff.mp reopened
  simp only [Bool.and_eq_true, decide_eq_true_eq] at soon
  obtain ⟨⟨recent, behind⟩, there⟩ := soon
  have resumed : previous.resumedAt.isSome := by
    cases known : previous.resumedAt with
    | none =>
      rw [known] at recent
      cases recent
    | some _ => rfl
  exact remembers previous remembered resumed behind there

theorem entered_enterUserCheckpoint (keeps : casing.KeepsCapitals)
    (paces : casing.Paces row journey index (js "work") now) (order : now ≤ later)
    (others : ∀ previous, reopenedCheckpoint row journey.phaseIds index later = some previous →
      ∃ other ≠ index, journey.phaseIds[other]? = some (js "work")) :
    Entered casing row (casing.enterUserCheckpoint row journey journey.phaseIds index later) journey
      later := by
  unfold enterUserCheckpoint
  split
  · next previous reopened =>
    have others := others previous reopened
    obtain ⟨remembered, soon⟩ := Option.filter_eq_some_iff.mp reopened
    simp only [Bool.and_eq_true, decide_eq_true_eq] at soon
    obtain ⟨⟨-, behind⟩, there⟩ := soon
    obtain ⟨checkpoint, same, there⟩ := phaseAt_eq_some.mp there
    rw [same] at behind ⊢
    exact entered_reopenCheckpoint keeps paces order (by omega) there others
  · split
    · next planned => exact entered_takePlannedCheckpoint keeps paces order planned
    · exact entered_addCheckpoint keeps paces order

/-! ## Bringing the phase in line with the links -/

/-- A row that is not in Work while a question blocks it, and not in an added checkpoint before Work
while none does. -/
structure AtRest (row : BoardRow) (journey : QuestJourneyPlanState) (index : Nat) (phase : JsString) :
    Prop where
  working : phase = js "work" → row.waitForInput.getD [] = []
  waiting : phase = js "user-checkpoint" → row.isAutomaticCheckpointCurrent = true →
    journey.phaseIds[index + 1]? = some (js "work") → row.waitForInput.getD [] ≠ []

/-- A row whose plan, clock and links go together. -/
structure Keeps (casing : Casing) (row : BoardRow) (journey : QuestJourneyPlanState) (index : Nat)
    (phase : JsString) (now : ℚ) : Prop extends casing.Paces row journey index phase now,
    AtRest row journey index phase where
  remembers : Remembers row journey index

theorem Reads.mode_ne_proposed (reads : casing.Reads journey) : journey.mode ≠ some (js "proposed") := by
  intro proposed
  have mode := reads.mode
  unfold planMode canonicalizeQuestJourneyLifecycleMode at mode
  rw [proposed, Option.bind_some] at mode
  dsimp only at mode
  rw [casing.lowered_of_plain (by decide) (forall_mem_of_all (by decide)), if_pos (.inr rfl)] at mode
  exact absurd mode (by decide)

theorem keeps_resumed (keeps : casing.KeepsCapitals)
    (paces : casing.Paces row journey index (js "user-checkpoint") now) (order : now ≤ later)
    (none : row.waitForInput.getD [] = []) (next : journey.phaseIds[index + 1]? = some (js "work")) :
    ∃ journey', casing.Keeps
        { casing.moveToPhase row journey journey.phaseIds index ((index + 1 : Nat) : Int) (js "WORKING")
            later with
          autoCheckpoint := some { checkpointIndex := index, resumedAt := some later } }
        journey' (index + 1) (js "work") later ∧
      stages journey' = stages journey := by
  obtain ⟨journey', moved, ids, same⟩ := paces_moveToPhase row paces.toReads paces.clock order next
    keeps.statusPhaseId_working (.inl rfl)
  refine ⟨journey', ⟨moved.congr rfl rfl, ⟨fun _ => none, ?_⟩, ?_⟩, same⟩
  · intro checkpoint
    exact absurd checkpoint (by decide)
  · intro previous _ _ _ _
    rw [ids]
    exact exists_other_of_getUnique_none (paces.others rfl) next

theorem keeps_sync (keeps : casing.KeepsCapitals) (paces : casing.Paces row journey index phase now)
    (order : now ≤ later) (remembers : Remembers row journey index) :
    (∃ journey' index' phase',
      casing.Keeps (casing.syncAutomaticUserCheckpoint row later).1 journey' index' phase' later ∧
      Inserted IsPause (stages journey) (stages journey')) ∧
    (casing.syncAutomaticUserCheckpoint row later).1.waitForInput = row.waitForInput ∧
    (casing.syncAutomaticUserCheckpoint row later).1.openQuestions = row.openQuestions := by
  have place : phaseAt journey.phaseIds (index : Int) = some phase :=
    phaseAt_eq_some.mpr ⟨index, rfl, paces.there⟩
  unfold syncAutomaticUserCheckpoint
  rw [paces.planned]
  dsimp only
  rw [if_neg paces.mode_ne_proposed, paces.active]
  dsimp only
  rw [casing.normalizeKnown_of_canonical paces.canonical, place, Int.toNat_natCast]
  by_cases entering : casing.normalizedStatus row.status = js "WORKING" ∧
      some phase = some (js "work") ∧ row.waitForInput.getD [] ≠ []
  · rw [if_pos entering]
    obtain ⟨-, work, links⟩ := entering
    obtain rfl : phase = js "work" := Option.some.inj work
    have entered := entered_enterUserCheckpoint keeps paces order fun _ => remembers.others
    obtain ⟨journey', index', moved, inserted⟩ := entered.paces
    refine ⟨⟨journey', index', js "user-checkpoint", ⟨moved, ⟨?_, ?_⟩, ?_⟩, inserted⟩, entered.links,
      entered.questions⟩
    · intro work
      exact absurd work (by decide)
    · intro _ _ _
      rw [entered.links]
      exact links
    · intro previous remembered resumed
      rw [entered.forgets previous remembered] at resumed
      cases resumed
  · rw [if_neg entering]
    have working : phase = js "work" → row.waitForInput.getD [] = [] := by
      rintro rfl
      by_contra links
      exact entering ⟨casing.normalizedStatus_of_work paces.status, rfl, links⟩
    by_cases leaving : casing.normalizedStatus row.status = js "USER_CHECKPOINTING" ∧
        row.isAutomaticCheckpointCurrent = true ∧ ¬ row.waitForInput.getD [] ≠ []
    · rw [if_pos leaving]
      obtain ⟨checkpointing, current, links⟩ := leaving
      have named := casing.statusPhaseId_of_checkpoint row.status checkpointing
      rw [paces.status] at named
      obtain rfl : phase = js "user-checkpoint" := Option.some.inj named
      by_cases next : phaseAt journey.phaseIds ((index : Int) + 1) = some (js "work")
      · rw [if_neg (not_not.mpr next)]
        obtain ⟨behind, same, there⟩ := phaseAt_eq_some.mp next
        obtain rfl : behind = index + 1 := by omega
        obtain ⟨journey', resumed, stages⟩ :=
          keeps_resumed keeps paces order (not_not.mp links) there
        refine ⟨⟨journey', index + 1, js "work", resumed, ?_⟩, rfl, rfl⟩
        rw [stages]
        exact .refl _
      · rw [if_pos next]
        refine ⟨⟨journey, index, js "user-checkpoint", ⟨paces.mono order, ⟨working, ?_⟩, remembers⟩,
          .refl _⟩, rfl, rfl⟩
        intro _ _ there
        exact absurd (phaseAt_eq_some.mpr ⟨index + 1, by push_cast; rfl, there⟩) next
    · rw [if_neg leaving]
      refine ⟨⟨journey, index, phase, ⟨paces.mono order, ⟨working, ?_⟩, remembers⟩, .refl _⟩, rfl, rfl⟩
      rintro rfl current _ links
      exact leaving ⟨casing.normalizedStatus_of_checkpoint paces.status, current,
        not_not.mpr links⟩

end Casing

/-! ## Questions -/

theorem mem_sortIds {ids : List JsString} {id : JsString} :
    id ∈ (sortIds ids).getD [] ↔ id ∈ ids ∧ isQuestionId id = true := by
  have kept : (sortIds ids).getD [] = (ids.filter isQuestionId).insertionSort fun a b =>
      digitsValue (a.drop 2) ≤ digitsValue (b.drop 2) := by
    unfold sortIds
    dsimp only
    split
    · next empty => rw [empty, Option.getD_none]
    · rfl
  rw [kept, List.mem_insertionSort, List.mem_filter]

namespace Casing

variable (casing : Casing)

theorem mem_addId {ids : Option (List JsString)} {id added : JsString} :
    id ∈ casing.addId ids added ↔
      (id ∈ ids.getD [] ∨ id = casing.lowered added) ∧ isQuestionId id = true := by
  unfold addId addIds
  rw [mem_sortIds, List.mem_eraseDups, List.mem_append, List.map_cons, List.map_nil, List.mem_singleton]

theorem mem_removeIds {ids : Option (List JsString)} {id removed : JsString} :
    id ∈ (casing.removeIds ids [removed]).getD [] ↔
      (id ∈ ids.getD [] ∧ id ≠ casing.lowered removed) ∧ isQuestionId id = true := by
  unfold removeIds
  rw [mem_sortIds, List.mem_filter, List.map_cons, List.map_nil, decide_eq_true_eq, List.mem_singleton]

end Casing

/-- The questions of a row: each that is listed is in one list, those that are not resolved are listed,
and those that are resolved are not. -/
structure Questions (row : BoardRow) (unresolved resolved : List JsString) : Prop where
  valid : ∀ id, id ∈ row.waitForInput.getD [] ∨ id ∈ row.openQuestions.getD [] → isQuestionId id = true
  apart : ∀ id ∈ row.waitForInput.getD [], id ∉ row.openQuestions.getD []
  listed : ∀ id ∈ unresolved, id ∈ row.waitForInput.getD [] ∨ id ∈ row.openQuestions.getD []
  gone : ∀ id ∈ resolved, id ∉ row.waitForInput.getD [] ∧ id ∉ row.openQuestions.getD []

section Listing

variable {casing : Casing} {row : BoardRow} {notificationId : JsString} {unresolved resolved : List JsString}

/-- The lists of a row after a question blocks it. -/
theorem Questions.link (questions : Questions row unresolved resolved) {row' : BoardRow}
    (valid : isQuestionId (casing.lowered notificationId) = true)
    (fresh : casing.lowered notificationId ∉ resolved)
    (links : row'.waitForInput = some (casing.addId row.waitForInput notificationId))
    (others : row'.openQuestions = casing.removeIds row.openQuestions [notificationId]) :
    Questions row' (casing.lowered notificationId :: unresolved) resolved := by
  have inLinks : ∀ id, id ∈ row'.waitForInput.getD [] ↔
      (id ∈ row.waitForInput.getD [] ∨ id = casing.lowered notificationId) ∧ isQuestionId id = true := by
    intro id
    rw [links, Option.getD_some, casing.mem_addId]
  have inOthers : ∀ id, id ∈ row'.openQuestions.getD [] ↔
      (id ∈ row.openQuestions.getD [] ∧ id ≠ casing.lowered notificationId) ∧
        isQuestionId id = true := by
    intro id
    rw [others, casing.mem_removeIds]
  refine ⟨?_, ?_, ?_, ?_⟩
  · rintro id (link | other)
    · exact ((inLinks id).mp link).2
    · exact ((inOthers id).mp other).2
  · intro id link other
    obtain ⟨⟨other, away⟩, -⟩ := (inOthers id).mp other
    rcases ((inLinks id).mp link).1 with old | new
    · exact questions.apart id old other
    · exact away new
  · intro id inside
    by_cases new : id = casing.lowered notificationId
    · exact .inl ((inLinks id).mpr ⟨.inr new, new ▸ valid⟩)
    · have old := questions.listed id ((List.mem_cons.mp inside).resolve_left new)
      have proper := questions.valid id old
      rcases old with link | other
      · exact .inl ((inLinks id).mpr ⟨.inl link, proper⟩)
      · exact .inr ((inOthers id).mpr ⟨⟨other, new⟩, proper⟩)
  · intro id inside
    have new : id ≠ casing.lowered notificationId := fun same => fresh (same ▸ inside)
    refine ⟨fun link => ?_, fun other => ?_⟩
    · rcases ((inLinks id).mp link).1 with old | same
      · exact (questions.gone id inside).1 old
      · exact new same
    · exact (questions.gone id inside).2 ((inOthers id).mp other).1.1

theorem Questions.leaveOpen (questions : Questions row unresolved resolved) {row' : BoardRow}
    (valid : isQuestionId (casing.lowered notificationId) = true)
    (fresh : casing.lowered notificationId ∉ resolved)
    (unlinked : casing.lowered notificationId ∉ row.waitForInput.getD [])
    (links : row'.waitForInput = row.waitForInput)
    (others : row'.openQuestions = some (casing.addId row.openQuestions notificationId)) :
    Questions row' (casing.lowered notificationId :: unresolved) resolved := by
  have inOthers : ∀ id, id ∈ row'.openQuestions.getD [] ↔
      (id ∈ row.openQuestions.getD [] ∨ id = casing.lowered notificationId) ∧
        isQuestionId id = true := by
    intro id
    rw [others, Option.getD_some, casing.mem_addId]
  refine ⟨?_, ?_, ?_, ?_⟩
  · rintro id (link | other)
    · rw [links] at link
      exact questions.valid id (.inl link)
    · exact ((inOthers id).mp other).2
  · intro id link other
    rw [links] at link
    rcases ((inOthers id).mp other).1 with old | new
    · exact questions.apart id link old
    · exact unlinked (new ▸ link)
  · intro id inside
    rw [links]
    by_cases new : id = casing.lowered notificationId
    · exact .inr ((inOthers id).mpr ⟨.inr new, new ▸ valid⟩)
    · have old := questions.listed id ((List.mem_cons.mp inside).resolve_left new)
      have proper := questions.valid id old
      exact old.imp_right fun other => (inOthers id).mpr ⟨.inl other, proper⟩
  · intro id inside
    have new : id ≠ casing.lowered notificationId := fun same => fresh (same ▸ inside)
    rw [links]
    refine ⟨(questions.gone id inside).1, fun other => ?_⟩
    rcases ((inOthers id).mp other).1 with old | same
    · exact (questions.gone id inside).2 old
    · exact new same

/-- The lists of a row after a question is resolved. -/
theorem Questions.resolve (questions : Questions row unresolved resolved) {row' : BoardRow}
    (links : ∀ id, id ∈ row'.waitForInput.getD [] ↔
      id ∈ row.waitForInput.getD [] ∧ id ≠ notificationId)
    (others : ∀ id, id ∈ row'.openQuestions.getD [] ↔
      id ∈ row.openQuestions.getD [] ∧ id ≠ notificationId) :
    Questions row' (unresolved.filter (· ≠ notificationId)) (notificationId :: resolved) := by
  refine ⟨?_, ?_, ?_, ?_⟩
  · rintro id (link | other)
    · exact questions.valid id (.inl ((links id).mp link).1)
    · exact questions.valid id (.inr ((others id).mp other).1)
  · intro id link other
    exact questions.apart id ((links id).mp link).1 ((others id).mp other).1
  · intro id inside
    rw [List.mem_filter, decide_eq_true_eq] at inside
    rcases questions.listed id inside.1 with link | other
    · exact .inl ((links id).mpr ⟨link, inside.2⟩)
    · exact .inr ((others id).mpr ⟨other, inside.2⟩)
  · intro id inside
    rcases List.mem_cons.mp inside with same | earlier
    · exact ⟨fun link => ((links id).mp link).2 same, fun other => ((others id).mp other).2 same⟩
    · obtain ⟨unlinked, closed⟩ := questions.gone id earlier
      exact ⟨fun link => unlinked ((links id).mp link).1, fun other => closed ((others id).mp other).1⟩

end Listing

/-! ## Runs -/

/-- A row, the time, and the questions that were recorded on it and are not resolved, or are. -/
structure WatchedRow where
  row : BoardRow
  now : ℚ
  unresolved : List JsString
  resolved : List JsString

/-- What happens to a row that is watched. -/
inductive QuestionStep
  | add (notificationId : JsString) (blocking : Bool) (now : ℚ)
  | resolve (notificationId : JsString) (now : ℚ)
  | sync (now : ℚ)

namespace WatchedRow

variable (casing : Casing)

/-- The question is not known yet. -/
def IsFresh (watched : WatchedRow) (id : JsString) : Prop :=
  isQuestionId id = true ∧ id ∉ watched.row.waitForInput.getD [] ∧
    id ∉ watched.row.openQuestions.getD [] ∧ id ∉ watched.unresolved ∧ id ∉ watched.resolved

instance (watched : WatchedRow) (id : JsString) : Decidable (watched.IsFresh id) :=
  inferInstanceAs (Decidable (_ ∧ _))

def step (watched : WatchedRow) : QuestionStep → Option WatchedRow
  | .add notificationId blocking now =>
    if watched.now ≤ now ∧ watched.IsFresh (casing.lowered notificationId) then
      let (row, recorded) := casing.addLeaderQuestionToBoardRow watched.row notificationId blocking now
      some { watched with
        row, now
        unresolved :=
          if recorded then casing.lowered notificationId :: watched.unresolved else watched.unresolved }
    else none
  | .resolve notificationId now =>
    if watched.now ≤ now then
      let id := casing.lowered notificationId
      some {
        row := (casing.removeResolvedQuestionFromBoardRow watched.row notificationId now).1
        now
        unresolved := watched.unresolved.filter (· ≠ id)
        resolved := id :: watched.resolved }
    else none
  | .sync now =>
    if watched.now ≤ now then
      some { watched with row := (casing.syncAutomaticUserCheckpoint watched.row now).1, now }
    else none

def machine (start : WatchedRow) : Machine WatchedRow QuestionStep where
  start
  step := step casing

end WatchedRow

/-- A row with its plan, clock and links in order, whose questions are where they belong, and whose plan
has grown from these stages. -/
structure WatchedRow.Sound (casing : Casing) (first : List Stage) (watched : WatchedRow) : Prop where
  keeps : ∃ journey index phase, casing.Keeps watched.row journey index phase watched.now ∧
    Inserted IsPause first (stages journey)
  questions : Questions watched.row watched.unresolved watched.resolved

namespace WatchedRow

variable {casing : Casing} {first : List Stage} {watched next : WatchedRow}

/-- A row whose links may have changed is in order once its phase is in line with them. -/
theorem keeps_synced (capitals : casing.KeepsCapitals) (sound : Sound casing first watched) (row : BoardRow)
    {later : ℚ} (order : watched.now ≤ later) (journeys : row.journey = watched.row.journey)
    (statuses : row.status = watched.row.status) (remembered : row.autoCheckpoint = watched.row.autoCheckpoint) :
    (∃ journey index phase,
      casing.Keeps (casing.syncAutomaticUserCheckpoint row later).1 journey index phase later ∧
        Inserted IsPause first (stages journey)) ∧
    (casing.syncAutomaticUserCheckpoint row later).1.waitForInput = row.waitForInput ∧
    (casing.syncAutomaticUserCheckpoint row later).1.openQuestions = row.openQuestions := by
  obtain ⟨journey, index, phase, keeps, grown⟩ := sound.keeps
  have remembers : Casing.Remembers row journey index := by
    intro previous known
    rw [remembered] at known
    exact keeps.remembers previous known
  obtain ⟨⟨journey', index', phase', kept, inserted⟩, links, questions⟩ :=
    Casing.keeps_sync capitals (keeps.toPaces.congr journeys statuses) order remembers
  exact ⟨⟨journey', index', phase', kept, grown.trans inserted⟩, links, questions⟩

theorem Questions.congr {row row' : BoardRow} {unresolved resolved : List JsString}
    (questions : Questions row unresolved resolved) (links : row'.waitForInput = row.waitForInput)
    (others : row'.openQuestions = row.openQuestions) : Questions row' unresolved resolved where
  valid := by rw [links, others]; exact questions.valid
  apart := by rw [links, others]; exact questions.apart
  listed := by rw [links, others]; exact questions.listed
  gone := by rw [links, others]; exact questions.gone

theorem keeps_of_open (sound : Sound casing first watched) {row : BoardRow} {later : ℚ}
    (order : watched.now ≤ later) (journeys : row.journey = watched.row.journey)
    (statuses : row.status = watched.row.status) (links : row.waitForInput = watched.row.waitForInput)
    (remembered : row.autoCheckpoint = watched.row.autoCheckpoint) :
    ∃ journey index phase, casing.Keeps row journey index phase later ∧
      Inserted IsPause first (stages journey) := by
  obtain ⟨journey, index, phase, keeps, grown⟩ := sound.keeps
  refine ⟨journey, index, phase, ⟨(keeps.toPaces.congr journeys statuses).mono order, ⟨?_, ?_⟩, ?_⟩, grown⟩
  · rw [links]
    exact keeps.working
  · unfold BoardRow.isAutomaticCheckpointCurrent
    rw [links, remembered, journeys]
    exact keeps.waiting
  · intro previous known
    rw [remembered] at known
    exact keeps.remembers previous known

theorem Sound.add (capitals : casing.KeepsCapitals) (sound : Sound casing first watched)
    {notificationId : JsString} {blocking : Bool} {later : ℚ} (order : watched.now ≤ later)
    (fresh : watched.IsFresh (casing.lowered notificationId)) :
    let added := casing.addLeaderQuestionToBoardRow watched.row notificationId blocking later
    Sound casing first { watched with
      row := added.1
      now := later
      unresolved := if added.2 then casing.lowered notificationId :: watched.unresolved
        else watched.unresolved } := by
  obtain ⟨valid, unlinked, -, -, unsettled⟩ := fresh
  unfold Casing.addLeaderQuestionToBoardRow
  dsimp only
  split
  · exact ⟨keeps_of_open sound order rfl rfl rfl rfl, sound.questions⟩
  · split
    · obtain ⟨keeps, links, others⟩ := keeps_synced capitals sound { watched.row with
        waitForInput := some (casing.addId watched.row.waitForInput notificationId)
        openQuestions := casing.removeIds watched.row.openQuestions [notificationId] }
        order rfl rfl rfl
      exact ⟨keeps, sound.questions.link valid unsettled links others⟩
    · exact ⟨keeps_of_open sound order rfl rfl rfl rfl,
        sound.questions.leaveOpen valid unsettled unlinked rfl rfl⟩

theorem Sound.resolve (capitals : casing.KeepsCapitals) (sound : Sound casing first watched)
    (notificationId : JsString) {later : ℚ} (order : watched.now ≤ later) :
    let id := casing.lowered notificationId
    Sound casing first {
      row := (casing.removeResolvedQuestionFromBoardRow watched.row notificationId later).1
      now := later
      unresolved := watched.unresolved.filter (· ≠ id)
      resolved := id :: watched.resolved } := by
  intro id
  have own : casing.lowered id = id := casing.lowered_lowered notificationId
  unfold Casing.removeResolvedQuestionFromBoardRow
  dsimp only
  split
  · next unknown =>
    refine ⟨keeps_of_open sound order rfl rfl rfl rfl, sound.questions.resolve ?_ ?_⟩
    · intro other
      exact ⟨fun link => ⟨link, fun same => unknown.1 (by rw [same] at link; exact link)⟩, fun both => both.1⟩
    · intro other
      exact ⟨fun listed => ⟨listed, fun same => unknown.2 (by rw [same] at listed; exact listed)⟩,
        fun both => both.1⟩
  · obtain ⟨keeps, links, others⟩ := keeps_synced capitals sound { watched.row with
      waitForInput := casing.removeIds watched.row.waitForInput [id]
      openQuestions := casing.removeIds watched.row.openQuestions [id] }
      order rfl rfl rfl
    refine ⟨keeps, sound.questions.resolve ?_ ?_⟩
    · intro other
      rw [links, casing.mem_removeIds, own]
      exact ⟨fun both => both.1, fun both => ⟨both, sound.questions.valid other (.inl both.1)⟩⟩
    · intro other
      rw [others, casing.mem_removeIds, own]
      exact ⟨fun both => both.1, fun both => ⟨both, sound.questions.valid other (.inr both.1)⟩⟩

/-- What one step preserves. -/
theorem Sound.step (capitals : casing.KeepsCapitals) (sound : Sound casing first watched)
    {action : QuestionStep} (taken : watched.step casing action = some next) : Sound casing first next := by
  cases action with
  | add notificationId blocking later =>
    simp only [WatchedRow.step] at taken
    split at taken
    · next admitted =>
      cases taken
      exact sound.add capitals admitted.1 admitted.2
    · cases taken
  | resolve notificationId later =>
    simp only [WatchedRow.step] at taken
    split at taken
    · next order =>
      cases taken
      exact sound.resolve capitals notificationId order
    · cases taken
  | sync later =>
    simp only [WatchedRow.step] at taken
    split at taken
    · next order =>
      cases taken
      obtain ⟨keeps, links, others⟩ := keeps_synced capitals sound watched.row order rfl rfl rfl
      exact ⟨keeps, Questions.congr sound.questions links others⟩
    · cases taken

end WatchedRow

/-- A row with an active plan whose status names the phase that it is in, for which alone the clock
runs. -/
structure Casing.IsTimed (casing : Casing) (row : BoardRow) (journey : QuestJourneyPlanState) (index : Nat)
    (phase : JsString) : Prop where
  planned : row.journey = some journey
  mode : journey.mode ≠ some (js "proposed")
  active : journey.activePhaseIndex = some (index : Int)
  there : journey.phaseIds[index]? = some phase
  status : casing.statusPhaseId row.status = some phase
  runs : ∃ timing, valueAt journey.phaseTimings index = some timing ∧ IsOpen timing
  only : ∀ other timing, valueAt journey.phaseTimings other = some timing → IsOpen timing → other = index

/-- Such a row before any of the steps: its plan is one that was read, with no start later than now, and
what is asked of the row holds of it. -/
structure WatchedRow.Starts (casing : Casing) (start : WatchedRow) (journey : QuestJourneyPlanState)
    (index : Nat) (phase : JsString) : Prop extends casing.IsTimed start.row journey index phase where
  asRead : casing.normalizeQuestJourneyPlan journey start.row.status = journey
  started : ∀ other timing startedAt, valueAt journey.phaseTimings other = some timing →
    timing.startedAt = some startedAt → startedAt ≤ start.now
  rest : Casing.AtRest start.row journey index phase
  remembers : Casing.Remembers start.row journey index
  valid : ∀ id, id ∈ start.row.waitForInput.getD [] ∨ id ∈ start.row.openQuestions.getD [] →
    isQuestionId id = true
  apart : ∀ id ∈ start.row.waitForInput.getD [], id ∉ start.row.openQuestions.getD []
  unresolved : start.unresolved = start.row.waitForInput.getD [] ++ start.row.openQuestions.getD []
  resolved : start.resolved = []

namespace WatchedRow.Starts

variable {casing : Casing} {start : WatchedRow} {journey : QuestJourneyPlanState} {index : Nat}
  {phase : JsString}

theorem reads (starts : start.Starts casing journey index phase) : casing.Reads journey := by
  have ids : casing.nonEmptyPhaseIds journey start.row.status = journey.phaseIds :=
    congrArg QuestJourneyPlanState.phaseIds starts.asRead
  have notes : normalizeQuestJourneyPhaseNotes journey.phaseNotes journey.phaseIds.length =
      journey.phaseNotes := by
    have same := congrArg QuestJourneyPlanState.phaseNotes starts.asRead
    rwa [← ids]
  have skipReasons : normalizeQuestJourneyPhaseNotes journey.phaseSkipReasons journey.phaseIds.length =
      journey.phaseSkipReasons := by
    have same := congrArg QuestJourneyPlanState.phaseSkipReasons starts.asRead
    rwa [← ids]
  have timings : normalizeQuestJourneyPhaseTimings journey.phaseTimings journey.phaseIds.length =
      journey.phaseTimings := by
    have same := congrArg QuestJourneyPlanState.phaseTimings starts.asRead
    rwa [← ids]
  refine ⟨?_, ?_, ?_, ?_, ?_⟩
  · have mode : some (casing.planMode journey) = journey.mode :=
      congrArg QuestJourneyPlanState.mode starts.asRead
    refine (casing.planMode_cases journey).resolve_right fun proposed => ?_
    rw [proposed] at mode
    exact starts.mode mode.symm
  · intro id inside
    rw [← ids] at inside
    exact casing.nonEmptyPhaseIds_canonical journey start.row.status inside
  · rw [← notes]
    exact readAsIs_normalizePositions readNote_stable _
  · rw [← skipReasons]
    exact readAsIs_normalizePositions readNote_stable _
  · rw [← timings]
    exact readAsIs_normalizePositions readTiming_stable _

/-- A plan that is read at a User Checkpoint has no Work that is the only one. -/
theorem others (starts : start.Starts casing journey index phase) (checkpoint : phase = js "user-checkpoint") :
    getUniqueQuestJourneyPhaseIndex journey.phaseIds (some (js "work")) = none := by
  have ids : casing.nonEmptyPhaseIds journey start.row.status = journey.phaseIds :=
    congrArg QuestJourneyPlanState.phaseIds starts.asRead
  have reads := starts.reads
  have active : casing.normalizeQuestJourneyActivePhaseIndex journey journey.phaseIds start.row.status =
      some index := by
    have same : (casing.planActiveIndex journey start.row.status).map (fun index : Nat => (index : Int)) =
        some (index : Int) :=
      (congrArg QuestJourneyPlanState.activePhaseIndex starts.asRead).trans starts.active
    unfold Casing.planActiveIndex at same
    rw [reads.mode, if_neg (by decide), ids] at same
    obtain ⟨found, known, equal⟩ := Option.map_eq_some_iff.mp same
    rw [known, Int.ofNat_inj.mp equal]
  have away : ∀ place, some place = some index → journey.phaseIds[place]? ≠ some (js "work") := by
    intro place same
    cases same
    rw [starts.there, checkpoint]
    decide
  have status := starts.status
  rw [checkpoint] at status
  unfold Casing.normalizeQuestJourneyActivePhaseIndex at active
  rw [casing.normalizedStatus_of_checkpoint status, if_pos rfl] at active
  cases unique : getUniqueQuestJourneyPhaseIndex journey.phaseIds (some (js "work")) with
  | none => rfl
  | some work =>
    rw [unique] at active
    have found := getElem?_of_getUnique unique
    split at active
    · exact absurd found (away work active)
    · cases explicit : (journey.explicitIndex journey.phaseIds).filter
          fun index => journey.phaseIds[index]? = some (js "work") with
      | some place =>
        rw [explicit] at active
        have there := (Option.filter_eq_some_iff.mp explicit).2
        exact absurd (of_decide_eq_true there) (away place active)
      | none =>
        rw [explicit] at active
        exact absurd found (away work active)

theorem sound (starts : start.Starts casing journey index phase) :
    WatchedRow.Sound casing (stages journey) start where
  keeps := by
    refine ⟨journey, index, phase, ⟨⟨⟨starts.reads, starts.planned, starts.active, starts.there,
      starts.status, starts.others⟩, ⟨starts.runs, starts.only, starts.started⟩⟩, starts.rest, starts.remembers⟩, .refl _⟩
  questions := by
    refine ⟨starts.valid, starts.apart, ?_, ?_⟩
    · intro id inside
      rw [starts.unresolved] at inside
      exact List.mem_append.mp inside
    · intro id inside
      rw [starts.resolved] at inside
      cases inside

end WatchedRow.Starts

/-- In every run, the row is in Work without a question that blocks it and in an added checkpoint before
Work only with one; each question stands where it belongs; the plan has only grown, by checkpoints and
Work; and the clock runs for the phase that the row is in, and for no other. -/
theorem checkpoints_keep_plan_and_clock {casing : Casing} (capitals : casing.KeepsCapitals)
    {start watched : WatchedRow} {first : QuestJourneyPlanState} {index : Nat} {phase : JsString}
    (starts : start.Starts casing first index phase)
    (reached : (WatchedRow.machine casing start).Reachable watched) :
    (∃ journey index phase, watched.row.journey = some journey ∧
      journey.activePhaseIndex = some ((index : Nat) : Int) ∧ journey.phaseIds[index]? = some phase ∧
      (phase = js "work" → watched.row.waitForInput.getD [] = []) ∧
      (phase = js "user-checkpoint" → watched.row.isAutomaticCheckpointCurrent = true →
        journey.phaseIds[index + 1]? = some (js "work") → watched.row.waitForInput.getD [] ≠ []) ∧
      Inserted IsPause (stages first) (stages journey) ∧
      (∃ timing, valueAt journey.phaseTimings index = some timing ∧ IsOpen timing) ∧
      ∀ other timing, valueAt journey.phaseTimings other = some timing → IsOpen timing → other = index) ∧
    (∀ id ∈ watched.unresolved,
      (id ∈ watched.row.waitForInput.getD [] ∧ id ∉ watched.row.openQuestions.getD []) ∨
        (id ∉ watched.row.waitForInput.getD [] ∧ id ∈ watched.row.openQuestions.getD [])) ∧
    ∀ id ∈ watched.resolved,
      id ∉ watched.row.waitForInput.getD [] ∧ id ∉ watched.row.openQuestions.getD [] := by
  have sound : WatchedRow.Sound casing (stages first) watched :=
    reached.invariant starts.sound fun _ sound _ taken => sound.step capitals taken
  obtain ⟨journey, index, phase, keeps, grown⟩ := sound.keeps
  refine ⟨⟨journey, index, phase, keeps.planned, keeps.active, keeps.there, keeps.working, keeps.waiting,
    grown, keeps.clock.runs, keeps.clock.only⟩, ?_, sound.questions.gone⟩
  intro id inside
  rcases sound.questions.listed id inside with link | other
  · exact .inl ⟨link, sound.questions.apart id link⟩
  · exact .inr ⟨fun link => sound.questions.apart id link other, other⟩

theorem Casing.keepsCapitals_ascii : Casing.ascii.KeepsCapitals := by
  intro text capitals
  refine (List.map_congr_left fun c inside => ?_).trans (List.map_id text)
  have small : ¬ (97 ≤ c ∧ c ≤ 122) := by
    rintro ⟨low, -⟩
    rw [UInt16.le_iff_toNat_le] at low
    have low : 97 ≤ c.toNat := low
    rcases capitals c inside with ⟨-, high⟩ | rfl
    · rw [UInt16.le_iff_toNat_le] at high
      have high : c.toNat ≤ 90 := high
      omega
    · exact absurd low (by decide)
  simp only [Bool.and_eq_true, decide_eq_true_eq, id_eq]
  rw [if_neg small]

/-- A plan of Work and Memory that was read at Work, which has gone on since time 1. -/
def workPlan : QuestJourneyPlanState :=
  Casing.ascii.normalizeQuestJourneyPlan
    { phaseIds := [js "work", js "memory"]
      activePhaseIndex := some 0
      phaseTimings := some ((∅ : Record _).set (decimal 0) (some ⟨some 1, none⟩)) } (some (js "WORKING"))

def workRow : WatchedRow where
  row := { status := some (js "WORKING"), journey := some workPlan }
  now := 1
  unresolved := []
  resolved := []

theorem timings_workPlan (other : Nat) :
    valueAt workPlan.phaseTimings other = if other = 0 then some ⟨some 1, none⟩ else none := by
  have timings : workPlan.phaseTimings =
      some ((∅ : Record _).set (decimal 0) (some ⟨some 1, none⟩)) := by decide +kernel
  rw [timings, valueAt_set]
  rfl

theorem isTimed_workPlan (links : Option (List JsString)) :
    Casing.ascii.IsTimed { workRow.row with waitForInput := links } workPlan 0 (js "work") where
  planned := rfl
  mode := by decide +kernel
  active := by decide +kernel
  there := by decide +kernel
  status := by
    have working : Casing.ascii.statusPhaseId (some (js "WORKING")) = some (js "work") := by decide +kernel
    exact working
  runs := ⟨_, (timings_workPlan 0).trans (if_pos rfl), rfl, rfl⟩
  only := by
    intro other timing there _
    by_contra away
    rw [timings_workPlan, if_neg away] at there
    cases there

theorem starts_workRow : workRow.Starts Casing.ascii workPlan 0 (js "work") where
  toIsTimed := isTimed_workPlan none
  asRead := Casing.ascii.normalizeQuestJourneyPlan_normalize _ _ (by decide +kernel)
  started := by
    intro other timing startedAt there start
    rw [timings_workPlan] at there
    split at there
    · cases there
      exact le_of_eq (Option.some.inj start).symm
    · cases there
  rest := ⟨fun _ => rfl, fun checkpoint => absurd checkpoint (by decide)⟩
  remembers := by
    intro previous remembered
    cases remembered
  valid := by
    rintro id (link | other)
    · cases link
    · cases other
  apart := by
    intro id link
    cases link
  unresolved := rfl
  resolved := rfl

/-- The row once a question blocks it. -/
def askedRow : WatchedRow :=
  (workRow.step Casing.ascii (.add (js "n-1") true 2)).getD workRow

theorem reachable_askedRow : (WatchedRow.machine Casing.ascii workRow).Reachable askedRow := by
  have admitted : workRow.now ≤ 2 ∧ workRow.IsFresh (Casing.ascii.lowered (js "n-1")) := by
    decide +kernel
  refine .step (l := .add (js "n-1") true 2) .start trivial ?_
  show workRow.step Casing.ascii (.add (js "n-1") true 2) = some askedRow
  unfold askedRow
  simp only [WatchedRow.step]
  rw [if_pos admitted, Option.getD_some]

theorem checkpoints_keep_plan_and_clock_asked :
    (∀ id ∈ askedRow.unresolved,
      (id ∈ askedRow.row.waitForInput.getD [] ∧ id ∉ askedRow.row.openQuestions.getD []) ∨
        (id ∉ askedRow.row.waitForInput.getD [] ∧ id ∈ askedRow.row.openQuestions.getD [])) ∧
    ∀ id ∈ askedRow.resolved,
      id ∉ askedRow.row.waitForInput.getD [] ∧ id ∉ askedRow.row.openQuestions.getD [] :=
  (checkpoints_keep_plan_and_clock Casing.keepsCapitals_ascii starts_workRow reachable_askedRow).2

/-- Where a row is, with its links and the timings at two positions. -/
def glance (row : BoardRow) (index other : Nat) :
    Option Int × List JsString × Option QuestJourneyPhaseTiming × Option QuestJourneyPhaseTiming :=
  (row.journey.bind (·.activePhaseIndex), row.waitForInput.getD [],
    valueAt (row.journey.bind (·.phaseTimings)) index, valueAt (row.journey.bind (·.phaseTimings)) other)

/-- The checkpoint that the row has come from, before the only Work of its plan. -/
def resumedRow : BoardRow where
  status := some (js "WORKING")
  journey := some {
    workPlan with
    phaseIds := [js "user-checkpoint", js "work"]
    activePhaseIndex := some 1
    phaseTimings := some (((∅ : Record _).set (decimal 0) (some ⟨some 1, some 2⟩)).set (decimal 1)
      (some ⟨some 2, none⟩)) }
  autoCheckpoint := some { checkpointIndex := 0, resumedAt := some 2 }

/-- A question that does not block leaves a row in Work that one blocks already; a clock that is set back
runs on for Work as well; and where the checkpoint before the only Work of a plan is reopened, the row
stays at that Work, for which no clock runs. -/
theorem rows_out_of_line :
    (∃ row, Casing.ascii.IsTimed row workPlan 0 (js "work") ∧
      glance (Casing.ascii.addLeaderQuestionToBoardRow row (js "n-2") false 2).1 0 1 =
        (some 0, [js "n-1"], some ⟨some 1, none⟩, none)) ∧
    (∃ row, Casing.ascii.IsTimed row workPlan 0 (js "work") ∧
      glance (Casing.ascii.addLeaderQuestionToBoardRow row (js "n-1") true (1 / 2)).1 0 1 =
        (some 1, [js "n-1"], some ⟨some 1, none⟩, some ⟨some (1 / 2), none⟩)) ∧
    glance (Casing.ascii.addLeaderQuestionToBoardRow resumedRow (js "n-1") true 3).1 0 1 =
      (some 1, [js "n-1"], some ⟨some 1, none⟩, none) := by
  refine ⟨⟨_, isTimed_workPlan (some [js "n-1"]), ?_⟩, ⟨_, isTimed_workPlan none, ?_⟩, ?_⟩
  · decide +kernel
  · decide +kernel
  · decide +kernel

end Takode.Journeys
