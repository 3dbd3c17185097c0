import Takode.Journeys.Plans

/-!
# Plans that are read again

When a plan that was read is read as itself, and when it is at a phase that is known.
-/

namespace Takode.Journeys

open JsString

/-! ## Positions of phases -/

theorem mem_getQuestJourneyPhaseIndices {phaseIds : List JsString} {target : JsString} {index : Nat} :
    index ∈ getQuestJourneyPhaseIndices phaseIds target ↔ phaseIds[index]? = some target := by
  unfold getQuestJourneyPhaseIndices
  rw [List.mem_filter, List.mem_range, decide_eq_true_eq]
  refine ⟨fun both => both.2, fun found => ⟨?_, found⟩⟩
  exact (List.getElem?_eq_some_iff.mp found).1

theorem getUnique_eq_some {phaseIds : List JsString} {target : JsString} {index : Nat} :
    getUniqueQuestJourneyPhaseIndex phaseIds (some target) = some index ↔
      getQuestJourneyPhaseIndices phaseIds target = [index] := by
  unfold getUniqueQuestJourneyPhaseIndex
  rw [Option.bind_some]
  split
  · rename_i other single
    rw [single]
    simp
  · rename_i several
    exact ⟨fun none => (by cases none), fun single => absurd single (several index)⟩

theorem getElem?_of_getUnique {phaseIds : List JsString} {target : JsString} {index : Nat}
    (unique : getUniqueQuestJourneyPhaseIndex phaseIds (some target) = some index) :
    phaseIds[index]? = some target := by
  rw [← mem_getQuestJourneyPhaseIndices, getUnique_eq_some.mp unique]
  exact List.mem_cons_self

theorem eq_of_getUnique {phaseIds : List JsString} {target : JsString} {index index' : Nat}
    (unique : getUniqueQuestJourneyPhaseIndex phaseIds (some target) = some index)
    (found : phaseIds[index']? = some target) : index' = index := by
  rw [← mem_getQuestJourneyPhaseIndices, getUnique_eq_some.mp unique] at found
  exact List.mem_singleton.mp found

theorem QuestJourneyPlanState.explicitIndex_lt {plan : QuestJourneyPlanState} {phaseIds : List JsString}
    {index : Nat} (found : plan.explicitIndex phaseIds = some index) : index < phaseIds.length := by
  unfold explicitIndex at found
  obtain ⟨number, -, same⟩ := Option.bind_eq_some_iff.mp found
  split at same
  · cases same
    omega
  · cases same

/-! ## Notes, timings and presentations -/

theorem readNote_stable (note note' : Option JsString) (read : readNote note = some note') :
    readNote note' = some note' := by
  unfold readNote at read
  obtain ⟨text, found, rfl⟩ := Option.map_eq_some_iff.mp read
  obtain ⟨raw, -, trimmed⟩ := Option.bind_eq_some_iff.mp found
  unfold readNote
  rw [Option.bind_some, nonempty_of_nonempty trimmed, Option.map_some]

theorem readTiming_stable (timing timing' : Option QuestJourneyPhaseTiming)
    (read : readTiming timing = some timing') : readTiming timing' = some timing' := by
  unfold readTiming at read
  obtain ⟨raw, -, found⟩ := Option.bind_eq_some_iff.mp read
  obtain ⟨startedAt, start, rfl⟩ := Option.map_eq_some_iff.mp found
  have positive : 0 < startedAt := of_decide_eq_true (Option.filter_eq_some_iff.mp start).2
  unfold readTiming
  rw [Option.bind_some]
  have started : normalizeQuestJourneyTimestamp (some startedAt) = some startedAt := by
    unfold normalizeQuestJourneyTimestamp
    rw [Option.filter_some, if_pos (by simpa using positive)]
  dsimp only
  rw [started, Option.map_some]
  cases ended : (normalizeQuestJourneyTimestamp raw.endedAt).filter fun endedAt => startedAt ≤ endedAt with
  | none => rfl
  | some endedAt =>
    obtain ⟨endedAt', order⟩ := Option.filter_eq_some_iff.mp ended
    have positive' : 0 < endedAt := of_decide_eq_true (Option.filter_eq_some_iff.mp endedAt').2
    have kept : normalizeQuestJourneyTimestamp (some endedAt) = some endedAt := by
      unfold normalizeQuestJourneyTimestamp
      rw [Option.filter_some, if_pos (by simpa using positive')]
    rw [kept, Option.filter_some, if_pos order]

theorem bind_normalizePositions_idempotent {α : Type} {parse : α → Option α} {count : Nat}
    (stable : ∀ value value', parse value = some value' → parse value' = some value')
    (raw : Option (Record α)) :
    ((raw.bind fun raw => raw.normalizePositions parse count).bind fun raw =>
      raw.normalizePositions parse count) = raw.bind fun raw => raw.normalizePositions parse count := by
  cases normal : raw.bind fun raw => raw.normalizePositions parse count with
  | none => rfl
  | some r =>
    obtain ⟨raw', -, normal'⟩ := Option.bind_eq_some_iff.mp normal
    exact Record.normalizePositions_idempotent stable normal'

theorem filter_idempotent {α : Type} (p : α → Bool) (value : Option α) :
    (value.filter p).filter p = value.filter p := by
  simp only [Option.filter_filter, Bool.and_self]

theorem bind_nonempty_idempotent (text : Option JsString) :
    (text.bind nonempty).bind nonempty = text.bind nonempty := by
  cases found : text.bind nonempty with
  | none => rfl
  | some kept =>
    obtain ⟨raw, -, trimmed⟩ := Option.bind_eq_some_iff.mp found
    exact nonempty_of_nonempty trimmed

theorem normalizePresentation_idempotent (presentation : Option QuestJourneyProposalPresentation) :
    normalizeQuestJourneyProposalPresentation (normalizeQuestJourneyProposalPresentation presentation) =
      normalizeQuestJourneyProposalPresentation presentation := by
  cases presentation with
  | none => rfl
  | some presentation =>
    unfold normalizeQuestJourneyProposalPresentation
    simp only [Option.map_some, bind_nonempty_idempotent, Option.filter_filter, Bool.and_self]
    congr 2
    by_cases presented : presentation.state = some (js "presented")
    · rw [if_pos presented, if_pos rfl]
    · rw [if_neg presented, if_neg (by decide)]

namespace Casing

variable (casing : Casing) (plan : QuestJourneyPlanState) (status : Option JsString)

/-! ## Phases and modes -/

theorem nonEmptyPhaseIds_canonical {id : JsString} (listed : id ∈ casing.nonEmptyPhaseIds plan status) :
    casing.canonicalizeKnownQuestJourneyPhaseId id = some id := by
  unfold nonEmptyPhaseIds at listed
  dsimp only at listed
  split at listed
  · exact casing.canonical_of_mem_normalizeKnown listed
  · split at listed
    · have known : ∀ id ∈ [js "alignment", js "work", js "memory"], id ∈ knownPhaseIds :=
        forall_mem_of_all (by decide)
      exact casing.canonicalizeKnown_of_known (known id listed)
    · have known : ∀ id ∈ DEFAULT_QUEST_JOURNEY_PHASE_IDS, id ∈ knownPhaseIds :=
        forall_mem_of_all (by decide)
      exact casing.canonicalizeKnown_of_known (known id listed)

theorem nonEmptyPhaseIds_ne_nil : casing.nonEmptyPhaseIds plan status ≠ [] := by
  unfold nonEmptyPhaseIds
  dsimp only
  split
  · assumption
  · split
    · exact List.cons_ne_nil _ _
    · exact List.cons_ne_nil _ _

theorem nonEmptyPhaseIds_normalize :
    casing.nonEmptyPhaseIds (casing.normalizeQuestJourneyPlan plan status) status =
      casing.nonEmptyPhaseIds plan status := by
  have same : casing.normalizeKnownQuestJourneyPhaseIds
      (casing.normalizeQuestJourneyPlan plan status).phaseIds = casing.nonEmptyPhaseIds plan status :=
    casing.normalizeKnown_of_canonical fun id listed => casing.nonEmptyPhaseIds_canonical plan status listed
  conv_lhs => unfold nonEmptyPhaseIds
  dsimp only
  rw [same, if_pos (casing.nonEmptyPhaseIds_ne_nil plan status)]

theorem planMode_cases : casing.planMode plan = js "active" ∨ casing.planMode plan = js "proposed" := by
  unfold planMode canonicalizeQuestJourneyLifecycleMode
  cases plan.mode with
  | none => exact .inl rfl
  | some mode =>
    rw [Option.bind_some]
    dsimp only
    split
    · assumption
    · exact .inl rfl

theorem planMode_normalize :
    casing.planMode (casing.normalizeQuestJourneyPlan plan status) = casing.planMode plan := by
  have plain : casing.lowered (casing.planMode plan) = casing.planMode plan := by
    rcases casing.planMode_cases plan with mode | mode
    · rw [mode]
      exact casing.lowered_of_plain (by decide) (forall_mem_of_all (by decide))
    · rw [mode]
      exact casing.lowered_of_plain (by decide) (forall_mem_of_all (by decide))
  have mode : (casing.normalizeQuestJourneyPlan plan status).mode = some (casing.planMode plan) := rfl
  conv_lhs => unfold planMode canonicalizeQuestJourneyLifecycleMode
  rw [mode, Option.bind_some]
  dsimp only
  rw [plain, if_pos (casing.planMode_cases plan)]
  rfl

/-! ## The active position -/

theorem statusPhaseId_of_state {state : JsString} (listed : state ∈ QUEST_JOURNEY_STATES)
    (named : casing.normalizedStatus status = state) :
    casing.statusPhaseId status =
      (KNOWN_QUEST_JOURNEY_PHASES.find? fun phase => phase.boardState = state).map (·.id) := by
  have filled : ∀ state ∈ QUEST_JOURNEY_STATES, state ≠ [] := forall_mem_of_all (by decide)
  cases status with
  | none => exact absurd named.symm (filled state listed)
  | some value =>
    have uppered : casing.uppered value = state := named
    have canonical : casing.canonicalizeKnownQuestJourneyState (some value) = some state := by
      unfold canonicalizeKnownQuestJourneyState
      rw [Option.bind_some]
      dsimp only
      rw [uppered, if_neg (filled state listed), if_pos (.inr (.inl listed))]
    unfold statusPhaseId getQuestJourneyPhaseForState
    rw [canonical, Option.bind_some]
    cases found : KNOWN_QUEST_JOURNEY_PHASES.find? fun phase => phase.boardState = state with
    | none => rfl
    | some phase =>
      exact casing.getQuestJourneyPhase_of_known
        (List.mem_map.mpr ⟨phase, List.mem_of_find?_eq_some found, rfl⟩)

theorem statusPhaseId_of_checkpoint
    (checkpoint : casing.normalizedStatus status = js "USER_CHECKPOINTING") :
    casing.statusPhaseId status = some (js "user-checkpoint") :=
  (casing.statusPhaseId_of_state status (by decide) checkpoint).trans (by decide)

theorem statusPhaseId_known {id : JsString} (named : casing.statusPhaseId status = some id) :
    id ∈ knownPhaseIds := by
  obtain ⟨phase, found, rfl⟩ := Option.map_eq_some_iff.mp named
  obtain ⟨canonical, -, there⟩ := Option.bind_eq_some_iff.mp found
  exact casing.known_of_getQuestJourneyPhase there

theorem plannedCurrentPhaseId_known {id : JsString} (named : casing.plannedCurrentPhaseId plan = some id) :
    id ∈ knownPhaseIds := by
  obtain ⟨phase, found, rfl⟩ := Option.map_eq_some_iff.mp named
  exact casing.known_of_getQuestJourneyPhase found

theorem indexOfStatus_of_phase {phaseIds : List JsString} {target : JsString}
    (named : casing.statusPhaseId status = some target) :
    casing.indexOfStatus plan phaseIds status =
      ((plan.explicitIndex phaseIds).filter fun index => phaseIds[index]? = some target).or
        (getUniqueQuestJourneyPhaseIndex phaseIds (some target)) := by
  unfold indexOfStatus
  rw [named]
  dsimp only
  cases (plan.explicitIndex phaseIds).filter fun index => phaseIds[index]? = some target with
  | some index => rfl
  | none =>
    dsimp only
    split
    · rename_i planned
      rw [planned]
      rfl
    · rfl

theorem indexOfStatus_of_none {phaseIds : List JsString}
    (unnamed : casing.statusPhaseId status = none) :
    casing.indexOfStatus plan phaseIds status =
      if casing.normalizedStatus status = js "QUEUED" ∨
          casing.normalizedStatus status = js "PROPOSED" then none
      else (plan.explicitIndex phaseIds).or
        (getUniqueQuestJourneyPhaseIndex phaseIds (casing.plannedCurrentPhaseId plan)) := by
  unfold indexOfStatus
  rw [unnamed]

theorem indexOfStatus_spec {phaseIds : List JsString} {index : Nat}
    (found : casing.indexOfStatus plan phaseIds status = some index) :
    (∃ target ∈ knownPhaseIds, phaseIds[index]? = some target ∧
      ∀ named, casing.statusPhaseId status = some named → target = named) ∨
    casing.statusPhaseId status = none ∧ casing.normalizedStatus status ≠ js "QUEUED" ∧
      casing.normalizedStatus status ≠ js "PROPOSED" ∧ plan.explicitIndex phaseIds = some index := by
  cases named : casing.statusPhaseId status with
  | some target =>
    rw [casing.indexOfStatus_of_phase plan status named, Option.or_eq_some_iff] at found
    refine .inl ⟨target, casing.statusPhaseId_known status named, ?_, fun other same => ?_⟩
    · rcases found with explicit | ⟨-, unique⟩
      · exact of_decide_eq_true (Option.filter_eq_some_iff.mp explicit).2
      · exact getElem?_of_getUnique unique
    · exact Option.some.inj same
  | none =>
    rw [casing.indexOfStatus_of_none plan status named] at found
    split at found
    · cases found
    · rename_i plain
      rw [Option.or_eq_some_iff] at found
      rcases found with explicit | ⟨-, unique⟩
      · exact .inr ⟨rfl, fun queued => plain (.inl queued), fun proposed => plain (.inr proposed),
          explicit⟩
      · cases planned : casing.plannedCurrentPhaseId plan with
        | none =>
          rw [planned] at unique
          cases unique
        | some target =>
          rw [planned] at unique
          exact .inl ⟨target, casing.plannedCurrentPhaseId_known plan planned,
            getElem?_of_getUnique unique, fun other same => by cases same⟩

theorem indexOfStatus_stable {plan' : QuestJourneyPlanState} {phaseIds : List JsString}
    (explicit : plan'.explicitIndex phaseIds = casing.indexOfStatus plan phaseIds status)
    (planned : casing.indexOfStatus plan phaseIds status = none →
      casing.plannedCurrentPhaseId plan' = none) :
    casing.indexOfStatus plan' phaseIds status = casing.indexOfStatus plan phaseIds status := by
  cases named : casing.statusPhaseId status with
  | some target =>
    rw [casing.indexOfStatus_of_phase plan' status named, explicit]
    have own : casing.indexOfStatus plan phaseIds status = _ :=
      casing.indexOfStatus_of_phase plan status named
    cases found : casing.indexOfStatus plan phaseIds status with
    | none =>
      rw [found] at own
      have unique := (Option.or_eq_none_iff.mp own.symm).2
      rw [unique]
      rfl
    | some index =>
      have there : phaseIds[index]? = some target := by
        rcases casing.indexOfStatus_spec plan status found with ⟨target', -, there, only⟩ | ⟨none, -⟩
        · rw [there, only target named]
        · rw [named] at none
          cases none
      rw [Option.filter_some, if_pos (by simpa using there)]
      rfl
  | none =>
    rw [casing.indexOfStatus_of_none plan' status named, explicit]
    have own : casing.indexOfStatus plan phaseIds status = _ :=
      casing.indexOfStatus_of_none plan status named
    by_cases plain : casing.normalizedStatus status = js "QUEUED" ∨
        casing.normalizedStatus status = js "PROPOSED"
    · rw [if_pos plain] at own ⊢
      exact own.symm
    · rw [if_neg plain]
      cases found : casing.indexOfStatus plan phaseIds status with
      | some index => rfl
      | none =>
        rw [planned found]
        rfl

/-! ## When a plan is read as itself -/

/-- The plan is read as active. -/
def ReadAsActive : Prop := casing.canonicalizeQuestJourneyLifecycleMode plan.mode ≠ some (js "proposed")

/-- A User Checkpoint among phases with no single Work: the plan is at Work by name, and the phases have
one checkpoint; or it is at Work by position only. -/
def AmbiguousCheckpoint (phaseIds : List JsString) : Prop :=
  casing.ReadAsActive plan ∧
  casing.normalizedStatus status = js "USER_CHECKPOINTING" ∧
  getUniqueQuestJourneyPhaseIndex phaseIds (some (js "work")) = none ∧
  (casing.plannedCurrentPhaseId plan = some (js "work") ∧
      getUniqueQuestJourneyPhaseIndex phaseIds (some (js "user-checkpoint")) ≠ none ∨
    casing.plannedCurrentPhaseId plan ≠ some (js "work") ∧
      ∃ index, plan.explicitIndex phaseIds = some index ∧ phaseIds[index]? = some (js "work"))

/-- The plan is, by position only, at what is no phase but the name of an inherited property. -/
def AtInheritedName (phaseIds : List JsString) : Prop :=
  casing.ReadAsActive plan ∧ casing.statusPhaseId status = none ∧
  casing.normalizedStatus status ≠ js "QUEUED" ∧ casing.normalizedStatus status ≠ js "PROPOSED" ∧
  ∃ index id, plan.explicitIndex phaseIds = some index ∧ phaseIds[index]? = some id ∧
    id ∈ inheritedNames

theorem readAsActive_iff : casing.ReadAsActive plan ↔ casing.planMode plan ≠ js "proposed" := by
  unfold ReadAsActive planMode
  cases casing.canonicalizeQuestJourneyLifecycleMode plan.mode with
  | none => exact ⟨fun _ => by decide, fun _ same => (by cases same)⟩
  | some mode => rw [Option.getD_some, ne_eq, Option.some_inj]

theorem ambiguousCheckpoint_nonEmptyPhaseIds :
    casing.AmbiguousCheckpoint plan status (casing.nonEmptyPhaseIds plan status) ↔
      casing.AmbiguousCheckpoint plan status
        (casing.normalizeKnownQuestJourneyPhaseIds plan.phaseIds) := by
  unfold nonEmptyPhaseIds
  dsimp only
  by_cases filled : casing.normalizeKnownQuestJourneyPhaseIds plan.phaseIds ≠ []
  · rw [if_pos filled]
  · rw [if_neg filled, not_not.mp filled]
    have outside : ¬ casing.AmbiguousCheckpoint plan status [] := by
      rintro ⟨-, -, -, ⟨-, none⟩ | ⟨-, index, -, there⟩⟩
      · exact none rfl
      · cases there
    refine iff_of_false (fun ambiguous => ?_) outside
    have several := ambiguous.2.2.1
    split at several
    · exact absurd several (by decide)
    · exact absurd several (by decide)

theorem atInheritedName_nonEmptyPhaseIds :
    casing.AtInheritedName plan status (casing.nonEmptyPhaseIds plan status) ↔
      casing.AtInheritedName plan status (casing.normalizeKnownQuestJourneyPhaseIds plan.phaseIds) := by
  unfold nonEmptyPhaseIds
  dsimp only
  by_cases filled : casing.normalizeKnownQuestJourneyPhaseIds plan.phaseIds ≠ []
  · rw [if_pos filled]
  · rw [if_neg filled, not_not.mp filled]
    have outside : ¬ casing.AtInheritedName plan status [] := by
      rintro ⟨-, -, -, -, index, id, -, there, -⟩
      cases there
    have plain : ∀ id ∈ [js "alignment", js "work", js "memory"] ++ DEFAULT_QUEST_JOURNEY_PHASE_IDS,
        id ∉ inheritedNames := forall_mem_of_all (by decide)
    refine iff_of_false ?_ outside
    rintro ⟨-, -, -, -, index, id, -, there, inherited⟩
    have listed := List.mem_of_getElem? there
    split at listed
    · exact plain id (List.mem_append_left _ listed) inherited
    · exact plain id (List.mem_append_right _ listed) inherited

theorem not_known_of_inherited {id : JsString} (inherited : id ∈ inheritedNames) : id ∉ knownPhaseIds := by
  have none : ∀ id ∈ inheritedNames, id ∉ knownPhaseIds := forall_mem_of_all (by decide)
  exact none id inherited

theorem activeIndex_lt {phaseIds : List JsString} {index : Nat}
    (found : casing.normalizeQuestJourneyActivePhaseIndex plan phaseIds status = some index) :
    index < phaseIds.length := by
  have unique (target : JsString) (there : getUniqueQuestJourneyPhaseIndex phaseIds (some target) =
      some index) : index < phaseIds.length :=
    (List.getElem?_eq_some_iff.mp (getElem?_of_getUnique there)).1
  have byStatus (there : casing.indexOfStatus plan phaseIds status = some index) :
      index < phaseIds.length := by
    rcases casing.indexOfStatus_spec plan status there with ⟨_, -, there, -⟩ | ⟨-, -, -, explicit⟩
    · exact (List.getElem?_eq_some_iff.mp there).1
    · exact QuestJourneyPlanState.explicitIndex_lt explicit
  unfold normalizeQuestJourneyActivePhaseIndex at found
  split at found
  · split at found
    · exact unique _ found
    · rw [Option.or_eq_some_iff, Option.or_eq_some_iff] at found
      rcases found with explicit | ⟨-, there | ⟨-, there⟩⟩
      · exact QuestJourneyPlanState.explicitIndex_lt (Option.filter_eq_some_iff.mp explicit).1
      · exact unique _ there
      · exact byStatus there
  · exact byStatus found

theorem explicitIndex_normalize :
    (casing.normalizeQuestJourneyPlan plan status).explicitIndex (casing.nonEmptyPhaseIds plan status) =
      casing.planActiveIndex plan status := by
  have active : (casing.normalizeQuestJourneyPlan plan status).activePhaseIndex =
      (casing.planActiveIndex plan status).map fun index : Nat => (index : Int) := rfl
  unfold QuestJourneyPlanState.explicitIndex
  rw [active]
  cases found : casing.planActiveIndex plan status with
  | none => rfl
  | some index =>
    have below : index < (casing.nonEmptyPhaseIds plan status).length := by
      unfold planActiveIndex at found
      split at found
      · cases found
      · exact casing.activeIndex_lt plan status found
    rw [Option.map_some, Option.bind_some, if_pos (by omega)]
    rfl

theorem planned_normalize_of_known {index : Nat} {id : JsString}
    (active : casing.planActiveIndex plan status = some index)
    (there : (casing.nonEmptyPhaseIds plan status)[index]? = some id) (known : id ∈ knownPhaseIds) :
    casing.plannedCurrentPhaseId (casing.normalizeQuestJourneyPlan plan status) = some id := by
  have current : (casing.normalizeQuestJourneyPlan plan status).currentPhaseId = some id := by
    show casing.planCurrentPhaseId plan status = some id
    unfold planCurrentPhaseId
    rw [active, Option.bind_some, there]
  unfold plannedCurrentPhaseId
  rw [current]
  exact casing.getQuestJourneyPhase_of_known known

theorem planned_normalize_of_none (active : casing.planActiveIndex plan status = none) :
    casing.plannedCurrentPhaseId (casing.normalizeQuestJourneyPlan plan status) = none := by
  have current : (casing.normalizeQuestJourneyPlan plan status).currentPhaseId = none := by
    show casing.planCurrentPhaseId plan status = none
    unfold planCurrentPhaseId
    rw [active]
    rfl
  unfold plannedCurrentPhaseId
  rw [current]
  rfl

theorem planActiveIndex_normalize_iff :
    casing.planActiveIndex (casing.normalizeQuestJourneyPlan plan status) status =
      casing.planActiveIndex plan status ↔
      ¬ casing.AmbiguousCheckpoint plan status (casing.nonEmptyPhaseIds plan status) := by
  have mode := casing.planMode_normalize plan status
  have ids := casing.nonEmptyPhaseIds_normalize plan status
  have explicit := casing.explicitIndex_normalize plan status
  by_cases proposed : casing.planMode plan = js "proposed"
  · unfold planActiveIndex
    rw [mode, if_pos proposed, if_pos proposed]
    exact ⟨fun _ ambiguous => (casing.readAsActive_iff plan).mp ambiguous.1 proposed, fun _ => rfl⟩
  have active : casing.planActiveIndex plan status = casing.normalizeQuestJourneyActivePhaseIndex plan
      (casing.nonEmptyPhaseIds plan status) status := by
    unfold planActiveIndex
    rw [if_neg proposed]
  have active' : casing.planActiveIndex (casing.normalizeQuestJourneyPlan plan status) status =
      casing.normalizeQuestJourneyActivePhaseIndex (casing.normalizeQuestJourneyPlan plan status)
        (casing.nonEmptyPhaseIds plan status) status := by
    unfold planActiveIndex
    rw [mode, if_neg proposed, ids]
  have ofNone := casing.planned_normalize_of_none plan status
  have ofKnown : ∀ index id, casing.planActiveIndex plan status = some index →
      (casing.nonEmptyPhaseIds plan status)[index]? = some id → id ∈ knownPhaseIds →
      casing.plannedCurrentPhaseId (casing.normalizeQuestJourneyPlan plan status) = some id :=
    fun index id => casing.planned_normalize_of_known plan status
  unfold AmbiguousCheckpoint
  rw [active', readAsActive_iff]
  generalize casing.normalizeQuestJourneyPlan plan status = plan' at *
  generalize casing.nonEmptyPhaseIds plan status = phaseIds at *
  have known : js "work" ∈ knownPhaseIds := by decide
  by_cases checkpoint : casing.normalizedStatus status = js "USER_CHECKPOINTING"
  · have named := casing.statusPhaseId_of_checkpoint status checkpoint
    unfold normalizeQuestJourneyActivePhaseIndex at active ⊢
    rw [if_pos checkpoint] at active ⊢
    by_cases planned : casing.plannedCurrentPhaseId plan = some (js "work")
    · rw [if_pos planned] at active
      cases work : getUniqueQuestJourneyPhaseIndex phaseIds (some (js "work")) with
      | some index =>
        rw [work] at active
        rw [ofKnown index _ active (getElem?_of_getUnique work) known, if_pos rfl, active]
        exact ⟨fun _ ambiguous => (by cases ambiguous.2.2.1), fun _ => rfl⟩
      | none =>
        rw [work] at active
        rw [ofNone active, if_neg (fun same => by cases same), active, explicit, active,
          casing.indexOfStatus_of_phase plan' status named, explicit, active]
        refine ⟨fun same ambiguous => ?_, fun sure => ?_⟩
        · rcases ambiguous.2.2.2 with ⟨-, several⟩ | ⟨other, -⟩
          · exact several same
          · exact other planned
        · by_contra several
          exact sure ⟨proposed, checkpoint, rfl, .inl ⟨planned, several⟩⟩
    · rw [if_neg planned] at active
      cases own : (plan.explicitIndex phaseIds).filter fun index => phaseIds[index]? = some (js "work") with
      | some index =>
        rw [own] at active
        obtain ⟨found, there⟩ := Option.filter_eq_some_iff.mp own
        have there : phaseIds[index]? = some (js "work") := of_decide_eq_true there
        rw [ofKnown index _ active there known, if_pos rfl, active]
        refine ⟨fun same ambiguous => ?_, fun sure => ?_⟩
        · rw [ambiguous.2.2.1] at same
          cases same
        · cases work : getUniqueQuestJourneyPhaseIndex phaseIds (some (js "work")) with
          | some index' => exact congrArg some (eq_of_getUnique work there).symm
          | none =>
            exact absurd ⟨proposed, checkpoint, work, .inr ⟨planned, index, found, there⟩⟩ sure
      | none =>
        rw [own] at active
        have plain : ¬ ∃ index, plan.explicitIndex phaseIds = some index ∧
            phaseIds[index]? = some (js "work") := by
          rintro ⟨index, found, there⟩
          rw [found, Option.filter_some, if_pos (by simpa using there)] at own
          cases own
        cases work : getUniqueQuestJourneyPhaseIndex phaseIds (some (js "work")) with
        | some index =>
          rw [work] at active
          rw [ofKnown index _ active (getElem?_of_getUnique work) known, if_pos rfl, active]
          exact ⟨fun _ ambiguous => (by cases ambiguous.2.2.1), fun _ => rfl⟩
        | none =>
          rw [work] at active
          have away : casing.plannedCurrentPhaseId plan' ≠ some (js "work") ∧
              (plan'.explicitIndex phaseIds).filter
                (fun index => phaseIds[index]? = some (js "work")) = none := by
            rw [explicit]
            cases found : casing.planActiveIndex plan status with
            | none =>
              rw [ofNone found]
              exact ⟨fun same => (by cases same), rfl⟩
            | some index =>
              rw [found] at active
              obtain ⟨target, listed, there, only⟩ | ⟨none, -⟩ :=
                casing.indexOfStatus_spec plan status active.symm
              · rw [only _ named] at there listed
                rw [ofKnown index _ found there listed, Option.filter_some, there]
                exact ⟨fun same => absurd (Option.some.inj same) (by decide), rfl⟩
              · rw [named] at none
                cases none
          rw [if_neg away.1, away.2, active]
          have stays := casing.indexOfStatus_stable plan status (explicit.trans active)
            fun none => ofNone (active.trans none)
          refine ⟨fun _ ambiguous => ?_, fun _ => stays⟩
          rcases ambiguous.2.2.2 with ⟨same, -⟩ | ⟨-, found⟩
          · exact planned same
          · exact plain found
  · unfold normalizeQuestJourneyActivePhaseIndex at active ⊢
    rw [if_neg checkpoint] at active ⊢
    rw [active]
    exact ⟨fun _ ambiguous => checkpoint ambiguous.2.1, fun _ =>
      casing.indexOfStatus_stable plan status (explicit.trans active) fun none =>
        ofNone (active.trans none)⟩

/-- The phase that a plan is at is known, except at the name of an inherited property. -/
theorem planCurrentPhaseId_known_iff :
    (∀ id, casing.planCurrentPhaseId plan status = some id → id ∈ knownPhaseIds) ↔
      ¬ casing.AtInheritedName plan status (casing.nonEmptyPhaseIds plan status) := by
  unfold AtInheritedName
  rw [readAsActive_iff]
  unfold planCurrentPhaseId
  by_cases proposed : casing.planMode plan = js "proposed"
  · have none : casing.planActiveIndex plan status = none := by
      unfold planActiveIndex
      rw [if_pos proposed]
    rw [none]
    exact ⟨fun _ inherited => inherited.1 proposed, fun _ id same => (by cases same)⟩
  have active : casing.planActiveIndex plan status = casing.normalizeQuestJourneyActivePhaseIndex plan
      (casing.nonEmptyPhaseIds plan status) status := by
    unfold planActiveIndex
    rw [if_neg proposed]
  constructor
  · rintro known ⟨-, unnamed, queued, planned, index, id, explicit, there, inherited⟩
    have checkpoint : casing.normalizedStatus status ≠ js "USER_CHECKPOINTING" := fun checkpoint => by
      rw [casing.statusPhaseId_of_checkpoint status checkpoint] at unnamed
      cases unnamed
    have at' : casing.planActiveIndex plan status = some index := by
      rw [active]
      unfold normalizeQuestJourneyActivePhaseIndex
      rw [if_neg checkpoint, casing.indexOfStatus_of_none plan status unnamed,
        if_neg (not_or.mpr ⟨queued, planned⟩), explicit]
      rfl
    refine not_known_of_inherited inherited (known id ?_)
    rw [at', Option.bind_some, there]
  · intro sure id current
    obtain ⟨index, at', there⟩ := Option.bind_eq_some_iff.mp current
    rw [active] at at'
    have ofUnique (target : JsString) (known : target ∈ knownPhaseIds)
        (unique : getUniqueQuestJourneyPhaseIndex (casing.nonEmptyPhaseIds plan status) (some target) =
          some index) : id ∈ knownPhaseIds := by
      rw [getElem?_of_getUnique unique] at there
      exact Option.some.inj there ▸ known
    have ofStatus (byStatus : casing.indexOfStatus plan (casing.nonEmptyPhaseIds plan status) status =
        some index) : id ∈ knownPhaseIds := by
      rcases casing.indexOfStatus_spec plan status byStatus with
        ⟨target, known, found, -⟩ | ⟨unnamed, queued, planned, explicit⟩
      · rw [found] at there
        exact Option.some.inj there ▸ known
      · have canonical := casing.nonEmptyPhaseIds_canonical plan status (List.mem_of_getElem? there)
        rcases casing.canonicalizeKnown_cases canonical with known | ⟨inherited, -⟩
        · exact known
        · exact absurd ⟨proposed, unnamed, queued, planned, index, id, explicit, there, inherited⟩ sure
    have work : js "work" ∈ knownPhaseIds := by decide
    unfold normalizeQuestJourneyActivePhaseIndex at at'
    split at at'
    · split at at'
      · exact ofUnique _ work at'
      · rw [Option.or_eq_some_iff, Option.or_eq_some_iff] at at'
        rcases at' with explicit | ⟨-, unique | ⟨-, byStatus⟩⟩
        · have found : (casing.nonEmptyPhaseIds plan status)[index]? = some (js "work") :=
            of_decide_eq_true (Option.filter_eq_some_iff.mp explicit).2
          rw [found] at there
          exact Option.some.inj there ▸ work
        · exact ofUnique _ work unique
        · exact ofStatus byStatus
    · exact ofStatus at'

theorem planNextLeaderAction_normalize
    (same : casing.planActiveIndex (casing.normalizeQuestJourneyPlan plan status) status =
      casing.planActiveIndex plan status) :
    (casing.planNextLeaderAction (casing.normalizeQuestJourneyPlan plan status) status).filter (· ≠ []) =
      (casing.planNextLeaderAction plan status).filter (· ≠ []) := by
  have current : casing.planCurrentPhaseId (casing.normalizeQuestJourneyPlan plan status) status =
      casing.planCurrentPhaseId plan status := by
    unfold planCurrentPhaseId
    rw [same, casing.nonEmptyPhaseIds_normalize]
  have own : (casing.normalizeQuestJourneyPlan plan status).nextLeaderAction =
      (casing.planNextLeaderAction plan status).filter (· ≠ []) := rfl
  conv_lhs => unfold planNextLeaderAction
  rw [casing.planMode_normalize, current, own]
  by_cases proposed : casing.planMode plan = js "proposed"
  · unfold planNextLeaderAction
    rw [if_pos proposed, if_pos proposed]
  · unfold planNextLeaderAction
    rw [if_neg proposed, if_neg proposed]
    cases (casing.getQuestJourneyPhase (casing.planCurrentPhaseId plan status)).map
        (·.nextLeaderAction) with
    | some action => rfl
    | none =>
      rw [Option.none_or, Option.none_or]
      by_cases queued : casing.normalizedStatus status = js "QUEUED"
      · rw [if_pos queued, if_pos queued]
      · rw [if_neg queued, if_neg queued]
        exact filter_idempotent _ _

theorem normalizeQuestJourneyPlan_normalize
    (same : casing.planActiveIndex (casing.normalizeQuestJourneyPlan plan status) status =
      casing.planActiveIndex plan status) :
    casing.normalizeQuestJourneyPlan (casing.normalizeQuestJourneyPlan plan status) status =
      casing.normalizeQuestJourneyPlan plan status := by
  have ids := casing.nonEmptyPhaseIds_normalize plan status
  have current : casing.planCurrentPhaseId (casing.normalizeQuestJourneyPlan plan status) status =
      casing.planCurrentPhaseId plan status := by
    unfold planCurrentPhaseId
    rw [same, ids]
  have action := casing.planNextLeaderAction_normalize plan status same
  have mode := casing.planMode_normalize plan status
  have notes (raw : Option (Record (Option JsString))) (count : Nat) :
      normalizeQuestJourneyPhaseNotes (normalizeQuestJourneyPhaseNotes raw count) count =
        normalizeQuestJourneyPhaseNotes raw count :=
    bind_normalizePositions_idempotent readNote_stable raw
  have timings (raw : Option (Record (Option QuestJourneyPhaseTiming))) (count : Nat) :
      normalizeQuestJourneyPhaseTimings (normalizeQuestJourneyPhaseTimings raw count) count =
        normalizeQuestJourneyPhaseTimings raw count :=
    bind_normalizePositions_idempotent readTiming_stable raw
  refine QuestJourneyPlanState.ext rfl ids (congrArg some mode) ?_ current ?_ ?_ ?_
    (normalizePresentation_idempotent plan.presentation) action (filter_idempotent _ _)
    (filter_idempotent _ _) rfl
  · exact congrArg (Option.map fun index : Nat => (index : Int)) same
  · exact (congrArg (normalizeQuestJourneyPhaseNotes _ ·.length) ids).trans (notes _ _)
  · exact (congrArg (normalizeQuestJourneyPhaseNotes _ ·.length) ids).trans (notes _ _)
  · exact (congrArg (normalizeQuestJourneyPhaseTimings _ ·.length) ids).trans (timings _ _)

/-- A plan is read again as it was read, with the known phase that it is at, exactly if it is in no
ambiguous checkpoint and at no name of an inherited property. -/
theorem journey_plan_stable (casing : Casing) (plan : QuestJourneyPlanState)
    (status : Option JsString) :
    let normal := casing.normalizeQuestJourneyPlan plan status
    (casing.normalizeQuestJourneyPlan normal status = normal ∧
        ((normal.activePhaseIndex = none ∧ normal.currentPhaseId = none) ∨
          ∃ index : Nat, index < normal.phaseIds.length ∧ normal.activePhaseIndex = some (index : Int) ∧
            normal.currentPhaseId = normal.phaseIds[index]?) ∧
        ∀ id, normal.currentPhaseId = some id → id ∈ knownPhaseIds) ↔
      ¬ casing.AmbiguousCheckpoint plan status
          (casing.normalizeKnownQuestJourneyPhaseIds plan.phaseIds) ∧
        ¬ casing.AtInheritedName plan status
          (casing.normalizeKnownQuestJourneyPhaseIds plan.phaseIds) := by
  intro normal
  rw [← ambiguousCheckpoint_nonEmptyPhaseIds, ← atInheritedName_nonEmptyPhaseIds,
    ← planActiveIndex_normalize_iff, ← planCurrentPhaseId_known_iff]
  have active : ∀ plan, (casing.normalizeQuestJourneyPlan plan status).activePhaseIndex =
      (casing.planActiveIndex plan status).map fun index : Nat => (index : Int) := fun _ => rfl
  constructor
  · rintro ⟨again, -, known⟩
    refine ⟨?_, known⟩
    have both := congrArg QuestJourneyPlanState.activePhaseIndex again
    rw [active, active] at both
    exact Option.map_injective Int.ofNat_injective both
  · rintro ⟨same, known⟩
    refine ⟨casing.normalizeQuestJourneyPlan_normalize plan status same, ?_, known⟩
    cases found : casing.planActiveIndex plan status with
    | none =>
      refine .inl ⟨?_, ?_⟩
      · rw [active, found]
        rfl
      · show casing.planCurrentPhaseId plan status = none
        unfold planCurrentPhaseId
        rw [found]
        rfl
    | some index =>
      refine .inr ⟨index, ?_, ?_, ?_⟩
      · unfold planActiveIndex at found
        split at found
        · cases found
        · exact casing.activeIndex_lt plan status found
      · rw [active, found]
        rfl
      · show casing.planCurrentPhaseId plan status = _
        unfold planCurrentPhaseId
        rw [found]
        rfl

/-- A plan at Work among two Works gets its checkpoint when it is read again; and a plan can be at the
constructor of a table. -/
theorem work_becomes_checkpoint :
    (let plan : QuestJourneyPlanState :=
      { phaseIds := [js "work", js "user-checkpoint", js "work"], currentPhaseId := some (js "work") }
     let status := some (js "USER_CHECKPOINTING")
     let normal := ascii.normalizeQuestJourneyPlan plan status
     let again := ascii.normalizeQuestJourneyPlan normal status
     normal.activePhaseIndex = none ∧ again.activePhaseIndex = some 1 ∧
       again.currentPhaseId = some (js "user-checkpoint") ∧ again ≠ normal) ∧
    (ascii.normalizeQuestJourneyPlan
        { phaseIds := [js "constructor"], activePhaseIndex := some 0 } none).currentPhaseId =
      some (js "constructor") ∧ js "constructor" ∉ knownPhaseIds := by
  decide

end Casing

end Takode.Journeys
