import Takode.Quests.Placing

/-!
# Rounds partition the record

Every live entry is in one round or waits for the next one, every delivery is in one round, and
every run is in one unless it started after the last round had closed.
-/

namespace Takode.Quests

open JsString

variable (quest : Quest)

theorem records_pos : 0 < (questRoundRecords quest).length :=
  List.length_pos_of_ne_nil (questRoundRecords_ne_nil quest)

theorem openedBy_lt (ts : Nat) : openedBy quest ts < (questRoundRecords quest).length := by
  have few := (List.takeWhile_prefix (fun round : QuestRound => decide (round.openedAt ≤ ts))
    (l := (questRoundRecords quest).tail)).length_le
  rw [List.length_tail] at few
  have filled := records_pos quest
  unfold openedBy
  omega

theorem roundAt_le (ts : Nat) : roundAt quest ts ≤ (questRoundRecords quest).length := by
  have inside := openedBy_lt quest ts
  unfold roundAt
  dsimp only
  cases closedAt quest (openedBy quest ts) with
  | none => exact inside.le
  | some closed =>
    dsimp only
    split <;> omega

theorem roundAt_late {ts : Nat} (late : (questRoundRecords quest).length ≤ roundAt quest ts) :
    ∃ closed, closedAt quest ((questRoundRecords quest).length - 1) = some closed ∧ closed < ts := by
  have inside := openedBy_lt quest ts
  unfold roundAt at late
  dsimp only at late
  cases ended : closedAt quest (openedBy quest ts) with
  | none =>
    rw [ended] at late
    exact absurd inside (by dsimp only at late; omega)
  | some closed =>
    rw [ended] at late
    dsimp only at late
    split at late
    · rename_i after
      have last : openedBy quest ts = (questRoundRecords quest).length - 1 := by omega
      exact ⟨closed, last ▸ ended, after⟩
    · omega

/-! ## Runs -/

theorem mem_sortedRuns {runs : Option (List QuestJourneyRun)} {run : QuestJourneyRun} :
    run ∈ sortedRuns runs ↔ run ∈ runs.getD [] := by
  unfold sortedRuns
  exact (List.perm_insertionSort _ _).mem_iff

theorem exists_runOf {run : QuestJourneyRun} (listed : run ∈ quest.journeyRuns.getD []) :
    ∃ latest, runOf quest run.runId = some latest := by
  have found : ((sortedRuns quest.journeyRuns).reverse.find? (·.runId = run.runId)).isSome := by
    rw [List.find?_isSome]
    exact ⟨run, List.mem_reverse.mpr (mem_sortedRuns.mpr listed), decide_eq_true rfl⟩
  exact Option.isSome_iff_exists.mp found

/-- A run, or a later one of the same id, that started when the last round had closed. -/
def startedLate (run : QuestJourneyRun) : Bool :=
  (runRound quest run.runId).any fun place => (questRoundRecords quest).length ≤ place

theorem startedLate_after {run : QuestJourneyRun} (late : startedLate quest run = true) :
    ∃ closed latest, closedAt quest ((questRoundRecords quest).length - 1) = some closed ∧
      runOf quest run.runId = some latest ∧ closed < latest.createdAt := by
  unfold startedLate runRound at late
  cases found : runOf quest run.runId with
  | none =>
    rw [found] at late
    cases late
  | some latest =>
    rw [found] at late
    obtain ⟨closed, ended, after⟩ := roundAt_late quest (of_decide_eq_true late)
    exact ⟨closed, latest, ended, rfl, after⟩

theorem runs_dealt : ((buildQuestRounds quest).rounds.flatMap (·.runIds)).Perm
    (((quest.journeyRuns.getD []).filter fun run => !startedLate quest run).map (·.runId)) := by
  rw [flatMap_rounds quest (·.runIds) (runsOf quest) fun k record _ _ => baseView_runIds quest k record]
  let n := (questRoundRecords quest).length
  let place (run : QuestJourneyRun) : Nat := (runRound quest run.runId).getD n
  have placed (run : QuestJourneyRun) (listed : run ∈ sortedRuns quest.journeyRuns) :
      runRound quest run.runId = some (place run) := by
    obtain ⟨latest, found⟩ := exists_runOf quest (mem_sortedRuns.mp listed)
    show _ = some ((runRound quest run.runId).getD n)
    unfold runRound
    rw [found]
    rfl
  have runs (k : Nat) : runsOf quest k =
      ((sortedRuns quest.journeyRuns).filter fun run => place run = k).map (·.runId) := by
    unfold runsOf
    refine congrArg _ (List.filter_congr fun run listed => ?_)
    rw [Bool.eq_iff_iff, decide_eq_true_iff, decide_eq_true_iff, placed run listed,
      Option.some.injEq]
  have early : ((sortedRuns quest.journeyRuns).filter fun run => place run < n) =
      (sortedRuns quest.journeyRuns).filter fun run => !startedLate quest run := by
    refine List.filter_congr fun run listed => ?_
    unfold startedLate
    rw [placed run listed, Bool.eq_iff_iff]
    simp [n]
  have sorted : ((sortedRuns quest.journeyRuns).filter fun run => !startedLate quest run).Perm
      ((quest.journeyRuns.getD []).filter fun run => !startedLate quest run) :=
    (List.perm_insertionSort _ _).filter _
  have dealt := dealt_perm_inside place (sortedRuns quest.journeyRuns) n
  rw [early] at dealt
  have mapped := (dealt.trans sorted).map (·.runId)
  rw [List.map_flatMap] at mapped
  rwa [show runsOf quest = fun k =>
    ((sortedRuns quest.journeyRuns).filter fun run => place run = k).map (·.runId) from funext runs]

/-! ## Entries and deliveries -/

theorem liveEntries_nodup : ((liveEntries quest).map (·.1)).Nodup := by
  have whole : ((quest.feedback.getD []).mapIdx fun index entry => (index, entry)).map (·.1) =
      List.range (quest.feedback.getD []).length := by
    refine List.ext_getElem? fun k => ?_
    rw [List.getElem?_map, List.getElem?_mapIdx]
    by_cases inside : k < (quest.feedback.getD []).length
    · rw [List.getElem?_eq_getElem inside, List.getElem?_range inside]
      rfl
    · rw [List.getElem?_eq_none (by omega), List.getElem?_eq_none (by rw [List.length_range]; omega)]
      rfl
  have sub := (List.filter_sublist (p := fun e : Nat × QuestFeedbackEntry => e.2.deletedAt.isNone)
    (l := (quest.feedback.getD []).mapIdx fun index entry => (index, entry))).map (·.1)
  rw [whole] at sub
  exact List.nodup_range.sublist sub

theorem entries_dealt : ((buildQuestRounds quest).rounds.flatMap (·.feedbackIndices) ++
    (buildQuestRounds quest).pendingFeedbackIndices).Perm ((liveEntries quest).map (·.1)) := by
  rw [flatMap_rounds quest (·.feedbackIndices) (entriesOf quest) fun _ _ _ _ => rfl,
    buildQuestRounds_pending]
  have dealt := (dealt_perm (fun e : Nat × QuestFeedbackEntry => entryRound quest e.1 e.2)
    (liveEntries quest) (questRoundRecords quest).length).map (·.1)
  rwa [List.map_append, List.map_flatMap] at dealt

theorem deliveries_dealt : ((buildQuestRounds quest).rounds.flatMap (·.deliveryIds)).Perm
    ((quest.codeDeliveries.getD []).map (·.id)) := by
  rw [flatMap_rounds quest (·.deliveryIds) (deliveriesOf quest) fun _ _ _ _ => rfl]
  have dealt := (dealt_perm_inside (deliveryRound quest) (quest.codeDeliveries.getD [])
    (questRoundRecords quest).length).map (·.id)
  have all : ((quest.codeDeliveries.getD []).filter fun d =>
      deliveryRound quest d < (questRoundRecords quest).length) = quest.codeDeliveries.getD [] := by
    refine List.filter_eq_self.mpr fun d _ => decide_eq_true ?_
    have filled := records_pos quest
    unfold deliveryRound
    omega
  rwa [all, List.map_flatMap] at dealt

end Takode.Quests
