import Takode.Quests.RoundViews

/-!
# What rounds hold

The rounds that `buildQuestRounds` gives hold what was placed in them, in order; and every entry,
delivery and run is placed once.
-/

namespace Takode.Quests

open JsString

/-! ## Lists that are dealt out -/

section Dealing

variable {α : Type}

theorem dealt_perm (place : α → Nat) (items : List α) (n : Nat) :
    (((List.range n).flatMap fun k => items.filter fun a => place a = k) ++
      items.filter fun a => n ≤ place a).Perm items := by
  induction n with
  | zero =>
    have all : (items.filter fun a => 0 ≤ place a) = items :=
      List.filter_eq_self.mpr fun a _ => decide_eq_true (Nat.zero_le _)
    rw [all]
    exact List.Perm.refl _
  | succ n ih =>
    have split : ((items.filter fun a => place a = n) ++ items.filter fun a => n + 1 ≤ place a).Perm
        (items.filter fun a => n ≤ place a) := by
      have parts := List.filter_append_perm (fun a => decide (place a = n))
        (items.filter fun a => n ≤ place a)
      rw [List.filter_filter, List.filter_filter] at parts
      have here : (items.filter fun a => decide (place a = n) && decide (n ≤ place a)) =
          items.filter fun a => place a = n := by
        refine List.filter_congr fun a _ => ?_
        rw [Bool.eq_iff_iff]
        simp only [Bool.and_eq_true, decide_eq_true_eq]
        omega
      have later : (items.filter fun a => !decide (place a = n) && decide (n ≤ place a)) =
          items.filter fun a => n + 1 ≤ place a := by
        refine List.filter_congr fun a _ => ?_
        rw [Bool.eq_iff_iff]
        simp only [Bool.and_eq_true, Bool.not_eq_true', decide_eq_false_iff_not, decide_eq_true_eq]
        omega
      rwa [here, later] at parts
    rw [List.range_succ, List.flatMap_append, List.append_assoc]
    refine (List.Perm.append_left _ ?_).trans ih
    simpa using split

theorem dealt_perm_inside (place : α → Nat) (items : List α) (n : Nat) :
    ((List.range n).flatMap fun k => items.filter fun a => place a = k).Perm
      (items.filter fun a => place a < n) := by
  have parts := List.filter_append_perm (fun a => decide (place a < n)) items
  have later : (items.filter fun a => !decide (place a < n)) = items.filter fun a => n ≤ place a := by
    refine List.filter_congr fun a _ => ?_
    rw [Bool.eq_iff_iff]
    simp
  rw [later] at parts
  exact (List.perm_append_right_iff _).mp ((dealt_perm place items n).trans parts.symm)

end Dealing

section Folds

variable (quest : Quest)

/-- A round after the feedback is placed. -/
def Holding (view round : QuestRoundView) (indices : List Nat) : Prop :=
  ∃ requests, round = { view with feedbackIndices := view.feedbackIndices ++ indices,
                                  requestIndices := requests }

theorem Holding.trans {a b c : QuestRoundView} {first second : List Nat} (ab : Holding a b first)
    (bc : Holding b c second) : Holding a c (first ++ second) := by
  obtain ⟨r, rfl⟩ := ab
  obtain ⟨r', rfl⟩ := bc
  exact ⟨r', by simp only [List.append_assoc]⟩

theorem placeEntry_spec (view : QuestRoundsView) (entry : Nat × QuestFeedbackEntry) :
    (placeEntry quest view entry).rounds.length = view.rounds.length ∧
    (placeEntry quest view entry).pendingFeedbackIndices = view.pendingFeedbackIndices ++
      (if view.rounds.length ≤ entryRound quest entry.1 entry.2 then [entry.1] else []) ∧
    ∀ (k : Nat) (round : QuestRoundView), view.rounds[k]? = some round →
      ∃ filled, (placeEntry quest view entry).rounds[k]? = some filled ∧
        Holding round filled (if entryRound quest entry.1 entry.2 = k then [entry.1] else []) := by
  unfold placeEntry
  generalize entryRound quest entry.1 entry.2 = place
  dsimp only
  cases found : view.rounds[place]? with
  | none =>
    have beyond : view.rounds.length ≤ place := List.getElem?_eq_none_iff.mp found
    refine ⟨rfl, by rw [if_pos beyond], fun k round there => ⟨round, there, round.requestIndices, ?_⟩⟩
    have other : place ≠ k := by
      rintro rfl
      rw [found] at there
      cases there
    rw [if_neg other, List.append_nil]
  | some opened =>
    have inside : ¬ view.rounds.length ≤ place := by
      have short := (List.getElem?_eq_some_iff.mp found).1
      omega
    refine ⟨List.length_modify _ _ _, by rw [if_neg inside, List.append_nil], ?_⟩
    intro k round there
    rw [List.getElem?_modify, there]
    by_cases here : place = k
    · refine ⟨_, rfl, ?_⟩
      simp only [if_pos here]
      exact ⟨_, rfl⟩
    · refine ⟨round, by simp [here], round.requestIndices, ?_⟩
      rw [if_neg here, List.append_nil]

/-- Every entry of a list is placed in its round, or waits for the next one. -/
theorem foldl_placeEntry (entries : List (Nat × QuestFeedbackEntry)) (view : QuestRoundsView) :
    (entries.foldl (placeEntry quest) view).rounds.length = view.rounds.length ∧
    (entries.foldl (placeEntry quest) view).pendingFeedbackIndices =
      view.pendingFeedbackIndices ++
        (entries.filter fun e => view.rounds.length ≤ entryRound quest e.1 e.2).map (·.1) ∧
    ∀ (k : Nat) (round : QuestRoundView), view.rounds[k]? = some round →
      ∃ filled, (entries.foldl (placeEntry quest) view).rounds[k]? = some filled ∧
        Holding round filled ((entries.filter fun e => entryRound quest e.1 e.2 = k).map (·.1)) := by
  induction entries generalizing view with
  | nil =>
    refine ⟨rfl, (List.append_nil _).symm, fun k round there => ⟨round, there, ?_⟩⟩
    exact ⟨round.requestIndices, by simp⟩
  | cons entry entries ih =>
    rw [List.foldl_cons]
    obtain ⟨same, pending, holds⟩ := ih (placeEntry quest view entry)
    obtain ⟨same', pending', holds'⟩ := placeEntry_spec quest view entry
    refine ⟨same.trans same', ?_, ?_⟩
    · rw [pending, pending', same', List.append_assoc, List.filter_cons]
      congr 1
      by_cases beyond : view.rounds.length ≤ entryRound quest entry.1 entry.2
      · simp [beyond]
      · simp [beyond]
    · intro k round there
      obtain ⟨once, there', held⟩ := holds' k round there
      obtain ⟨twice, there'', held'⟩ := holds k once there'
      refine ⟨twice, there'', ?_⟩
      have both := held.trans held'
      rw [List.filter_cons]
      by_cases here : entryRound quest entry.1 entry.2 = k
      · simpa [here] using both
      · simpa [here] using both

theorem foldl_placeDelivery (deliveries : List QuestCodeDelivery) (rounds : List QuestRoundView) :
    (deliveries.foldl (placeDelivery quest) rounds).length = rounds.length ∧
    ∀ (k : Nat) (round : QuestRoundView), rounds[k]? = some round →
      (deliveries.foldl (placeDelivery quest) rounds)[k]? = some { round with
        deliveryIds := round.deliveryIds ++
          (deliveries.filter fun d => deliveryRound quest d = k).map (·.id) } := by
  induction deliveries generalizing rounds with
  | nil => exact ⟨rfl, fun k round there => by simp [there]⟩
  | cons delivery deliveries ih =>
    rw [List.foldl_cons]
    obtain ⟨same, holds⟩ := ih (placeDelivery quest rounds delivery)
    refine ⟨same.trans (List.length_modify _ _ _), ?_⟩
    intro k round there
    rw [List.filter_cons]
    by_cases here : deliveryRound quest delivery = k
    · have step : (placeDelivery quest rounds delivery)[k]? =
          some { round with deliveryIds := round.deliveryIds ++ [delivery.id] } := by
        simp [placeDelivery, there, here]
      rw [holds k _ step]
      simp [here]
    · have step : (placeDelivery quest rounds delivery)[k]? = some round := by
        simp [placeDelivery, there, here]
      rw [holds k round step]
      simp [here]

/-! ## The rounds that are built -/

def liveEntries : List (Nat × QuestFeedbackEntry) := indexedLiveQuestFeedbackEntries quest.feedback

/-- The entries that are placed in a round. -/
def entriesOf (k : Nat) : List Nat :=
  ((liveEntries quest).filter fun e => entryRound quest e.1 e.2 = k).map (·.1)

def deliveriesOf (k : Nat) : List JsString :=
  ((quest.codeDeliveries.getD []).filter fun d => deliveryRound quest d = k).map (·.id)

def runsOf (k : Nat) : List JsString :=
  ((sortedRuns quest.journeyRuns).filter fun run => runRound quest run.runId = some k).map (·.runId)

/-- A round before its feedback and deliveries are placed. -/
def baseView (k : Nat) (record : QuestRound) : QuestRoundView :=
  if k = (questRoundRecords quest).length - 1 then debriefed quest (roundView quest k record)
  else roundView quest k record

theorem roundViews_length : (roundViews quest).length = (questRoundRecords quest).length := by
  simp [roundViews]

theorem roundViews_getElem? {k : Nat} {record : QuestRound}
    (there : (questRoundRecords quest)[k]? = some record) :
    (roundViews quest)[k]? = some (baseView quest k record) := by
  unfold roundViews baseView
  dsimp only
  rw [List.getElem?_modify, List.getElem?_mapIdx, there]
  by_cases last : k = (questRoundRecords quest).length - 1
  · rw [if_pos last]
    simp [← last]
  · rw [if_neg last]
    simp [Ne.symm last]

theorem buildQuestRounds_length :
    (buildQuestRounds quest).rounds.length = (questRoundRecords quest).length := by
  unfold buildQuestRounds
  dsimp only
  rw [List.length_mapIdx, (foldl_placeDelivery quest _ _).1, (foldl_placeEntry quest _ _).1,
    roundViews_length]

theorem buildQuestRounds_pending : (buildQuestRounds quest).pendingFeedbackIndices =
    ((liveEntries quest).filter fun e =>
      (questRoundRecords quest).length ≤ entryRound quest e.1 e.2).map (·.1) := by
  have placed := (foldl_placeEntry quest (liveEntries quest) ⟨roundViews quest, []⟩).2.1
  rw [List.nil_append, roundViews_length] at placed
  exact placed

theorem buildQuestRounds_round {k : Nat} {record : QuestRound}
    (there : (questRoundRecords quest)[k]? = some record) :
    ∃ requests, (buildQuestRounds quest).rounds[k]? = some (summarized quest k
      { baseView quest k record with
        feedbackIndices := entriesOf quest k
        requestIndices := requests
        deliveryIds := deliveriesOf quest k }) := by
  have based := roundViews_getElem? quest there
  obtain ⟨filled, there', requests, rfl⟩ :=
    (foldl_placeEntry quest (liveEntries quest) ⟨roundViews quest, []⟩).2.2 k _ based
  have delivered := (foldl_placeDelivery quest (quest.codeDeliveries.getD []) _).2 k _ there'
  have blank : (baseView quest k record).feedbackIndices = [] ∧
      (baseView quest k record).deliveryIds = [] := by
    unfold baseView debriefed
    split
    · split
      · exact ⟨rfl, rfl⟩
      · exact ⟨rfl, rfl⟩
    · exact ⟨rfl, rfl⟩
  refine ⟨requests, ?_⟩
  unfold buildQuestRounds
  dsimp only
  rw [List.getElem?_mapIdx]
  unfold liveEntries at delivered
  rw [delivered, blank.1, blank.2, List.nil_append, List.nil_append]
  rfl

theorem baseView_runIds (k : Nat) (record : QuestRound) :
    (baseView quest k record).runIds = runsOf quest k := by
  unfold baseView debriefed
  split
  · split
    · rfl
    · rfl
  · rfl

theorem flatMap_rounds {α : Type} (f : QuestRoundView → List α) (g : Nat → List α)
    (same : ∀ (k : Nat) (record : QuestRound), (questRoundRecords quest)[k]? = some record →
      ∀ requests, f (summarized quest k
        { baseView quest k record with
          feedbackIndices := entriesOf quest k
          requestIndices := requests
          deliveryIds := deliveriesOf quest k }) = g k) :
    (buildQuestRounds quest).rounds.flatMap f =
      (List.range (questRoundRecords quest).length).flatMap g := by
  have mapped : (buildQuestRounds quest).rounds.map f =
      (List.range (questRoundRecords quest).length).map g := by
    refine List.ext_getElem? fun k => ?_
    rw [List.getElem?_map, List.getElem?_map]
    by_cases inside : k < (questRoundRecords quest).length
    · have there := List.getElem?_eq_getElem inside
      obtain ⟨requests, built⟩ := buildQuestRounds_round quest there
      rw [built, List.getElem?_range inside]
      exact congrArg some (same k _ there requests)
    · rw [List.getElem?_eq_none (by rw [buildQuestRounds_length]; omega),
        List.getElem?_eq_none (by rw [List.length_range]; omega)]
      rfl
  rw [List.flatMap_def, List.flatMap_def, mapped]

end Folds

end Takode.Quests
