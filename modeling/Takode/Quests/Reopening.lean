import Mathlib.Data.List.Find
import Takode.Quests.Partition

/-!
# Rounds after a reopening

When a done quest is reopened, its earlier rounds keep what they held, but for what is asked again
and for what happened after the last round had closed: that is in the new round.
-/

namespace Takode.Quests

open JsString

/-- A done quest that is reopened with other rounds: its record stays, but for the state of its
runs. -/
structure ReopenedAs (quest quest' : Quest) (rounds : List QuestRound) : Prop where
  status : quest'.status ≠ .done
  rounds : quest'.rounds = some rounds
  createdAt : quest'.createdAt = quest.createdAt
  feedback : quest'.feedback = quest.feedback
  codeDeliveries : quest'.codeDeliveries = quest.codeDeliveries
  runs : (quest'.journeyRuns.getD []).map (fun run => (run.runId, run.createdAt)) =
    (quest.journeyRuns.getD []).map fun run => (run.runId, run.createdAt)

/-- Later than everything that is placed in rounds. -/
structure After (quest : Quest) (now : Nat) : Prop where
  feedback : ∀ entry ∈ quest.feedback.getD [], entry.ts < now
  runs : ∀ run ∈ quest.journeyRuns.getD [], run.createdAt < now
  deliveries : ∀ delivery ∈ quest.codeDeliveries.getD [], delivery.recordedAt < now

/-! ## The records -/

section Records

variable {quest : Quest} {input : QuestRoundOpenInput} {now : Nat} {rounds : List QuestRound}

theorem reopenQuestRounds_eq_ok (reopened : reopenQuestRounds quest input now = .ok rounds) :
    ∃ first latest added, questRoundRecords quest = first ++ [latest] ∧
      rounds = first ++ [closeRound quest now latest] ++ [added] ∧
      added.openedAt = now ∧ added.closedAt = none ∧
      (∀ i, i ∈ added.requests.getD [] ↔ i ∈ input.requests.getD []) ∧
      ∀ i ∈ input.requests.getD [], isRequest quest.feedback i = true := by
  unfold reopenQuestRounds at reopened
  simp only at reopened
  split at reopened
  · split at reopened
    · cases reopened
    · rename_i valid
      obtain rfl := pure_eq_ok.mp reopened
      have records := List.dropLast_append_getLast (questRoundRecords_ne_nil quest)
      generalize (questRoundRecords quest).dropLast = first at records
      generalize (questRoundRecords quest).getLast _ = latest at records
      have asked (i : Nat) : i ∈ (input.requests.getD []).eraseDups.insertionSort (· ≤ ·) ↔
          i ∈ input.requests.getD [] := by
        rw [(List.perm_insertionSort _ _).mem_iff, List.mem_eraseDups]
      rw [← records, modify_concat]
      refine ⟨first, latest, _, rfl, rfl, rfl, rfl, ?_, ?_⟩
      · intro i
        exact (by rw [getD_listed] : i ∈ (listed _).getD [] ↔ i ∈ _).trans (asked i)
      · intro i listed
        have none' := List.find?_eq_none.mp valid i ((asked i).mpr listed)
        simpa using none'
  · cases reopened

theorem closeRound_openedAt (latest : QuestRound) :
    (closeRound quest now latest).openedAt = latest.openedAt := by
  have same := congrArg QuestRound.openedAt (closeRound_closed quest now latest).1
  exact same

theorem closeRound_requests (latest : QuestRound) :
    (closeRound quest now latest).requests = latest.requests := by
  have same := congrArg QuestRound.requests (closeRound_closed quest now latest).1
  exact same

theorem closeRound_closedAt (done : quest.status = .done) {completed : Nat}
    (at_ : quest.completedAt = some completed) (latest : QuestRound) :
    (closeRound quest now latest).closedAt = latest.closedAt.or (some completed) := by
  unfold closeRound
  rw [at_]
  cases ended : latest.closedAt with
  | some closed =>
    dsimp only
    split
    · exact ended
    · exact ended
  | none =>
    dsimp only
    rw [if_pos done]
    split
    · rfl
    · rfl

end Records

/-- A note of a run that started after the last round had closed. -/
def lateNote (quest : Quest) (i : Nat) (entry : QuestFeedbackEntry) : Bool :=
  explicitRequest quest i = none && (filled entry.journeyRunId).bind (runRound quest) =
    some (questRoundRecords quest).length

/-- A delivery that was recorded, or whose run started, after the last round had closed. -/
def lateDelivery (quest : Quest) (delivery : QuestCodeDelivery) : Bool :=
  deliveryPlace quest delivery = (questRoundRecords quest).length

/-- A done quest, and the quest that it is reopened as. -/
structure Reopening (quest quest' : Quest) (requests : List Nat) (now completed : Nat)
    (first : List QuestRound) (latest added : QuestRound) : Prop extends After quest now where
  done : quest.status = .done
  completedAt : quest.completedAt = some completed
  reopened : quest'.status ≠ .done
  records : questRoundRecords quest = first ++ [latest]
  records' : questRoundRecords quest' = first ++ [closeRound quest now latest, added]
  opened : added.openedAt = now
  unclosed : added.closedAt = none
  requested (i : Nat) : i ∈ added.requests.getD [] ↔ i ∈ requests
  feedback' : quest'.feedback = quest.feedback
  deliveries' : quest'.codeDeliveries = quest.codeDeliveries
  runs' : (quest'.journeyRuns.getD []).map (fun run => (run.runId, run.createdAt)) =
    (quest.journeyRuns.getD []).map fun run => (run.runId, run.createdAt)

namespace Reopening

variable {quest quest' : Quest} {requests : List Nat} {now completed : Nat}
  {first : List QuestRound} {latest added : QuestRound}

/-! ## Times -/

theorem length_records (r : Reopening quest quest' requests now completed first latest added) :
    (questRoundRecords quest).length = first.length + 1 := by
  rw [r.records, List.length_append, List.length_singleton]

theorem length_records' (r : Reopening quest quest' requests now completed first latest added) :
    (questRoundRecords quest').length = first.length + 2 := by
  rw [r.records', List.length_append]
  rfl

theorem openings (r : Reopening quest quest' requests now completed first latest added) :
    (questRoundRecords quest').map (·.openedAt) =
      (questRoundRecords quest).map (·.openedAt) ++ [now] := by
  rw [r.records, r.records']
  simp [closeRound_openedAt, r.opened]

theorem openedBy_eq (r : Reopening quest quest' requests now completed first latest added) {ts : Nat}
    (before : ts < now) : openedBy quest' ts = openedBy quest ts := by
  have mapped (q : Quest) : openedBy q ts =
      (((questRoundRecords q).map (·.openedAt)).tail.takeWhile (· ≤ ts)).length := by
    unfold openedBy
    rw [← List.map_tail, List.takeWhile_map, List.length_map]
    rfl
  have stops (times : List Nat) : ((times ++ [now]).takeWhile (· ≤ ts)).length =
      (times.takeWhile (· ≤ ts)).length := by
    induction times with
    | nil => simp [before]
    | cons time times ih =>
      rw [List.cons_append, List.takeWhile_cons, List.takeWhile_cons]
      split
      · rw [List.length_cons, List.length_cons, ih]
      · rfl
  have filled : (questRoundRecords quest).map (·.openedAt) ≠ [] := by
    rw [r.records]
    simp
  rw [mapped, mapped, r.openings, List.tail_append_of_ne_nil filled, stops]

theorem closedAt_eq (r : Reopening quest quest' requests now completed first latest added) {k : Nat}
    (inside : k < first.length + 1) : closedAt quest' k = closedAt quest k := by
  have open_ : (if k = (questRoundRecords quest').length - 1 ∧ quest'.status = .done then
      some (quest'.completedAt.getD quest'.createdAt) else none) = none :=
    if_neg fun both => r.reopened both.2
  unfold closedAt
  rw [open_, Option.or_none, r.length_records, r.records, r.records']
  by_cases last : k = first.length
  · subst last
    have here : (first ++ [latest])[first.length]? = some latest := by simp
    have here' : (first ++ [closeRound quest now latest, added])[first.length]? =
        some (closeRound quest now latest) := by simp
    rw [here, here', Option.bind_some, Option.bind_some, closeRound_closedAt r.done r.completedAt,
      if_pos ⟨rfl, r.done⟩, r.completedAt]
    rfl
  · have short : k < first.length := by omega
    rw [List.getElem?_append_left short, List.getElem?_append_left short,
      if_neg (fun both => last (by omega)), Option.or_none]

theorem roundAt_eq (r : Reopening quest quest' requests now completed first latest added) {ts : Nat}
    (before : ts < now) : roundAt quest' ts = roundAt quest ts := by
  have inside := openedBy_lt quest ts
  rw [r.length_records] at inside
  unfold roundAt
  rw [r.openedBy_eq before]
  dsimp only
  rw [r.closedAt_eq inside]

/-! ## Runs -/

theorem runRound_eq (r : Reopening quest quest' requests now completed first latest added)
    (runId : JsString) : runRound quest' runId = runRound quest runId := by
  let key (run : QuestJourneyRun) : JsString × Nat := (run.runId, run.createdAt)
  have sorted (runs : Option (List QuestJourneyRun)) : (sortedRuns runs).map key =
      ((runs.getD []).map key).insertionSort fun a b => a.2 ≤ b.2 :=
    List.map_insertionSort _ _ _ _ fun a _ b _ => Iff.rfl
  have start (q : Quest) : (runOf q runId).map (·.createdAt) =
      ((((q.journeyRuns.getD []).map key).insertionSort fun a b => a.2 ≤ b.2).reverse.find?
        (·.1 = runId)).map (·.2) := by
    unfold runOf
    rw [← sorted, ← List.map_reverse, List.find?_map, Option.map_map]
    rfl
  have same : (runOf quest' runId).map (·.createdAt) = (runOf quest runId).map (·.createdAt) := by
    rw [start, start, r.runs']
  unfold runRound
  cases found : runOf quest runId with
  | none =>
    rw [found] at same
    rw [Option.map_eq_none_iff.mp same]
    rfl
  | some run =>
    rw [found] at same
    obtain ⟨run', found', equal⟩ := Option.map_eq_some_iff.mp same
    have listed := mem_sortedRuns.mp (List.mem_reverse.mp (List.mem_of_find?_eq_some found))
    rw [found', Option.map_some, Option.map_some, equal, r.roundAt_eq (r.runs run listed)]

/-! ## Entries -/

theorem noteRound_eq (r : Reopening quest quest' requests now completed first latest added)
    {entry : QuestFeedbackEntry} (before : entry.ts < now) : noteRound quest' entry =
      if (filled entry.journeyRunId).bind (runRound quest) = some (first.length + 1) then
        some (first.length + 1)
      else noteRound quest entry := by
  have runs : (filled entry.journeyRunId).bind (runRound quest') =
      (filled entry.journeyRunId).bind (runRound quest) := by
    cases filled entry.journeyRunId with
    | none => rfl
    | some runId => exact r.runRound_eq runId
  have next (q : Quest) (k : Nat) : ((questRoundRecords q)[k]?).any (fun next => entry.ts < next.openedAt) =
      (((questRoundRecords q).map (·.openedAt))[k]?).any (fun time => entry.ts < time) := by
    rw [List.getElem?_map, Option.any_map]
  unfold noteRound
  dsimp only
  simp only [runs, next]
  rw [r.openings, r.length_records, r.length_records']
  have length : ((questRoundRecords quest).map (·.openedAt)).length = first.length + 1 := by
    rw [List.length_map, r.length_records]
  generalize (questRoundRecords quest).map (·.openedAt) = times at length
  cases (filled entry.journeyRunId).bind (runRound quest) with
  | none => rfl
  | some index =>
    simp only [Option.filter_some, Option.some.injEq]
    rcases Nat.lt_trichotomy index first.length with early | here | late
    · have same : (times ++ [now])[index + 1]? = times[index + 1]? :=
        List.getElem?_append_left (by omega)
      have other : index ≠ first.length + 1 := by omega
      rw [same, if_neg other]
      have places : (index < first.length + 2 ∧ index ≠ first.length + 1) ∧
          index < first.length + 1 ∧ index ≠ first.length := by omega
      simp [places]
    · subst here
      have same : (times ++ [now])[first.length + 1]? = some now := by
        rw [← length]
        simp
      have other : first.length ≠ first.length + 1 := by omega
      rw [same, if_neg other]
      simp [before]
    · by_cases new : index = first.length + 1
      · subst new
        simp
      · have places : ¬ index < first.length + 2 ∧ ¬ index < first.length + 1 := by omega
        simp [places, new]

theorem explicitRequest_eq (r : Reopening quest quest' requests now completed first latest added)
    (i : Nat) : explicitRequest quest' i =
      if i ∈ requests then some (first.length + 1) else explicitRequest quest i := by
  unfold explicitRequest
  rw [r.length_records', r.length_records, r.records, r.records', List.range_succ,
    List.reverse_append, List.reverse_singleton, List.singleton_append, List.find?_cons]
  have there : (first ++ [closeRound quest now latest, added])[first.length + 1]? = some added := by
    simp
  rw [there, Option.any_some]
  by_cases asked : i ∈ requests
  · rw [if_pos asked, decide_eq_true ((r.requested i).mpr asked)]
  · rw [if_neg asked, decide_eq_false fun listed => asked ((r.requested i).mp listed)]
    refine List.find?_congr fun k inside => ?_
    have short := List.mem_range.mp (List.mem_reverse.mp inside)
    by_cases last : k = first.length
    · subst last
      simp [closeRound_requests]
    · rw [List.getElem?_append_left (by omega), List.getElem?_append_left (by omega)]

theorem entryRound_eq (r : Reopening quest quest' requests now completed first latest added) {i : Nat}
    {entry : QuestFeedbackEntry} (before : entry.ts < now) : entryRound quest' i entry =
      if i ∈ requests ∨ lateNote quest i entry = true then first.length + 1
      else entryRound quest i entry := by
  unfold entryRound lateNote
  rw [r.explicitRequest_eq, r.noteRound_eq before, r.roundAt_eq before, r.length_records]
  by_cases asked : i ∈ requests
  · rw [if_pos asked, if_pos (Or.inl asked)]
    rfl
  · rw [if_neg asked]
    cases explicitRequest quest i with
    | some k => simp [asked]
    | none =>
      by_cases late : (filled entry.journeyRunId).bind (runRound quest) = some (first.length + 1)
      · simp [late]
      · simp [asked, late]

theorem deliveryPlace_eq (r : Reopening quest quest' requests now completed first latest added)
    {delivery : QuestCodeDelivery} (before : delivery.recordedAt < now) :
    deliveryPlace quest' delivery = deliveryPlace quest delivery := by
  let key (run : QuestJourneyRun) : JsString × Nat := (run.runId, run.createdAt)
  have sorted (runs : Option (List QuestJourneyRun)) : (sortedRuns runs).map key =
      ((runs.getD []).map key).insertionSort fun a b => a.2 ≤ b.2 :=
    List.map_insertionSort _ _ _ _ fun a _ b _ => Iff.rfl
  have ids (q : Quest) : ((sortedRuns q.journeyRuns).find? fun candidate =>
      startsWith delivery.phaseOccurrenceId (candidate.runId ++ js ":")).map (·.runId) =
        ((((q.journeyRuns.getD []).map key).insertionSort fun a b => a.2 ≤ b.2).find? fun candidate =>
          startsWith delivery.phaseOccurrenceId (candidate.1 ++ js ":")).map (·.1) := by
    rw [← sorted, List.find?_map, Option.map_map]
    rfl
  have place (q : Quest) : deliveryPlace q delivery =
      ((((sortedRuns q.journeyRuns).find? fun candidate =>
        startsWith delivery.phaseOccurrenceId (candidate.runId ++ js ":")).map (·.runId)).bind
          (runRound q)).getD (roundAt q delivery.recordedAt) := by
    unfold deliveryPlace
    rw [Option.bind_map]
    rfl
  have rounds : runRound quest' = runRound quest := funext r.runRound_eq
  rw [place, place, ids, ids, r.runs', r.roundAt_eq before, rounds]

end Reopening

theorem runRound_le (quest : Quest) {runId : JsString} {place : Nat}
    (found : runRound quest runId = some place) : place ≤ (questRoundRecords quest).length := by
  obtain ⟨run, -, rfl⟩ := Option.map_eq_some_iff.mp found
  exact roundAt_le quest _

theorem deliveryPlace_le (quest : Quest) (delivery : QuestCodeDelivery) :
    deliveryPlace quest delivery ≤ (questRoundRecords quest).length := by
  unfold deliveryPlace
  dsimp only
  cases found : ((sortedRuns quest.journeyRuns).find? fun candidate =>
      startsWith delivery.phaseOccurrenceId (candidate.runId ++ js ":")).bind
        fun run => runRound quest run.runId with
  | none => exact roundAt_le quest _
  | some place =>
    obtain ⟨run, -, placed⟩ := Option.bind_eq_some_iff.mp found
    exact runRound_le quest placed

theorem entryRound_le (quest : Quest) (i : Nat) (entry : QuestFeedbackEntry) :
    entryRound quest i entry ≤ (questRoundRecords quest).length := by
  unfold entryRound
  cases asked : explicitRequest quest i with
  | some k =>
    have inside := List.mem_of_find?_eq_some asked
    exact (List.mem_range.mp (List.mem_reverse.mp inside)).le
  | none =>
    cases noted : noteRound quest entry with
    | none => exact roundAt_le quest _
    | some k =>
      have inside := (Option.filter_eq_some_iff.mp noted).2
      simp only [Bool.and_eq_true, decide_eq_true_eq] at inside
      exact inside.1.le

theorem mem_liveEntries {quest : Quest} {i : Nat} {entry : QuestFeedbackEntry} :
    (i, entry) ∈ liveEntries quest ↔
      (quest.feedback.getD [])[i]? = some entry ∧ entry.deletedAt = none := by
  unfold liveEntries indexedLiveQuestFeedbackEntries
  rw [List.mem_filter, Option.isNone_iff_eq_none, List.mem_iff_getElem?]
  refine and_congr_left fun _ => ?_
  constructor
  · rintro ⟨k, found⟩
    rw [List.getElem?_mapIdx] at found
    obtain ⟨other, there, same⟩ := Option.map_eq_some_iff.mp found
    cases same
    exact there
  · intro there
    exact ⟨i, by rw [List.getElem?_mapIdx, there]; rfl⟩

/-- An entry that is asked for again, or that a late run brings along. -/
def movedEntry (quest : Quest) (requests : List Nat) (i : Nat) : Bool :=
  decide (i ∈ requests) || ((quest.feedback.getD [])[i]?).any (lateNote quest i)

def deliveriesWhere (quest : Quest) (p : QuestCodeDelivery → Bool) : List JsString :=
  ((quest.codeDeliveries.getD []).filter p).map (·.id)

namespace Reopening

variable {quest quest' : Quest} {requests : List Nat} {now completed : Nat}
  {first : List QuestRound} {latest added : QuestRound}

theorem liveEntries_eq (r : Reopening quest quest' requests now completed first latest added) :
    liveEntries quest' = liveEntries quest := by
  unfold liveEntries
  rw [r.feedback']

theorem entry_before (r : Reopening quest quest' requests now completed first latest added)
    {e : Nat × QuestFeedbackEntry} (live : e ∈ liveEntries quest) : e.2.ts < now :=
  r.feedback _ (List.mem_of_getElem? (mem_liveEntries.mp live).1)

theorem entryRound_moved (r : Reopening quest quest' requests now completed first latest added)
    {e : Nat × QuestFeedbackEntry} (live : e ∈ liveEntries quest) : entryRound quest' e.1 e.2 =
      if movedEntry quest requests e.1 = true then first.length + 1
      else entryRound quest e.1 e.2 := by
  have same : movedEntry quest requests e.1 = true ↔
      e.1 ∈ requests ∨ lateNote quest e.1 e.2 = true := by
    unfold movedEntry
    rw [(mem_liveEntries.mp live).1]
    simp
  rw [r.entryRound_eq (r.entry_before live)]
  by_cases moved : e.1 ∈ requests ∨ lateNote quest e.1 e.2 = true
  · rw [if_pos moved, if_pos (same.mpr moved)]
  · rw [if_neg moved, if_neg (moved ∘ same.mp)]

theorem entriesOf_eq (r : Reopening quest quest' requests now completed first latest added) {k : Nat}
    (early : k < first.length + 1) : entriesOf quest' k =
      (entriesOf quest k).filter fun i => !movedEntry quest requests i := by
  unfold entriesOf
  rw [r.liveEntries_eq, List.filter_map, List.filter_filter]
  refine congrArg _ (List.filter_congr fun e live => ?_)
  rw [r.entryRound_moved live]
  cases moved : movedEntry quest requests e.1 with
  | true =>
    have other : first.length + 1 ≠ k := by omega
    simp [moved, other]
  | false => simp [moved]

theorem mem_entriesOf_new (r : Reopening quest quest' requests now completed first latest added)
    (i : Nat) : i ∈ entriesOf quest' (first.length + 1) ↔
      i ∈ (buildQuestRounds quest).pendingFeedbackIndices ∨
        i ∈ (liveEntries quest).map (·.1) ∧ movedEntry quest requests i = true := by
  rw [buildQuestRounds_pending, r.length_records]
  unfold entriesOf
  rw [r.liveEntries_eq]
  simp only [List.mem_map, List.mem_filter, decide_eq_true_eq]
  constructor
  · rintro ⟨e, ⟨live, here⟩, rfl⟩
    rw [r.entryRound_moved live] at here
    by_cases moved : movedEntry quest requests e.1 = true
    · exact Or.inr ⟨⟨e, live, rfl⟩, moved⟩
    · rw [if_neg moved] at here
      exact Or.inl ⟨e, ⟨live, here.ge⟩, rfl⟩
  · rintro (⟨e, ⟨live, late⟩, rfl⟩ | ⟨⟨e, live, rfl⟩, moved⟩)
    · refine ⟨e, ⟨live, ?_⟩, rfl⟩
      have most := entryRound_le quest e.1 e.2
      rw [r.length_records] at most
      rw [r.entryRound_moved live]
      split
      · rfl
      · omega
    · refine ⟨e, ⟨live, ?_⟩, rfl⟩
      rw [r.entryRound_moved live, if_pos moved]

theorem pending_eq (r : Reopening quest quest' requests now completed first latest added) :
    (buildQuestRounds quest').pendingFeedbackIndices = [] := by
  rw [buildQuestRounds_pending, r.length_records', r.liveEntries_eq]
  have none' : ((liveEntries quest).filter fun e =>
      first.length + 2 ≤ entryRound quest' e.1 e.2) = [] := by
    refine List.filter_eq_nil_iff.mpr fun e live => ?_
    have most := entryRound_le quest e.1 e.2
    rw [r.length_records] at most
    rw [r.entryRound_moved live, decide_eq_true_eq]
    split <;> omega
  rw [none']
  rfl

theorem deliveriesOf_eq (r : Reopening quest quest' requests now completed first latest added)
    {k : Nat} (early : k < first.length + 1) : deliveriesOf quest' k =
      deliveriesWhere quest fun d => deliveryRound quest d = k && !lateDelivery quest d := by
  unfold deliveriesOf deliveriesWhere
  rw [r.deliveries']
  refine congrArg _ (List.filter_congr fun d listed => ?_)
  have most := deliveryPlace_le quest d
  rw [r.length_records] at most
  unfold deliveryRound lateDelivery
  rw [r.deliveryPlace_eq (r.deliveries d listed), r.length_records', r.length_records,
    Bool.eq_iff_iff]
  simp only [decide_eq_true_eq, Bool.and_eq_true, Bool.not_eq_true', decide_eq_false_iff_not]
  omega

theorem deliveriesOf_new (r : Reopening quest quest' requests now completed first latest added) :
    deliveriesOf quest' (first.length + 1) = deliveriesWhere quest (lateDelivery quest) := by
  unfold deliveriesOf deliveriesWhere
  rw [r.deliveries']
  refine congrArg _ (List.filter_congr fun d listed => ?_)
  have most := deliveryPlace_le quest d
  rw [r.length_records] at most
  unfold deliveryRound lateDelivery
  rw [r.deliveryPlace_eq (r.deliveries d listed), r.length_records', r.length_records,
    Bool.eq_iff_iff]
  simp only [decide_eq_true_eq]
  omega

theorem runsOf_eq (r : Reopening quest quest' requests now completed first latest added) (k : Nat) :
    runsOf quest' k = runsOf quest k := by
  let key (run : QuestJourneyRun) : JsString × Nat := (run.runId, run.createdAt)
  have ids (q : Quest) : runsOf q k =
      (((((q.journeyRuns.getD []).map key).insertionSort fun a b => a.2 ≤ b.2).map (·.1)).filter
        fun runId => runRound q runId = some k) := by
    unfold runsOf sortedRuns
    have sorted : (((q.journeyRuns.getD []).insertionSort fun a b => a.createdAt ≤ b.createdAt).map
        key) = ((q.journeyRuns.getD []).map key).insertionSort fun a b => a.2 ≤ b.2 :=
      List.map_insertionSort _ _ _ _ fun a _ b _ => Iff.rfl
    rw [← sorted, List.map_map, List.filter_map]
    rfl
  have rounds : runRound quest' = runRound quest := funext r.runRound_eq
  rw [ids, ids, r.runs', rounds]

/-! ## Outcomes -/

theorem outcome_closed (r : Reopening quest quest' requests now completed first latest added) :
    let base := debriefed quest (roundView quest first.length latest)
    let closed := closeRound quest now latest
    filled closed.outcome = base.outcome ∧ filled closed.outcomeTldr = base.outcomeTldr := by
  have kept (text : Option JsString) : filled (text.bind nonempty) = text.bind nonempty := by
    cases text with
    | none => rfl
    | some text =>
      rw [Option.bind_some]
      cases found : nonempty text with
      | none => rfl
      | some trimmed =>
        have full : trimmed ≠ [] := (nonempty_eq_some.mp found).2
        simp [filled, full]
  have or_ (text other : Option JsString) : filled ((text.bind nonempty).or other) =
      (text.bind nonempty).or (filled other) := by
    cases found : text.bind nonempty with
    | none => rw [Option.none_or, Option.none_or]
    | some trimmed =>
      have same := kept text
      rw [found] at same
      rw [Option.some_or, Option.some_or, same]
  have closing : (closeRound quest now latest).outcome =
        (if quest.cancelled ≠ some true ∧ filled latest.outcome = none then
          (quest.debrief.bind nonempty).or latest.outcome else latest.outcome) ∧
      (closeRound quest now latest).outcomeTldr =
        (if quest.cancelled ≠ some true ∧ filled latest.outcome = none then
          (quest.debriefTldr.bind nonempty).or latest.outcomeTldr else latest.outcomeTldr) := by
    unfold closeRound
    by_cases unsaid : quest.cancelled ≠ some true ∧ filled latest.outcome = none
    · cases latest.closedAt with
      | none => simp [unsaid, r.done]
      | some closed => simp [unsaid, r.done]
    · rw [if_neg unsaid, if_neg unsaid]
      rw [not_and] at unsaid
      cases latest.closedAt with
      | none =>
        dsimp only
        split
        · rename_i said
          simp only [Bool.and_eq_true, decide_eq_true_eq, Option.isNone_iff_eq_none] at said
          exact absurd said.2 (unsaid said.1.2)
        · exact ⟨rfl, rfl⟩
      | some closed =>
        dsimp only
        split
        · rename_i said
          simp only [Bool.and_eq_true, decide_eq_true_eq, Option.isNone_iff_eq_none] at said
          exact absurd said.2 (unsaid said.1.2)
        · exact ⟨rfl, rfl⟩
  dsimp only
  rw [closing.1, closing.2]
  unfold debriefed
  by_cases unsaid : quest.cancelled ≠ some true ∧ filled latest.outcome = none
  · rw [if_pos unsaid, if_pos unsaid, if_pos ⟨r.done, unsaid⟩, or_, or_, unsaid.2, Option.or_none]
    exact ⟨rfl, rfl⟩
  · rw [if_neg unsaid, if_neg unsaid, if_neg fun all => unsaid all.2]
    exact ⟨rfl, rfl⟩

theorem baseView_eq (r : Reopening quest quest' requests now completed first latest added) {k : Nat}
    (early : k < first.length + 1) {record record' : QuestRound}
    (there : (questRoundRecords quest)[k]? = some record)
    (there' : (questRoundRecords quest')[k]? = some record') :
    (baseView quest' k record').outcome = (baseView quest k record).outcome ∧
      (baseView quest' k record').outcomeTldr = (baseView quest k record).outcomeTldr ∧
      (baseView quest' k record').isOpen = (baseView quest k record).isOpen := by
  have ended := r.closedAt_eq early
  have plain (record : QuestRound) : (debriefed quest (roundView quest k record)).isOpen =
      (roundView quest k record).isOpen := by
    unfold debriefed
    split
    · rfl
    · rfl
  unfold baseView
  rw [r.length_records', r.length_records, if_neg (by omega)]
  rw [r.records] at there
  rw [r.records'] at there'
  by_cases last : k = first.length
  · subst last
    obtain rfl : latest = record := by simpa using there
    obtain rfl : closeRound quest now latest = record' := by simpa using there'
    obtain ⟨outcome, tldr⟩ := @r.outcome_closed
    have here : first.length = first.length + 1 - 1 := rfl
    rw [if_pos here, plain]
    exact ⟨outcome, tldr, congrArg Option.isNone ended⟩
  · rw [List.getElem?_append_left (by omega)] at there there'
    obtain rfl : record = record' := Option.some.inj (there.symm.trans there')
    rw [if_neg (by omega)]
    exact ⟨rfl, rfl, congrArg Option.isNone ended⟩

end Reopening

/-- What becomes of a round when its quest is reopened. -/
structure KeptRound (quest : Quest) (requests : List Nat) (k : Nat) (round round' : QuestRoundView) :
    Prop where
  runIds : round'.runIds = round.runIds
  outcome : round'.outcome = round.outcome
  feedbackIndices : round'.feedbackIndices =
    round.feedbackIndices.filter fun i => !movedEntry quest requests i
  outcomeTldr : round'.feedbackIndices = round.feedbackIndices →
    round'.outcomeTldr = round.outcomeTldr
  deliveries : round.deliveryIds = deliveriesWhere quest fun d => deliveryRound quest d = k
  deliveryIds : round'.deliveryIds =
    deliveriesWhere quest fun d => deliveryRound quest d = k && !lateDelivery quest d

theorem Reopening.keptRound {quest quest' : Quest} {requests : List Nat} {now completed : Nat}
    {first : List QuestRound} {latest added : QuestRound}
    (r : Reopening quest quest' requests now completed first latest added) {k : Nat}
    {round : QuestRoundView} (there : (buildQuestRounds quest).rounds[k]? = some round) :
    ∃ round', (buildQuestRounds quest').rounds[k]? = some round' ∧
      KeptRound quest requests k round round' := by
  have early : k < first.length + 1 := by
    rw [← r.length_records, ← buildQuestRounds_length]
    exact (List.getElem?_eq_some_iff.mp there).1
  obtain ⟨record, found⟩ : ∃ record, (questRoundRecords quest)[k]? = some record :=
    ⟨_, List.getElem?_eq_getElem (by rw [r.length_records]; exact early)⟩
  obtain ⟨record', found'⟩ : ∃ record', (questRoundRecords quest')[k]? = some record' :=
    ⟨_, List.getElem?_eq_getElem (by rw [r.length_records']; omega)⟩
  obtain ⟨asked, built⟩ := buildQuestRounds_round quest found
  obtain ⟨asked', built'⟩ := buildQuestRounds_round quest' found'
  obtain rfl := Option.some.inj (built.symm.trans there)
  obtain ⟨outcome, tldr, isOpen⟩ := r.baseView_eq early found found'
  refine ⟨_, built', ?_⟩
  constructor
  · show (baseView quest' k record').runIds = (baseView quest k record).runIds
    rw [baseView_runIds, baseView_runIds, r.runsOf_eq]
  · exact outcome
  · exact r.entriesOf_eq early
  · intro same
    have same : entriesOf quest' k = entriesOf quest k := same
    unfold summarized
    dsimp only
    rw [same, tldr, isOpen, r.feedback']
  · rfl
  · exact r.deliveriesOf_eq early

/-- The new round of a reopened quest. -/
theorem Reopening.newRound {quest quest' : Quest} {requests : List Nat} {now completed : Nat}
    {first : List QuestRound} {latest added : QuestRound}
    (r : Reopening quest quest' requests now completed first latest added) :
    ∃ new, (buildQuestRounds quest').rounds[(buildQuestRounds quest).rounds.length]? = some new ∧
      (∀ i, i ∈ new.feedbackIndices ↔ i ∈ (buildQuestRounds quest).pendingFeedbackIndices ∨
        i ∈ (liveEntries quest).map (·.1) ∧ movedEntry quest requests i = true) ∧
      new.deliveryIds = deliveriesWhere quest (lateDelivery quest) := by
  have found : (questRoundRecords quest')[first.length + 1]? = some added := by
    rw [r.records']
    simp
  obtain ⟨asked, built⟩ := buildQuestRounds_round quest' found
  rw [buildQuestRounds_length, r.length_records]
  exact ⟨_, built, r.mem_entriesOf_new, r.deliveriesOf_new⟩

/-! ## What is late -/

/-- A time or the start of a run after the last round had closed. -/
def AfterClose (quest : Quest) (ts : Nat) : Prop :=
  ∃ closed, closedAt quest ((questRoundRecords quest).length - 1) = some closed ∧ closed < ts

/-- The rounds of a quest partition its record; and a done quest that is reopened keeps its rounds,
but for what is asked for again and for what happened after the last of them had closed. -/
theorem quest_rounds_partition (quest : Quest) :
    (((liveEntries quest).map (·.1)).Nodup ∧
      ((buildQuestRounds quest).rounds.flatMap (·.feedbackIndices) ++
        (buildQuestRounds quest).pendingFeedbackIndices).Perm ((liveEntries quest).map (·.1))) ∧
    ((buildQuestRounds quest).rounds.flatMap (·.deliveryIds)).Perm
      ((quest.codeDeliveries.getD []).map (·.id)) ∧
    (((buildQuestRounds quest).rounds.flatMap (·.runIds)).Perm
        (((quest.journeyRuns.getD []).filter fun run => !startedLate quest run).map (·.runId)) ∧
      ∀ run, startedLate quest run = true → ∃ latest ∈ quest.journeyRuns.getD [],
        latest.runId = run.runId ∧ AfterClose quest latest.createdAt) ∧
    ∀ completed, quest.status = .done → quest.completedAt = some completed →
      ∀ input now rounds quest', After quest now → reopenQuestRounds quest input now = .ok rounds →
        ReopenedAs quest quest' rounds →
        (buildQuestRounds quest').pendingFeedbackIndices = [] ∧
        (∀ k round, (buildQuestRounds quest).rounds[k]? = some round → ∃ round',
          (buildQuestRounds quest').rounds[k]? = some round' ∧
            KeptRound quest (input.requests.getD []) k round round') ∧
        (∃ new, (buildQuestRounds quest').rounds[(buildQuestRounds quest).rounds.length]? = some new ∧
          (∀ i, i ∈ new.feedbackIndices ↔ i ∈ (buildQuestRounds quest).pendingFeedbackIndices ∨
            i ∈ (liveEntries quest).map (·.1) ∧
              movedEntry quest (input.requests.getD []) i = true) ∧
          new.deliveryIds = deliveriesWhere quest (lateDelivery quest)) ∧
        (buildQuestRounds quest').rounds.length = (buildQuestRounds quest).rounds.length + 1 := by
  refine ⟨⟨liveEntries_nodup quest, entries_dealt quest⟩, deliveries_dealt quest,
    ⟨runs_dealt quest, ?_⟩, ?_⟩
  · intro run late
    obtain ⟨closed, latest, ended, found, after⟩ := startedLate_after quest late
    refine ⟨latest, mem_sortedRuns.mp (List.mem_reverse.mp (List.mem_of_find?_eq_some found)), ?_,
      closed, ended, after⟩
    simpa using List.find?_some found
  · intro completed done at_ input now rounds quest' later reopened became
    obtain ⟨first, latest, added, records, rfl, opened, unclosed, requested, -⟩ :=
      reopenQuestRounds_eq_ok reopened
    have stored : questRoundRecords quest' = first ++ [closeRound quest now latest, added] := by
      unfold questRoundRecords
      have full : filled quest'.rounds = some (first ++ [closeRound quest now latest] ++ [added]) := by
        rw [became.rounds, filled, Option.filter_some, if_pos (by simp)]
      rw [full]
      exact List.append_assoc _ _ _
    have r : Reopening quest quest' (input.requests.getD []) now completed first latest added :=
      ⟨later, done, at_, became.status, records, stored, opened, unclosed, requested,
        became.feedback, became.codeDeliveries, became.runs⟩
    refine ⟨r.pending_eq, fun k round there => r.keptRound there, r.newRound, ?_⟩
    rw [buildQuestRounds_length, buildQuestRounds_length, r.length_records, r.length_records']

section Example

/-- A quest that was done at 10. -/
def finishedQuest : Quest where
  id := js "q-1"
  questId := js "q-1"
  version := 1
  title := js "Title"
  createdAt := 0
  status := .done
  completedAt := some 10

def nextRound : QuestRoundOpenInput := { title := js "Next" }

def boardRun (runId : JsString) (createdAt : Nat) : QuestJourneyRun :=
  { runId, source := .manual, status := .completed, createdAt, phaseOccurrences := [] }

/-- A delivery that was recorded when the quest was done. -/
def deliveredLate : Quest := { finishedQuest with
  codeDeliveries := some [⟨js "d-1", 20, js "s-1", js "abcdef1", [], .null⟩] }

/-- A note of a run that started when the quest was done, with a time before that. -/
def notedLate : Quest := { finishedQuest with
  journeyRuns := some [boardRun (js "r-1") 15]
  feedback := some [{ author := .agent, text := js "Note", ts := 5, journeyRunId := some (js "r-1") }] }

/-- The quest with a new round. -/
def reopenedQuest (quest : Quest) (now : Nat) : Quest := { quest with
  status := .refined
  rounds := (reopenQuestRounds quest nextRound now).toOption }

/-- A reopening moves a delivery and a note out of the last round; and a run is in no round where the
stored rounds of an open quest are closed, or where a later run has its id. -/
theorem rounds_lost :
    ((buildQuestRounds deliveredLate).rounds.map (·.deliveryIds) = [[js "d-1"]] ∧
      (buildQuestRounds (reopenedQuest deliveredLate 30)).rounds.map (·.deliveryIds) =
        [[], [js "d-1"]]) ∧
    ((buildQuestRounds notedLate).rounds.map (·.feedbackIndices) = [[0]] ∧
      (buildQuestRounds (reopenedQuest notedLate 30)).rounds.map (·.feedbackIndices) = [[], [0]]) ∧
    (buildQuestRounds { finishedQuest with
      status := .inProgress
      completedAt := none
      rounds := some [{ openedAt := 0, closedAt := some 5 }]
      journeyRuns := some [boardRun (js "r-1") 8] }).rounds.map (·.runIds) = [[]] ∧
    (buildQuestRounds { finishedQuest with
      journeyRuns := some [boardRun (js "r-1") 5, boardRun (js "r-1") 15] }).rounds.map (·.runIds) =
        [[]] :=
  ⟨⟨by decide +kernel, by decide +kernel⟩, ⟨by decide +kernel, by decide +kernel⟩,
    by decide +kernel, by decide +kernel⟩

end Example

end Takode.Quests
