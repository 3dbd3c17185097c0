import Takode.Journeys.Plans
import Takode.Lib.Occurrences

/-!
# Revising a Journey

A suffix of the phases is replaced. Notes follow the occurrence of their phase, and a note whose
occurrence is gone is reported (`rebaseQuestJourneyPhaseNotes`, `reviseQuestJourneySuffix`).
-/

namespace Takode.Journeys

open JsString

structure QuestJourneyPhaseNoteRebaseWarning where
  previousIndex : Nat
  previousPhaseId : JsString
  previousOccurrence : Nat
  note : JsString
deriving DecidableEq

structure QuestJourneyPhaseNoteRebaseResult where
  phaseNotes : Option (Record JsString)
  warnings : List QuestJourneyPhaseNoteRebaseWarning
deriving DecidableEq

structure QuestJourneySuffixRevision where
  existingPhaseIds : List JsString
  fromIndex : Int
  expectedPhaseId : JsString
  replacementPhaseIds : List JsString
  existingPhaseNotes : Option (Record JsString)
  replacementPhaseNotes : Option (Record JsString)

structure QuestJourneySuffixRevisionResult where
  phaseIds : List JsString
  phaseNotes : Option (Record JsString)
  warnings : List QuestJourneyPhaseNoteRebaseWarning
deriving DecidableEq

/-! ## Notes -/

section Rebasing

variable (previousPhaseIds nextPhaseIds : List JsString)

/-- `previousPhaseOccurrencesByIndex.get(index)`: occurrences are counted from one. -/
def previousOccurrence (phaseId : JsString) (index : Nat) : Nat := rank previousPhaseIds phaseId (index + 1)

/-- `nextPhaseOccurrenceIndices.get(phaseId)?.[occurrence - 1]`, of the phase at a position. -/
def targetIndex (index : Nat) : Option Nat :=
  previousPhaseIds[index]?.bind fun phaseId =>
    (getQuestJourneyPhaseIndices nextPhaseIds phaseId)[
      previousOccurrence previousPhaseIds phaseId index - 1]?

/-- What is reported of a note that has no place. -/
def rebaseWarning (entry : Nat × JsString) : Option QuestJourneyPhaseNoteRebaseWarning :=
  previousPhaseIds[entry.1]?.bind fun phaseId =>
    if (targetIndex previousPhaseIds nextPhaseIds entry.1).isSome then none
    else some ⟨entry.1, phaseId, previousOccurrence previousPhaseIds phaseId entry.1, entry.2⟩

/-- Where a note goes. -/
def rebaseEntry (entry : Nat × JsString) : Option (Nat × JsString) :=
  (targetIndex previousPhaseIds nextPhaseIds entry.1).map fun target => (target, entry.2)

/-- `Object.fromEntries` of notes by position. -/
def sortedNotes (entries : List (Nat × JsString)) : Option (Record JsString) :=
  if entries = [] then none
  else some (Record.ofPositions (entries.insertionSort fun a b => a.1 ≤ b.1))

def rebaseQuestJourneyPhaseNotes (existingNotes : Option (Record JsString)) :
    QuestJourneyPhaseNoteRebaseResult :=
  match existingNotes with
  | none => ⟨none, []⟩
  | some existingNotes =>
    let entries := existingNotes.positionEntries nonempty previousPhaseIds.length
    { phaseNotes := sortedNotes (entries.filterMap (rebaseEntry previousPhaseIds nextPhaseIds))
      warnings := entries.filterMap (rebaseWarning previousPhaseIds nextPhaseIds) }

end Rebasing

/-! ## Where notes go -/

/-- The note of a position. -/
def noteAt (notes : Option (Record JsString)) (index : Nat) : Option JsString :=
  (notes.getD ∅).get? (decimal index)

/-- What is reported about the note of a position. -/
def warningsAbout (warnings : List QuestJourneyPhaseNoteRebaseWarning) (index : Nat) :
    List QuestJourneyPhaseNoteRebaseWarning :=
  warnings.filter fun warning => warning.previousIndex = index

/-- Two positions have the same occurrence of one phase. -/
def SameOccurrence (previousPhaseIds nextPhaseIds : List JsString) (index index' : Nat) : Prop :=
  ∃ phaseId, previousPhaseIds[index]? = some phaseId ∧ nextPhaseIds[index']? = some phaseId ∧
    rank previousPhaseIds phaseId index = rank nextPhaseIds phaseId index'

theorem sameOccurrence_self {phaseIds : List JsString} {index : Nat} (below : index < phaseIds.length) :
    SameOccurrence phaseIds phaseIds index index :=
  ⟨phaseIds[index], List.getElem?_eq_getElem below, List.getElem?_eq_getElem below, rfl⟩

section Targets

variable {previousPhaseIds nextPhaseIds : List JsString} {i i' j j' : Nat}

theorem SameOccurrence.source_unique (first : SameOccurrence previousPhaseIds nextPhaseIds i j)
    (second : SameOccurrence previousPhaseIds nextPhaseIds i' j) : i = i' := by
  obtain ⟨phaseId, there, found, same⟩ := first
  obtain ⟨phaseId', there', found', same'⟩ := second
  rw [found] at found'
  cases found'
  exact rank_injective there there' (same.trans same'.symm)

theorem sameOccurrence_of_take {phaseIds rest : List JsString} {count : Nat} (before : i < count)
    (below : i < phaseIds.length) : SameOccurrence phaseIds (phaseIds.take count ++ rest) i i := by
  have within : i < (phaseIds.take count).length := by
    rw [List.length_take]
    omega
  refine ⟨phaseIds[i], List.getElem?_eq_getElem below, ?_, ?_⟩
  · rw [List.getElem?_append_left within, List.getElem?_take_of_lt before,
      List.getElem?_eq_getElem below]
  · rw [rank_append (Nat.le_of_lt within)]
    unfold rank
    rw [List.take_take, Nat.min_eq_left (Nat.le_of_lt before)]

theorem targetIndex_eq_some :
    targetIndex previousPhaseIds nextPhaseIds i = some j ↔
      SameOccurrence previousPhaseIds nextPhaseIds i j := by
  unfold targetIndex SameOccurrence previousOccurrence
  rw [Option.bind_eq_some_iff]
  refine exists_congr fun phaseId => and_congr_right fun there => ?_
  rw [rank_succ there, Nat.add_sub_cancel]
  exact (getElem?_indicesOf nextPhaseIds phaseId _ j).trans (and_congr_right fun _ => eq_comm)

end Targets

section Sorted

variable {entries : List (Nat × JsString)}

theorem noteAt_sortedNotes (distinct : (entries.map Prod.fst).Nodup) {index : Nat} {note : JsString} :
    noteAt (sortedNotes entries) index = some note ↔ (index, note) ∈ entries := by
  unfold noteAt sortedNotes
  split
  · rename_i none
    rw [none]
    exact iff_of_false (fun found => by cases found) List.not_mem_nil
  · have sorted := ((List.perm_insertionSort (fun a b => a.1 ≤ b.1) entries).map Prod.fst).nodup_iff.mpr
      distinct
    rw [Option.getD_some, Record.get?_ofPositions sorted, List.mem_insertionSort]

theorem keyed_sortedNotes {count : Nat} (below : ∀ entry ∈ entries, entry.1 < count) :
    ((sortedNotes entries).getD ∅).KeyedByPosition count := by
  unfold sortedNotes
  split
  · intro key listed
    cases listed
  · refine (Record.isPositional_ofPositions (List.pairwise_insertionSort _ _) ?_).keyed
    intro entry listed
    exact below entry ((List.mem_insertionSort _).mp listed)

end Sorted

/-! ## Notes that are rebased -/

section Rebased

variable {previousPhaseIds nextPhaseIds : List JsString} {existingNotes : Option (Record JsString)}

/-- The notes of a plan as they are read, in order. -/
def existingEntries (previousPhaseIds : List JsString) (existingNotes : Option (Record JsString)) :
    List (Nat × JsString) :=
  (existingNotes.getD ∅).positionEntries nonempty previousPhaseIds.length

theorem rebase_eq :
    rebaseQuestJourneyPhaseNotes previousPhaseIds nextPhaseIds existingNotes =
      ⟨sortedNotes ((existingEntries previousPhaseIds existingNotes).filterMap
          (rebaseEntry previousPhaseIds nextPhaseIds)),
        (existingEntries previousPhaseIds existingNotes).filterMap
          (rebaseWarning previousPhaseIds nextPhaseIds)⟩ := by
  cases existingNotes with
  | none => rfl
  | some record => rfl

theorem previousIndex_lt {warning : QuestJourneyPhaseNoteRebaseWarning}
    (listed : warning ∈ (rebaseQuestJourneyPhaseNotes previousPhaseIds nextPhaseIds
      existingNotes).warnings) : warning.previousIndex < previousPhaseIds.length := by
  rw [rebase_eq] at listed
  obtain ⟨entry, -, found⟩ := List.mem_filterMap.mp listed
  obtain ⟨phaseId, there, reported⟩ := Option.bind_eq_some_iff.mp found
  split at reported
  · cases reported
  · cases reported
    exact (List.getElem?_eq_some_iff.mp there).1

theorem warnings_of_placed {index target : Nat}
    (same : SameOccurrence previousPhaseIds nextPhaseIds index target) :
    warningsAbout (rebaseQuestJourneyPhaseNotes previousPhaseIds nextPhaseIds existingNotes).warnings
      index = [] := by
  unfold warningsAbout
  rw [rebase_eq, List.filter_eq_nil_iff]
  intro warning listed about
  obtain ⟨entry, -, found⟩ := List.mem_filterMap.mp listed
  obtain ⟨phaseId, -, reported⟩ := Option.bind_eq_some_iff.mp found
  have there := targetIndex_eq_some.mpr same
  split at reported
  · cases reported
  · rename_i missing
    cases reported
    have index' : entry.1 = index := of_decide_eq_true about
    rw [index', there] at missing
    exact missing rfl

variable (keyed : (existingNotes.getD ∅).KeyedByPosition previousPhaseIds.length)

include keyed

theorem mem_existingEntries {index : Nat} {note : JsString} :
    (index, note) ∈ existingEntries previousPhaseIds existingNotes ↔
      (noteAt existingNotes index).bind nonempty = some note :=
  keyed.mem_positionEntries

theorem nodup_rebaseEntries :
    (((existingEntries previousPhaseIds existingNotes).filterMap
      (rebaseEntry previousPhaseIds nextPhaseIds)).map Prod.fst).Nodup := by
  have distinct : (existingEntries previousPhaseIds existingNotes).Pairwise (·.1 ≠ ·.1) :=
    List.pairwise_map.mp keyed.nodup_positionEntries
  refine List.pairwise_map.mpr (List.pairwise_filterMap.mpr (distinct.imp ?_))
  intro a b other x first y second same
  obtain ⟨target, found, rfl⟩ := Option.map_eq_some_iff.mp first
  obtain ⟨target', found', rfl⟩ := Option.map_eq_some_iff.mp second
  cases same
  exact other ((targetIndex_eq_some.mp found).source_unique (targetIndex_eq_some.mp found'))

theorem mem_rebaseEntries {index : Nat} {note : JsString} :
    (index, note) ∈ (existingEntries previousPhaseIds existingNotes).filterMap
        (rebaseEntry previousPhaseIds nextPhaseIds) ↔
      ∃ source, (noteAt existingNotes source).bind nonempty = some note ∧
        SameOccurrence previousPhaseIds nextPhaseIds source index := by
  rw [List.mem_filterMap]
  constructor
  · rintro ⟨⟨source, note'⟩, listed, found⟩
    obtain ⟨target, there, same⟩ := Option.map_eq_some_iff.mp found
    cases same
    exact ⟨source, (mem_existingEntries keyed).mp listed, targetIndex_eq_some.mp there⟩
  · rintro ⟨source, found, same⟩
    refine ⟨(source, note), (mem_existingEntries keyed).mpr found, ?_⟩
    unfold rebaseEntry
    rw [targetIndex_eq_some.mpr same]
    rfl

theorem noteAt_rebase {index : Nat} {note : JsString} :
    noteAt (rebaseQuestJourneyPhaseNotes previousPhaseIds nextPhaseIds existingNotes).phaseNotes index =
        some note ↔
      ∃ source, (noteAt existingNotes source).bind nonempty = some note ∧
        SameOccurrence previousPhaseIds nextPhaseIds source index := by
  rw [rebase_eq]
  exact (noteAt_sortedNotes (nodup_rebaseEntries keyed)).trans (mem_rebaseEntries keyed)

theorem keyed_rebase :
    ((rebaseQuestJourneyPhaseNotes previousPhaseIds nextPhaseIds existingNotes).phaseNotes.getD
      ∅).KeyedByPosition nextPhaseIds.length := by
  rw [rebase_eq]
  refine keyed_sortedNotes fun entry listed => ?_
  obtain ⟨source, -, phaseId, -, there, -⟩ := (mem_rebaseEntries keyed).mp listed
  exact (List.getElem?_eq_some_iff.mp there).1

theorem warnings_of_missing {index : Nat} {phaseId note : JsString}
    (there : previousPhaseIds[index]? = some phaseId)
    (found : (noteAt existingNotes index).bind nonempty = some note)
    (missing : ∀ target, ¬ SameOccurrence previousPhaseIds nextPhaseIds index target) :
    warningsAbout (rebaseQuestJourneyPhaseNotes previousPhaseIds nextPhaseIds existingNotes).warnings
        index =
      [⟨index, phaseId, rank previousPhaseIds phaseId index + 1, note⟩] := by
  have none : targetIndex previousPhaseIds nextPhaseIds index = none := by
    cases target : targetIndex previousPhaseIds nextPhaseIds index with
    | none => rfl
    | some target' => exact absurd (targetIndex_eq_some.mp target) (missing target')
  have reported : rebaseWarning previousPhaseIds nextPhaseIds (index, note) =
      some ⟨index, phaseId, rank previousPhaseIds phaseId index + 1, note⟩ := by
    unfold rebaseWarning previousOccurrence
    rw [there, Option.bind_some, none, if_neg (by decide), rank_succ there]
  have listed := (mem_existingEntries keyed).mpr found
  have distinct : ((existingEntries previousPhaseIds existingNotes).map Prod.fst).Nodup :=
    keyed.nodup_positionEntries
  unfold warningsAbout
  rw [rebase_eq]
  dsimp only
  -- What stands before and after the note is about other positions.
  obtain ⟨before, after, split⟩ := List.append_of_mem listed
  rw [split, List.map_append, List.map_cons, List.nodup_middle, List.nodup_cons,
    List.mem_append] at distinct
  have others : ∀ rest : List (Nat × JsString), index ∉ rest.map Prod.fst →
      (rest.filterMap (rebaseWarning previousPhaseIds nextPhaseIds)).filter
        (fun warning => warning.previousIndex = index) = [] := by
    intro rest outside
    rw [List.filter_eq_nil_iff]
    intro warning inside about
    obtain ⟨entry, member, found⟩ := List.mem_filterMap.mp inside
    obtain ⟨_, -, reported⟩ := Option.bind_eq_some_iff.mp found
    split at reported
    · cases reported
    · cases reported
      have index' : entry.1 = index := of_decide_eq_true about
      exact outside (index' ▸ List.mem_map_of_mem member)
  rw [split, List.filterMap_append, List.filterMap_cons, reported]
  dsimp only
  rw [List.filter_append, List.filter_cons, if_pos (by simp),
    others before fun inside => distinct.1 (.inl inside),
    others after fun inside => distinct.1 (.inr inside), List.nil_append]

end Rebased

/-! ## Suffixes -/

/-- The notes for the replacement that are of use, at their positions in the whole. -/
def replacementEntries (fromIndex replacementCount : Nat) (notes : Option (Record JsString)) :
    List (JsString × JsString) :=
  (notes.getD ∅).ownEntries.filterMap fun entry =>
    (position entry.1 replacementCount).bind fun relativeIndex =>
      (nonempty entry.2).map fun note => (decimal (fromIndex + relativeIndex), note)

namespace Casing

variable (casing : Casing)

def phaseLabel (phaseId : JsString) : JsString :=
  ((casing.getQuestJourneyPhase (some phaseId)).map (·.label)).getD phaseId

def reviseQuestJourneySuffix (revision : QuestJourneySuffixRevision) :
    Except JsString QuestJourneySuffixRevisionResult :=
  let existingPhaseIds := casing.normalizeKnownQuestJourneyPhaseIds revision.existingPhaseIds
  let replacementPhaseIds := casing.normalizeQuestJourneyPhaseIds revision.replacementPhaseIds
  if revision.fromIndex < 0 then .error (js "Revision start position must be a positive integer.")
  else
    let fromIndex := revision.fromIndex.toNat
    match existingPhaseIds[fromIndex]? with
    | none => .error (js "Revision start position " ++ decimal (fromIndex + 1) ++
        js " is out of range for the current Journey.")
    | some actualPhaseId =>
      if replacementPhaseIds = [] then
        .error (js "Journey revision requires at least one replacement phase.")
      else if actualPhaseId ≠ revision.expectedPhaseId then
        .error (js "Revision expected phase " ++ casing.phaseLabel revision.expectedPhaseId ++
          js " at position " ++ decimal (fromIndex + 1) ++ js ", but the current Journey has " ++
          casing.phaseLabel actualPhaseId ++
          js ". Re-run board detail and revise from the correct phase position.")
      else
        let phaseIds := existingPhaseIds.take fromIndex ++ replacementPhaseIds
        let rebaseResult :=
          rebaseQuestJourneyPhaseNotes existingPhaseIds phaseIds revision.existingPhaseNotes
        let nextNotes := (replacementEntries fromIndex replacementPhaseIds.length
          revision.replacementPhaseNotes).foldl (fun notes entry => notes.set entry.1 entry.2)
          (rebaseResult.phaseNotes.getD ∅)
        .ok ⟨phaseIds, sortedNotes nextNotes.positions, rebaseResult.warnings⟩

/-- A note that was given for a position of the replacement. -/
def ReplacementNote (revision : QuestJourneySuffixRevision) (fromIndex index : Nat)
    (note : JsString) : Prop :=
  ∃ key rawNote relativeIndex, (revision.replacementPhaseNotes.getD ∅).get? key = some rawNote ∧
    position key (casing.normalizeQuestJourneyPhaseIds revision.replacementPhaseIds).length =
      some relativeIndex ∧
    nonempty rawNote = some note ∧ index = fromIndex + relativeIndex

theorem mem_replacementEntries {revision : QuestJourneySuffixRevision} {fromIndex index : Nat}
    {note : JsString} :
    (decimal index, note) ∈ replacementEntries fromIndex
        (casing.normalizeQuestJourneyPhaseIds revision.replacementPhaseIds).length
        revision.replacementPhaseNotes ↔
      casing.ReplacementNote revision fromIndex index note := by
  unfold replacementEntries ReplacementNote
  rw [List.mem_filterMap]
  constructor
  · rintro ⟨⟨key, rawNote⟩, listed, found⟩
    obtain ⟨relativeIndex, named, found⟩ := Option.bind_eq_some_iff.mp found
    obtain ⟨note', trimmed, same⟩ := Option.map_eq_some_iff.mp found
    obtain ⟨index', rfl⟩ := Prod.mk.inj same
    exact ⟨key, rawNote, relativeIndex, Record.mem_ownEntries.mp listed, named, trimmed,
      (decimal_injective index').symm⟩
  · rintro ⟨key, rawNote, relativeIndex, found, named, trimmed, rfl⟩
    refine ⟨(key, rawNote), Record.mem_ownEntries.mpr found, ?_⟩
    rw [named, Option.bind_some, trimmed, Option.map_some]

theorem keys_replacementEntries {fromIndex count : Nat} {notes : Option (Record JsString)}
    {entry : JsString × JsString} (listed : entry ∈ replacementEntries fromIndex count notes) :
    ∃ index, fromIndex ≤ index ∧ index < fromIndex + count ∧ entry.1 = decimal index := by
  obtain ⟨raw, -, found⟩ := List.mem_filterMap.mp listed
  obtain ⟨relativeIndex, named, found⟩ := Option.bind_eq_some_iff.mp found
  obtain ⟨note, -, rfl⟩ := Option.map_eq_some_iff.mp found
  have below := position_lt named
  exact ⟨fromIndex + relativeIndex, by omega, by omega, rfl⟩

/-- A revision that succeeds. -/
theorem revise_eq_ok {revision : QuestJourneySuffixRevision} {result : QuestJourneySuffixRevisionResult}
    (known : ∀ id ∈ revision.existingPhaseIds, id ∈ knownPhaseIds)
    (ok : casing.reviseQuestJourneySuffix revision = .ok result) :
    ∃ fromIndex : Nat, revision.fromIndex = fromIndex ∧ fromIndex < revision.existingPhaseIds.length ∧
      result.phaseIds = revision.existingPhaseIds.take fromIndex ++
        casing.normalizeQuestJourneyPhaseIds revision.replacementPhaseIds ∧
      result.warnings = (rebaseQuestJourneyPhaseNotes revision.existingPhaseIds result.phaseIds
        revision.existingPhaseNotes).warnings ∧
      result.phaseNotes = sortedNotes (((replacementEntries fromIndex
          (casing.normalizeQuestJourneyPhaseIds revision.replacementPhaseIds).length
          revision.replacementPhaseNotes).foldl (fun notes entry => notes.set entry.1 entry.2)
        ((rebaseQuestJourneyPhaseNotes revision.existingPhaseIds result.phaseIds
          revision.existingPhaseNotes).phaseNotes.getD ∅)).positions) := by
  have ids : casing.normalizeKnownQuestJourneyPhaseIds revision.existingPhaseIds =
      revision.existingPhaseIds :=
    casing.normalizeKnown_of_canonical fun id listed => casing.canonicalizeKnown_of_known (known id listed)
  unfold reviseQuestJourneySuffix at ok
  dsimp only at ok
  rw [ids] at ok
  split at ok
  · cases ok
  · rename_i positive
    refine ⟨revision.fromIndex.toNat, by omega, ?_⟩
    split at ok
    · cases ok
    · rename_i actual there
      split at ok
      · cases ok
      · split at ok
        · cases ok
        · cases ok
          exact ⟨(List.getElem?_eq_some_iff.mp there).1, rfl, rfl, rfl⟩

section Revised

variable {revision : QuestJourneySuffixRevision} {result : QuestJourneySuffixRevisionResult}
  {fromIndex : Nat}
  (keyed : (revision.existingPhaseNotes.getD ∅).KeyedByPosition revision.existingPhaseIds.length)
  (below : fromIndex < revision.existingPhaseIds.length)
  (phases : result.phaseIds = revision.existingPhaseIds.take fromIndex ++
    casing.normalizeQuestJourneyPhaseIds revision.replacementPhaseIds)

/-- The notes, before they are sorted. -/
def nextNotes (revision : QuestJourneySuffixRevision) (phaseIds : List JsString) (fromIndex : Nat) :
    Record JsString :=
  (replacementEntries fromIndex (casing.normalizeQuestJourneyPhaseIds revision.replacementPhaseIds).length
      revision.replacementPhaseNotes).foldl (fun notes entry => notes.set entry.1 entry.2)
    ((rebaseQuestJourneyPhaseNotes revision.existingPhaseIds phaseIds
      revision.existingPhaseNotes).phaseNotes.getD ∅)

include keyed below phases

theorem keyed_nextNotes :
    (casing.nextNotes revision result.phaseIds fromIndex).KeyedByPosition result.phaseIds.length := by
  intro key listed
  obtain ⟨note, found⟩ := JsMap.mem_keys.mp listed
  unfold nextNotes at found
  rcases Record.get?_foldl_set (replacementEntries fromIndex
    (casing.normalizeQuestJourneyPhaseIds revision.replacementPhaseIds).length
    revision.replacementPhaseNotes) ((rebaseQuestJourneyPhaseNotes revision.existingPhaseIds
      result.phaseIds revision.existingPhaseNotes).phaseNotes.getD ∅) key with
    ⟨note', given, -⟩ | ⟨-, same⟩
  · obtain ⟨index, -, less, named⟩ := keys_replacementEntries given
    refine ⟨index, ?_, named⟩
    rw [phases, List.length_append, List.length_take, Nat.min_eq_left (Nat.le_of_lt below)]
    exact less
  · rw [same] at found
    exact keyed_rebase keyed key (JsMap.mem_keys.mpr ⟨note, found⟩)

/-- The note of a position is one that was given for it, or the one that was rebased. -/
theorem noteAt_nextNotes (index : Nat) :
    (∃ note, casing.ReplacementNote revision fromIndex index note ∧
      noteAt (sortedNotes (casing.nextNotes revision result.phaseIds fromIndex).positions) index =
        some note) ∨
    (∀ note, ¬ casing.ReplacementNote revision fromIndex index note) ∧
      noteAt (sortedNotes (casing.nextNotes revision result.phaseIds fromIndex).positions) index =
        noteAt (rebaseQuestJourneyPhaseNotes revision.existingPhaseIds result.phaseIds
          revision.existingPhaseNotes).phaseNotes index := by
  have next := casing.keyed_nextNotes keyed below phases
  have sorted : ∀ note, noteAt (sortedNotes (casing.nextNotes revision result.phaseIds
      fromIndex).positions) index = some note ↔
      (casing.nextNotes revision result.phaseIds fromIndex).get? (decimal index) = some note :=
    fun note => (noteAt_sortedNotes next.nodup_positions).trans next.mem_positions
  rcases Record.get?_foldl_set (replacementEntries fromIndex
    (casing.normalizeQuestJourneyPhaseIds revision.replacementPhaseIds).length
    revision.replacementPhaseNotes) ((rebaseQuestJourneyPhaseNotes revision.existingPhaseIds
      result.phaseIds revision.existingPhaseNotes).phaseNotes.getD ∅) (decimal index) with
    ⟨note, given, found⟩ | ⟨other, same⟩
  · exact .inl ⟨note, casing.mem_replacementEntries.mp given, (sorted note).mpr found⟩
  · refine .inr ⟨fun note given => ?_, Option.ext fun note => (sorted note).trans ?_⟩
    · exact other (List.mem_map.mpr ⟨_, casing.mem_replacementEntries.mpr given, rfl⟩)
    · exact Eq.congr_left same

end Revised

/-- A revision keeps the phases and notes before its start and loses no note: one goes with the
occurrence of its phase, unless it is reported or a given one takes its place. -/
theorem journey_revision_keeps (casing : Casing) (revision : QuestJourneySuffixRevision)
    (known : ∀ id ∈ revision.existingPhaseIds, id ∈ knownPhaseIds)
    (keyed : (revision.existingPhaseNotes.getD ∅).KeyedByPosition revision.existingPhaseIds.length) :
    (∀ result, casing.reviseQuestJourneySuffix revision = .ok result →
      ∃ fromIndex : Nat, revision.fromIndex = fromIndex ∧
        (fromIndex < revision.existingPhaseIds.length ∧
          result.phaseIds.take fromIndex = revision.existingPhaseIds.take fromIndex ∧
          ∀ index < fromIndex, noteAt result.phaseNotes index =
            (noteAt revision.existingPhaseNotes index).bind nonempty) ∧
        (∀ index note, (noteAt revision.existingPhaseNotes index).bind nonempty = some note →
          (∃ index', SameOccurrence revision.existingPhaseIds result.phaseIds index index' ∧
            warningsAbout result.warnings index = [] ∧
            (noteAt result.phaseNotes index' = some note ∨
              ∃ note', casing.ReplacementNote revision fromIndex index' note' ∧
                noteAt result.phaseNotes index' = some note')) ∨
          ((∀ index', ¬ SameOccurrence revision.existingPhaseIds result.phaseIds index index') ∧
            ∃ phaseId, revision.existingPhaseIds[index]? = some phaseId ∧
              warningsAbout result.warnings index =
                [⟨index, phaseId, rank revision.existingPhaseIds phaseId index + 1, note⟩])) ∧
        (∀ index' note, noteAt result.phaseNotes index' = some note →
          casing.ReplacementNote revision fromIndex index' note ∨
          ∃ index, (noteAt revision.existingPhaseNotes index).bind nonempty = some note ∧
            SameOccurrence revision.existingPhaseIds result.phaseIds index index') ∧
        (result.phaseNotes.getD ∅).KeyedByPosition result.phaseIds.length) ∧
    (let rebased := rebaseQuestJourneyPhaseNotes revision.existingPhaseIds revision.existingPhaseIds
        revision.existingPhaseNotes
     rebased.warnings = [] ∧
        ∀ key, (rebased.phaseNotes.getD ∅).get? key =
          ((revision.existingPhaseNotes.getD ∅).get? key).bind nonempty) := by
  constructor
  · intro result ok
    obtain ⟨fromIndex, start, below, phases, warned, notes⟩ := casing.revise_eq_ok known ok
    have notes : result.phaseNotes =
        sortedNotes (casing.nextNotes revision result.phaseIds fromIndex).positions := notes
    have noted := casing.noteAt_nextNotes keyed below phases
    rw [← notes] at noted
    refine ⟨fromIndex, start, ⟨below, ?_, ?_⟩, ?_, ?_, ?_⟩
    · rw [phases]
      exact List.take_left' (List.length_take.trans (Nat.min_eq_left (Nat.le_of_lt below)))
    · intro index before
      have own : SameOccurrence revision.existingPhaseIds result.phaseIds index index :=
        phases ▸ sameOccurrence_of_take before (by omega)
      rcases noted index with ⟨note, ⟨_, _, relativeIndex, _, _, _, later⟩, _⟩ | ⟨-, same⟩
      · omega
      · rw [same]
        refine Option.ext fun note => (noteAt_rebase keyed).trans ⟨?_, fun found => ⟨index, found, own⟩⟩
        rintro ⟨source, found, moved⟩
        rw [← moved.source_unique own]
        exact found
    · intro index note found
      by_cases placed : ∃ index', SameOccurrence revision.existingPhaseIds result.phaseIds index index'
      · obtain ⟨index', same⟩ := placed
        refine .inl ⟨index', same, warned ▸ warnings_of_placed same, ?_⟩
        rcases noted index' with replaced | ⟨-, rebased⟩
        · exact .inr replaced
        · exact .inl (rebased.trans ((noteAt_rebase keyed).mpr ⟨index, found, same⟩))
      · have missing := not_exists.mp placed
        obtain ⟨raw, there, -⟩ := Option.bind_eq_some_iff.mp found
        have phase := List.getElem?_eq_getElem (keyed.position_lt there)
        exact .inr ⟨missing, _, phase, warned ▸ warnings_of_missing keyed phase found missing⟩
    · intro index' note found
      rcases noted index' with ⟨note', given, same⟩ | ⟨-, same⟩
      · rw [found] at same
        cases same
        exact .inl given
      · exact .inr ((noteAt_rebase keyed).mp (same.symm.trans found))
    · rw [notes]
      refine keyed_sortedNotes ?_
      rintro ⟨index, note⟩ listed
      have next := casing.keyed_nextNotes keyed below phases
      exact next.position_lt (next.mem_positions.mp listed)
  · intro rebased
    refine ⟨List.eq_nil_iff_forall_not_mem.mpr fun warning listed => ?_, fun key => ?_⟩
    · have placed : warningsAbout rebased.warnings warning.previousIndex = [] :=
        warnings_of_placed (sameOccurrence_self (previousIndex_lt listed))
      have about : warning ∈ warningsAbout rebased.warnings warning.previousIndex :=
        List.mem_filter.mpr ⟨listed, decide_eq_true rfl⟩
      rw [placed] at about
      cases about
    · refine Option.ext fun note => ?_
      have next : (rebased.phaseNotes.getD ∅).KeyedByPosition revision.existingPhaseIds.length :=
        keyed_rebase keyed
      constructor
      · intro found
        obtain ⟨index, below, rfl⟩ := next key (JsMap.mem_keys.mpr ⟨note, found⟩)
        obtain ⟨source, there, same⟩ := (noteAt_rebase keyed).mp found
        rw [same.source_unique (sameOccurrence_self below)] at there
        exact there
      · intro found
        obtain ⟨raw, there, -⟩ := Option.bind_eq_some_iff.mp found
        obtain ⟨index, below, rfl⟩ := keyed key (JsMap.mem_keys.mpr ⟨raw, there⟩)
        exact (noteAt_rebase keyed).mpr ⟨index, found, sameOccurrence_self below⟩

/-- A plan with two Works loses the second one, with its note; the first one's note is replaced. -/
theorem journey_revision_keeps_work :
    let revision : QuestJourneySuffixRevision :=
      { existingPhaseIds := [js "alignment", js "work", js "work"]
        fromIndex := 1
        expectedPhaseId := js "work"
        replacementPhaseIds := [js "Working", js "memory"]
        existingPhaseNotes := some (Record.ofEntries [(js "1", js "first"), (js "2", js "second")])
        replacementPhaseNotes := some (Record.ofEntries [(js "0", js " again ")]) }
    ∃ result, ascii.reviseQuestJourneySuffix revision = .ok result ∧
      result.phaseIds = [js "alignment", js "work", js "memory"] ∧
      noteAt result.phaseNotes 1 = some (js "again") ∧
      warningsAbout result.warnings 2 = [⟨2, js "work", 2, js "second"⟩] ∧
      (result.phaseNotes.getD ∅).KeyedByPosition 3 := by
  intro revision
  have known : ∀ id ∈ revision.existingPhaseIds, id ∈ knownPhaseIds := forall_mem_of_all (by decide)
  have keyed : (revision.existingPhaseNotes.getD ∅).KeyedByPosition revision.existingPhaseIds.length := by
    intro key listed
    have keys : (revision.existingPhaseNotes.getD ∅).keys = [js "1", js "2"] := by decide
    rw [keys] at listed
    rcases List.mem_cons.mp listed with rfl | last
    · exact ⟨1, by decide, by decide⟩
    · rw [List.mem_singleton.mp last]
      exact ⟨2, by decide, by decide⟩
  have ok : ascii.reviseQuestJourneySuffix revision = .ok ⟨[js "alignment", js "work", js "memory"],
      some (Record.ofEntries [(js "1", js "again")]), [⟨2, js "work", 2, js "second"⟩]⟩ := by rfl
  obtain ⟨fromIndex, -, -, -, -, nextKeyed⟩ := (journey_revision_keeps ascii revision known keyed).1 _ ok
  exact ⟨_, ok, rfl, by decide, by decide, nextKeyed⟩

end Casing

end Takode.Journeys
