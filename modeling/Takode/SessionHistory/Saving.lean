import Takode.SessionHistory.Records

/-!
# Saves are read back

A head that was published is read back from the bytes that it commits to, whatever saves, failures
and ends of the process come after it.
-/

namespace Takode.SessionHistory

open JsString JsonText

variable {sha : Sha256} {sessionId : JsString}

/-! ## What a head commits to -/

/-- The frames of a generation, as they are scanned. -/
structure Reads (sha : Sha256) (sessionId generation : JsString) (rows : RowKind → List Value)
    (frames : List Frame) (index : JournalIndex) : Prop where
  short : ∀ frame ∈ frames, Short frame
  first : frames.head? = some (historyFrame sessionId generation)
  scanned : frames.tail.foldlM (indexFrame sha) .empty = .ok index
  idle : index.reading = none
  recorded : ∀ kind row value, (rows kind)[row]? = some value → Recorded sha index.rows kind row value

/-- Frames from which the rows of a head are read. -/
structure Holds (sha : Sha256) (sessionId : JsString) (head : HistoryReference)
    (rows : RowKind → List Value) (frames : List Frame) (index : JournalIndex) : Prop
    extends Reads sha sessionId head.generation rows frames index where
  valid : validHistoryReference head = true
  counts : ∀ kind, head.count kind = (rows kind).length
  bytes : (frameBytes frames).length = head.bytes
  last : frames.getLast? = some (historyCommitFrame head)

/-- A file that begins with such frames; what comes after them does not count. -/
def Committed (sha : Sha256) (sessionId : JsString) (head : HistoryReference)
    (rows : RowKind → List Value) (index : JournalIndex) (file : Bytes) : Prop :=
  ∃ frames, Holds sha sessionId head rows frames index ∧ file.take head.bytes = frameBytes frames

theorem Committed.congr {head : HistoryReference} {rows : RowKind → List Value} {index : JournalIndex}
    {file file' : Bytes} (same : file'.take head.bytes = file.take head.bytes)
    (committed : Committed sha sessionId head rows index file) :
    Committed sha sessionId head rows index file' := by
  obtain ⟨frames, holds, taken⟩ := committed
  exact ⟨frames, holds, same.trans taken⟩

theorem read_rows {index : JournalIndex} {kind : RowKind} {values : List Value}
    (recorded : ∀ row value, values[row]? = some value → Recorded sha index.rows kind row value) :
    (List.range values.length).mapM (decodedRow sha index kind) = .ok values := by
  have all : (List.range values.length).map (fun row => values.getD row .null) = values := by
    refine List.ext_getElem (by simp) fun row _ within => ?_
    simp [within]
  rw [mapM_eq_map (g := fun row => values.getD row .null), all]
  intro row inside
  have found := List.getElem?_eq_getElem (List.mem_range.mp inside)
  obtain ⟨tokens, stored⟩ := recorded row _ found
  rw [decodedRow, stored, List.getD_eq_getElem?_getD, found]
  rfl

/-- What a head commits to is read back. -/
theorem Committed.reads {head : HistoryReference} {rows : RowKind → List Value} {index : JournalIndex}
    {file : Bytes} {disk : JsMap JsString Bytes} (committed : Committed sha sessionId head rows index file)
    (stored : disk.get? head.generation = some file) :
    readSessionHistory sha sessionId head disk = .ok (rows .message, rows .tool) := by
  obtain ⟨frames, holds, taken⟩ := committed
  have indexed : indexJournal sha sessionId head file = .ok index := by
    rw [indexJournal, holds.valid, historyFrames_frameBytes taken holds.bytes holds.short]
    show (if frames.head?.any (· ≠ historyFrame sessionId head.generation) then _ else _) = _
    have identity : ¬ (frames.head?.any (· ≠ historyFrame sessionId head.generation)) = true := by
      simp [holds.first]
    rw [if_neg identity, holds.scanned]
    show (if index.reading.isSome ∨ frames.getLast? ≠ some (historyCommitFrame head) then _ else _) = _
    rw [if_neg (by simp [holds.idle, holds.last])]
  rw [readSessionHistory, stored]
  show (indexJournal sha sessionId head file >>= _) = _
  rw [indexed]
  show ((List.range (head.count .message)).mapM (decodedRow sha index .message) >>= _) = _
  rw [holds.counts, read_rows (holds.recorded .message)]
  show ((List.range (head.count .tool)).mapM (decodedRow sha index .tool) >>= _) = _
  rw [holds.counts, read_rows (holds.recorded .tool)]
  rfl

/-! ## References -/

section References

variable {previous : Option JournalCache} {strings : JsMap Nat JsString}

/-- A string that stands in the file. -/
def Stored (strings : JsMap Nat JsString) (text : JsString) (range : StringRange) : Prop :=
  range.stop ≠ 0 ∧ strings.get? range.id = some text

/-- The range of a string that is referred to for the first time. -/
def newRange (previous : Option JournalCache) (references : References) (text : JsString) : StringRange :=
  (previous.bind (·.find? text)).getD ⟨references.nextId, text.length, 0, 0⟩

theorem find?_reference (references : References) (text : JsString) (frozen : Bool) (other : JsString) :
    (reference previous references (text, frozen)).find? other =
      (references.find? other).or
        (if other = text then some (newRange previous references text) else none) := by
  unfold reference
  dsimp only
  by_cases known : (references.find? text).isSome
  · rw [if_pos known]
    by_cases same : other = text
    · subst same
      obtain ⟨range, found⟩ := Option.isSome_iff_exists.mp known
      rw [found]
      rfl
    · rw [if_neg same, Option.or_none]
  · rw [if_neg known]
    have parts := Option.or_eq_none_iff.mp (Option.not_isSome_iff_eq_none.mp known)
    by_cases same : other = text
    · subst same
      cases frozen <;> simp [References.find?, newRange, parts.1, parts.2]
    · cases frozen <;> simp [References.find?, same]

/-- The strings that are referred to stand in the file or are going to, under ids of their own. -/
structure Accounted (strings : JsMap Nat JsString) (first : Nat) (references : References) : Prop where
  ids : references.unwritten.map (·.2.id) = List.range' first references.unwritten.length
  next : references.nextId = first + references.unwritten.length
  lengths : ∀ entry ∈ references.unwritten, entry.1.length < 2 ^ 53
  known : ∀ text range, references.find? text = some range →
    Stored strings text range ∨ (text, range) ∈ references.unwritten

theorem reference_accounted {first : Nat} {references : References} {text : JsString} (frozen : Bool)
    (stored : ∀ text range, previous.bind (·.find? text) = some range → Stored strings text range)
    (short : text.length < 2 ^ 53) (accounted : Accounted strings first references) :
    Accounted strings first (reference previous references (text, frozen)) := by
  have kept : ∀ other range, (reference previous references (text, frozen)).find? other = some range →
      references.find? other = some range ∨ (other = text ∧ range = newRange previous references text) := by
    intro other range found
    rw [find?_reference] at found
    cases before : references.find? other with
    | some range' =>
      rw [before] at found
      exact .inl found
    | none =>
      rw [before, Option.none_or] at found
      split at found
      · exact .inr ⟨‹_›, (Option.some.inj found).symm⟩
      · cases found
  by_cases present : (references.find? text).isSome
  · rw [show reference previous references (text, frozen) = references from if_pos present]
    exact accounted
  cases known : previous.bind (·.find? text) with
  | some range =>
    have there := stored text range known
    have same : (reference previous references (text, frozen)).unwritten = references.unwritten ∧
        (reference previous references (text, frozen)).nextId = references.nextId := by
      cases frozen <;> simp [reference, present, known, there.1]
    refine ⟨?_, ?_, ?_, fun other range' found => ?_⟩ <;> rw [same.1]
    · exact accounted.ids
    · exact same.2.trans accounted.next
    · exact accounted.lengths
    · obtain before | ⟨rfl, rfl⟩ := kept other range' found
      · exact accounted.known other range' before
      · rw [newRange, known]
        exact .inl there
  | none =>
    have added : (reference previous references (text, frozen)).unwritten =
          references.unwritten ++ [(text, ⟨references.nextId, text.length, 0, 0⟩)] ∧
        (reference previous references (text, frozen)).nextId = references.nextId + 1 := by
      cases frozen <;> simp [reference, present, known]
    refine ⟨?_, ?_, ?_, fun other range' found => ?_⟩ <;> rw [added.1]
    · rw [List.map_append, accounted.ids, List.length_append, List.length_singleton, List.range'_concat,
        accounted.next]
      simp
    · rw [added.2, accounted.next, List.length_append, List.length_singleton, Nat.add_assoc]
    · intro entry inside
      obtain inside | inside := List.mem_append.mp inside
      · exact accounted.lengths entry inside
      · obtain rfl := List.mem_singleton.mp inside
        exact short
    · obtain before | ⟨rfl, rfl⟩ := kept other range' found
      · exact (accounted.known other range' before).imp_right (List.mem_append_left _)
      · rw [newRange, known]
        exact .inr (List.mem_append_right _ List.mem_cons_self)

theorem foldl_reference_accounted {first : Nat} {uses : List (JsString × Bool)}
    (stored : ∀ text range, previous.bind (·.find? text) = some range → Stored strings text range)
    (short : ∀ use ∈ uses, use.1.length < 2 ^ 53) {references : References}
    (accounted : Accounted strings first references) :
    Accounted strings first (uses.foldl (reference previous) references) ∧
      (∀ text, (references.find? text).isSome →
        ((uses.foldl (reference previous) references).find? text).isSome) ∧
      ∀ use ∈ uses, ((uses.foldl (reference previous) references).find? use.1).isSome := by
  induction uses generalizing references with
  | nil => exact ⟨accounted, fun _ found => found, nofun⟩
  | cons use uses ih =>
    obtain ⟨text, frozen⟩ := use
    obtain ⟨after, stays, found⟩ := ih (fun use inside => short use (List.mem_cons_of_mem _ inside))
      (reference_accounted frozen stored (short (text, frozen) List.mem_cons_self) accounted)
    refine ⟨after, fun other before => stays other ?_, fun use inside => ?_⟩
    · rw [find?_reference]
      cases known : references.find? other with
      | none => simp [known] at before
      | some range => rfl
    · obtain rfl | inside := List.mem_cons.mp inside
      · refine stays text ?_
        rw [find?_reference, if_pos rfl]
        cases references.find? text <;> rfl
      · exact found use inside

end References

/-! ## Appending -/

section Appending

variable {rows : CandidateRows} {previous : Option JournalCache} {generation : JsString} {file : Bytes}
  {old : RowKind → List Value} {frames : List Frame} {index : JournalIndex}

/-- A cache, if there is one, that agrees with what was scanned. -/
structure Agrees (sha : Sha256) (cache : Option JournalCache) (rows : RowKind → List Value)
    (index : JournalIndex) : Prop where
  digests : ∀ kind, ((cache.map (·.rows kind)).getD []).map (·.digest) = (rows kind).map (valueDigest sha)
  stored : ∀ text range, cache.bind (·.find? text) = some range → Stored index.strings text range
  unused : ∀ id, (cache.map (·.nextId)).getD 0 ≤ id → index.strings.get? id = none

/-- What a save may append to: the frames of a generation, and a cache that agrees with them. -/
structure Base (sha : Sha256) (sessionId generation : JsString) (previous : Option JournalCache)
    (file : Bytes) (old : RowKind → List Value) (frames : List Frame) (index : JournalIndex) : Prop
    extends Reads sha sessionId generation old frames index, Agrees sha previous old index where
  bytes : appendedTo sessionId generation file previous = frameBytes frames

/-- What callers promise of the rows that they save. -/
structure Promised (rows : CandidateRows) (previous : Option JournalCache) (old : RowKind → List Value) :
    Prop where
  proper : ∀ kind, ∀ value ∈ rows.values kind, Proper value
  frozen : ∀ kind, rows.frozen kind ≤ (rows.values kind).length
  unchanged : previous.isSome → ∀ kind,
    (rows.values kind).take (rows.unchanged kind) = (old kind).take (rows.unchanged kind)

/-- The numbers of a save are safe integers. -/
structure Safe (cache : JournalCache) : Prop where
  bytes : cache.head.bytes < 2 ^ 53
  revision : cache.head.revision < 2 ^ 53
  counts : ∀ kind, cache.head.count kind < 2 ^ 53
  nextId : cache.nextId < 2 ^ 53

/-- No row that is saved has the digest of another row that was saved before. -/
def Apart (sha : Sha256) (old values : RowKind → List Value) : Prop :=
  ∀ kind, ∀ value ∈ old kind, ∀ value' ∈ values kind, ¬ sha.Collide (hashInput value) (hashInput value')

/-- The rows that are trusted are the rows from before. -/
theorem take_trusted (promised : Promised rows previous old) (kind : RowKind) :
    (rows.values kind).take (trusted rows previous kind) = (old kind).take (trusted rows previous kind) := by
  rw [trusted, reused]
  cases before : previous with
  | none => rfl
  | some cache =>
    rw [Option.filter_some]
    split
    · rename_i reuse
      have unchanged := promised.unchanged (by rw [before]; rfl) kind
      have within : cache.head.frozen kind ≤ rows.unchanged kind := by
        simp only [reuses, List.all_eq_true, Bool.and_eq_true, decide_eq_true_eq] at reuse
        exact (reuse kind (by cases kind <;> decide)).1.1
      have both := congrArg (List.take (cache.head.frozen kind)) unchanged
      rw [List.take_take, List.take_take, Nat.min_eq_left within] at both
      exact both
    · rfl

/-- A row that is kept is the row from before, and a row that is written was looked at. -/
structure SavedSound (sha : Sha256) (rows : CandidateRows) (previous : Option JournalCache)
    (old : RowKind → List Value) (kind : RowKind) (row : Nat) : Prop where
  kept : ∀ range, (savedOf sha rows previous kind)[row]? = some (.kept range) →
    ∃ value, (old kind)[row]? = some value ∧ (rows.values kind)[row]? = some value ∧
      range.digest = valueDigest sha value
  written : ∀ value digest, (savedOf sha rows previous kind)[row]? = some (.written value digest) →
    (rows.values kind)[row]? = some value ∧ digest = valueDigest sha value ∧
      trusted rows previous kind ≤ row

theorem savedOf_sound (promised : Promised rows previous old) (apart : Apart sha old rows.values)
    (digests : ∀ kind, ((previous.map (·.rows kind)).getD []).map (·.digest) =
      (old kind).map (valueDigest sha)) (kind : RowKind) (row : Nat) :
    SavedSound sha rows previous old kind row := by
  suffices sound : (∀ range, (savedOf sha rows previous kind)[row]? = some (.kept range) → _) ∧
      ∀ value digest, (savedOf sha rows previous kind)[row]? = some (.written value digest) → _ from
    ⟨sound.1, sound.2⟩
  have prefixes := congrArg (fun values => values[row]?) (take_trusted promised kind)
  have digest := congrArg (fun digests => digests[row]?) (digests kind)
  simp only [List.getElem?_take] at prefixes
  simp only [List.getElem?_map] at digest
  rw [savedOf, savedRows, List.getElem?_mapIdx]
  generalize trusted rows previous kind = trusted at prefixes ⊢
  cases found : (rows.values kind)[row]? with
  | none => exact ⟨fun _ own => (by cases own), fun _ _ own => (by cases own)⟩
  | some value =>
    rw [found] at prefixes
    rw [Option.map_some, savedRow]
    cases range : ((previous.map (·.rows kind)).getD [])[row]? with
    | none =>
      rw [range, Option.map_none] at digest
      have absent : (old kind)[row]? = none := Option.map_eq_none_iff.mp digest.symm
      refine ⟨fun _ own => (by cases own), ?_⟩
      rintro value' digest' same
      cases same
      refine ⟨rfl, rfl, ?_⟩
      by_contra early
      rw [if_pos (by omega), if_pos (by omega), absent] at prefixes
      cases prefixes
    | some range =>
      rw [range, Option.map_some] at digest
      obtain ⟨before, there, own⟩ := Option.map_eq_some_iff.mp digest.symm
      dsimp only
      split
      · rename_i reason
        refine ⟨?_, fun _ _ own => (by cases own)⟩
        rintro range' same
        cases same
        have equal : before = value := by
          rcases reason with early | alike
          · rw [if_pos early, if_pos early, there] at prefixes
            exact (Option.some.inj prefixes).symm
          · by_contra different
            exact apart kind before (List.mem_of_getElem? there) value (List.mem_of_getElem? found)
              ⟨fun bytes => different (hashInput_injective bytes), own.trans alike⟩
        exact ⟨value, equal ▸ there, rfl, by rw [← own, equal]⟩
      · rename_i compared
        refine ⟨fun _ own => (by cases own), ?_⟩
        rintro value' digest' same
        cases same
        exact ⟨rfl, rfl, by omega⟩

theorem length_savedOf (kind : RowKind) :
    (savedOf sha rows previous kind).length = (rows.values kind).length := by
  rw [savedOf, savedRows, List.length_mapIdx]

def SavedRow.digest : SavedRow → JsString
  | .kept old => old.digest
  | .written _ digest => digest

theorem map_digest_savedRanges {idOf : JsString → Nat} {kind : RowKind} {saved : List SavedRow}
    (position offset : Nat) : (savedRanges idOf kind position offset saved).map (·.digest) =
      saved.map SavedRow.digest := by
  induction saved generalizing position offset with
  | nil => rfl
  | cons row saved ih =>
    cases row with
    | kept old => exact congrArg (old.digest :: ·) (ih position (offset + 1))
    | written value digest => exact congrArg (digest :: ·) (ih _ (offset + 1))

theorem map_digest_savedOf {kind : RowKind}
    (sound : ∀ row, SavedSound sha rows previous old kind row) :
    (savedOf sha rows previous kind).map SavedRow.digest = (rows.values kind).map (valueDigest sha) := by
  refine List.ext_getElem? fun row => ?_
  rw [List.getElem?_map, List.getElem?_map]
  cases own : (savedOf sha rows previous kind)[row]? with
  | none =>
    have beyond := List.getElem?_eq_none_iff.mp own
    rw [length_savedOf] at beyond
    rw [List.getElem?_eq_none beyond]
    rfl
  | some saved =>
    cases saved with
    | kept range =>
      obtain ⟨value, _, listed, digest⟩ := (sound row).kept range own
      rw [listed]
      exact congrArg some digest
    | written value digest =>
      obtain ⟨listed, hashed, _⟩ := (sound row).written value digest own
      rw [listed]
      exact congrArg some hashed

/-- The strings of the rows that are looked at are referred to. -/
theorem mem_uses {kind : RowKind} {row : Nat} {value : Value} {text : JsString}
    (found : (rows.values kind)[row]? = some value) (above : trusted rows previous kind ≤ row)
    (inside : text ∈ texts value) : ∃ frozen, (text, frozen) ∈ uses rows previous := by
  have looked : ∃ frozen, value ∈ lookedAt rows previous frozen kind := by
    by_cases early : row < rows.frozen kind
    · refine ⟨true, List.mem_of_getElem? (i := row - trusted rows previous kind) ?_⟩
      rw [lookedAt, if_pos rfl, List.getElem?_drop, Nat.add_sub_cancel' above, List.getElem?_take,
        if_pos early, found]
    · refine ⟨false, List.mem_of_getElem? (i := row - rows.frozen kind) ?_⟩
      rw [lookedAt, if_neg Bool.false_ne_true, List.getElem?_drop,
        Nat.add_sub_cancel' (Nat.le_of_not_lt early), found]
  obtain ⟨frozen, looked⟩ := looked
  refine ⟨frozen, List.mem_flatMap.mpr ⟨frozen, ?_, List.mem_flatMap.mpr ⟨kind, ?_, ?_⟩⟩⟩
  · cases frozen <;> decide
  · cases kind <;> decide
  · exact List.mem_map.mpr ⟨text, List.mem_flatMap.mpr ⟨value, looked, inside⟩, rfl⟩

theorem length_of_mem_uses (promised : Promised rows previous old) :
    ∀ use ∈ uses rows previous, use.1.length < 2 ^ 53 := by
  intro use inside
  obtain ⟨frozen, _, inside⟩ := List.mem_flatMap.mp inside
  obtain ⟨kind, _, inside⟩ := List.mem_flatMap.mp inside
  obtain ⟨text, listed, rfl⟩ := List.mem_map.mp inside
  obtain ⟨value, looked, listed⟩ := List.mem_flatMap.mp listed
  refine length_of_mem_texts (promised.proper kind value ?_) listed
  unfold lookedAt at looked
  split at looked
  · exact List.mem_of_mem_take (List.mem_of_mem_drop looked)
  · exact List.mem_of_mem_drop looked

/-- What is referred to, and what is going to be written for it. -/
theorem references_accounted (base : Base sha sessionId generation previous file old frames index)
    (promised : Promised rows previous old) :
    Accounted index.strings ((previous.map (·.nextId)).getD 0) (references rows previous) ∧
      ∀ use ∈ uses rows previous, ((references rows previous).find? use.1).isSome := by
  have start : Accounted index.strings ((previous.map (·.nextId)).getD 0)
      { frozenStrings := ((reused rows previous).map (·.frozenStrings)).getD ∅
        strings := ∅
        unwritten := []
        newlyFrozen := []
        nextId := (previous.map (·.nextId)).getD 0 } := by
    refine ⟨rfl, rfl, nofun, fun text range found => .inl ?_⟩
    rw [References.find?, JsMap.get?_empty, Option.or_none] at found
    cases reuse : reused rows previous with
    | none =>
      rw [reuse] at found
      cases found
    | some cache =>
      rw [reuse] at found
      obtain ⟨before, _⟩ := Option.filter_eq_some_iff.mp reuse
      refine base.stored text range ?_
      rw [before, Option.bind_some, JournalCache.find?]
      exact Option.or_eq_some_iff.mpr (.inl found)
  obtain ⟨accounted, _, found⟩ :=
    foldl_reference_accounted base.stored (length_of_mem_uses promised) start
  exact ⟨accounted, found⟩

theorem writtenStrings_sound {entry : JsString × StringRange} :
    ∀ {entries : List (JsString × StringRange)} {position : Nat},
      entry ∈ writtenStrings position entries →
      entry.2.stop ≠ 0 ∧ ∃ entry' ∈ entries, entry'.1 = entry.1 ∧ entry'.2.id = entry.2.id
  | [], _, inside => by cases inside
  | (text, range) :: rest, position, inside => by
    obtain rfl | inside := List.mem_cons.mp inside
    · refine ⟨?_, (text, range), List.mem_cons_self, rfl, rfl⟩
      have filled : frameBytes (stringFrames range.id text) ≠ [] :=
        List.append_ne_nil_of_left_ne_nil (line_ne_nil _) _
      have positive := List.length_pos_of_ne_nil filled
      dsimp only
      omega
    · obtain ⟨stop, entry', listed, same⟩ := writtenStrings_sound inside
      exact ⟨stop, entry', List.mem_cons_of_mem _ listed, same⟩

theorem mem_writtenStrings {entry : JsString × StringRange} :
    ∀ {entries : List (JsString × StringRange)} (position : Nat), entry ∈ entries →
      ∃ entry' ∈ writtenStrings position entries, entry'.1 = entry.1
  | [], _, inside => by cases inside
  | (text, range) :: rest, position, inside => by
    obtain rfl | inside := List.mem_cons.mp inside
    · exact ⟨_, List.mem_cons_self, rfl⟩
    · obtain ⟨entry', listed, same⟩ := mem_writtenStrings _ inside
      exact ⟨entry', List.mem_cons_of_mem _ listed, same⟩

/-- The ranges of a cache after a save stand in the file. -/
theorem located_stored {first position : Nat} {references : References} {strings strings' : JsMap Nat JsString}
    (accounted : Accounted strings first references)
    (kept : ∀ id text, strings.get? id = some text → strings'.get? id = some text)
    (added : ∀ entry ∈ references.unwritten, strings'.get? entry.2.id = some entry.1)
    {text : JsString} {range : StringRange}
    (found : ((located (writtenStrings position references.unwritten) references.frozenStrings).get? text).or
      ((located (writtenStrings position references.unwritten) references.strings).get? text) = some range) :
    Stored strings' text range := by
  have both : (references.find? text).map (fun range =>
      (((writtenStrings position references.unwritten).find? (·.1 = text)).map (·.2)).getD range) =
      some range := by
    rw [← found, located, located, JsMap.get?_map, JsMap.get?_map, References.find?]
    cases references.frozenStrings.get? text <;> rfl
  obtain ⟨range', known, own⟩ := Option.map_eq_some_iff.mp both
  cases written : (writtenStrings position references.unwritten).find? (·.1 = text) with
  | some entry =>
    rw [written] at own
    obtain rfl : entry.2 = range := own
    have same : entry.1 = text := by simpa using List.find?_some written
    obtain ⟨stop, entry', listed, text', id⟩ := writtenStrings_sound (List.mem_of_find?_eq_some written)
    refine ⟨stop, ?_⟩
    rw [← id, added entry' listed, text', same]
  | none =>
    rw [written] at own
    obtain rfl : range' = range := own
    obtain stored | listed := accounted.known text range' known
    · exact ⟨stored.1, kept _ _ stored.2⟩
    · obtain ⟨entry, inside, same⟩ := mem_writtenStrings position listed
      have missing := List.find?_eq_none.mp written entry inside
      simp [same] at missing

/-- An append: the file holds the new rows, and the new cache agrees with it. -/
theorem append_holds (base : Base sha sessionId generation previous file old frames index)
    (promised : Promised rows previous old) (apart : Apart sha old rows.values)
    {out : Bytes × JournalCache} (appended : append sha sessionId rows previous generation file = out)
    (safe : Safe out.2) :
    ∃ frames' index', out.1 = frameBytes frames' ∧
      Holds sha sessionId out.2.head rows.values frames' index' ∧ Agrees sha out.2 rows.values index' := by
  subst appended
  obtain ⟨accounted, found⟩ := references_accounted base promised
  have sound := savedOf_sound promised apart base.digests
  have nextId : (references rows previous).nextId < 2 ^ 53 := safe.nextId
  have counts : ∀ kind, (rows.values kind).length < 2 ^ 53 := safe.counts
  obtain ⟨strings, scanned, kept, added, after⟩ := scan_strings sha index.strings index.rows
    accounted.ids accounted.lengths (by rw [← accounted.next]; omega) base.unused
  rw [← accounted.next] at after
  have ids : ∀ id text, strings.get? id = some text → id < (references rows previous).nextId := by
    intro id text there
    by_contra above
    rw [after id (by omega)] at there
    cases there
  have writable : ∀ kind, Writable sha (references rows previous).idOf strings
      (savedOf sha rows previous kind) := by
    intro kind value digest inside
    obtain ⟨row, own⟩ := List.mem_iff_getElem?.mp inside
    obtain ⟨listed, hashed, above⟩ := (sound kind row).written value digest own
    refine ⟨hashed, promised.proper kind value (List.mem_of_getElem? listed), fun text inside => ?_⟩
    obtain ⟨frozen, used⟩ := mem_uses listed above inside
    obtain ⟨range, known⟩ := Option.isSome_iff_exists.mp (found _ used)
    have there : strings.get? range.id = some text :=
      (accounted.known text range known).elim (fun stored => kept _ _ stored.2) (added (text, range))
    have id : (references rows previous).idOf text = range.id := by rw [References.idOf, known]; rfl
    rw [id]
    exact ⟨Nat.lt_trans (ids _ _ there) nextId, there⟩
  have fits : ∀ kind, 0 + (savedOf sha rows previous kind).length ≤ 2 ^ 53 := fun kind => by
    rw [length_savedOf]
    have := counts kind
    omega
  obtain ⟨messages, scannedMessages, others, recorded, stay⟩ :=
    scan_saved .message index.rows 0 (writable .message) (fits .message)
  obtain ⟨tools, scannedTools, others', recorded', stay'⟩ :=
    scan_saved .tool messages 0 (writable .tool) (fits .tool)
  have all : ∀ kind row value, (rows.values kind)[row]? = some value → Recorded sha tools kind row value := by
    intro kind row value listed
    have within : row < (savedOf sha rows previous kind).length := by
      rw [length_savedOf]
      exact (List.getElem?_eq_some_iff.mp listed).1
    have own := List.getElem?_eq_getElem within
    cases saved : (savedOf sha rows previous kind)[row] with
    | written value' digest =>
      rw [saved] at own
      obtain ⟨listed', _, _⟩ := (sound kind row).written value' digest own
      obtain rfl := Option.some.inj (listed.symm.trans listed')
      cases kind with
      | message =>
        obtain ⟨tokens, there⟩ := recorded row value digest own
        rw [Nat.zero_add] at there
        exact ⟨tokens, by rw [others' .message nofun]; exact there⟩
      | tool =>
        have there := recorded' row value digest own
        rwa [Nat.zero_add] at there
    | kept range =>
      rw [saved] at own
      obtain ⟨value', there, listed', _⟩ := (sound kind row).kept range own
      obtain rfl := Option.some.inj (listed.symm.trans listed')
      obtain ⟨tokens, stored⟩ := base.recorded kind row value there
      have unwritten : ∀ i value digest, (savedOf sha rows previous kind)[i]? =
          some (.written value digest) → row ≠ 0 + i := by
        rintro i value digest written rfl
        rw [Nat.zero_add, written] at own
        cases own
      refine ⟨tokens, ?_⟩
      cases kind with
      | message => rw [others' .message nofun, stay row unwritten, stored]
      | tool => rw [stay' row unwritten, others .tool nofun, stored]
  have numbers : _ ∧ ∀ kind, _ ∧ rows.frozen kind < 2 ^ 53 := ⟨safe.revision, fun kind =>
    ⟨counts kind, Nat.lt_of_le_of_lt (promised.frozen kind) (counts kind)⟩⟩
  have present : ∀ kind, ∀ row < (rows.values kind).length, ∃ decoded, (tools kind).get? row = some decoded :=
    fun kind row within => ⟨_, (all kind row _ (List.getElem?_eq_getElem within)).choose_spec⟩
  have commit := scan_commit sha strings numbers present
  have filled : frames ≠ [] := by
    rintro rfl
    cases base.first
  have whole : (append sha sessionId rows previous generation file).1 = _ :=
    (congrArg (· ++ _) base.bytes).trans (frameBytes_append frames _).symm
  refine ⟨_, ⟨strings, fun kind => (tools kind).filter fun row _ => row < (rows.values kind).length, none⟩,
    whole, ?_, ?_⟩
  · refine ⟨⟨?_, ?_, ?_, rfl, ?_⟩, ?_, fun _ => rfl, congrArg List.length whole.symm, ?_⟩
    · intro frame inside
      obtain inside | inside := List.mem_append.mp inside
      · exact base.short frame inside
      obtain inside | inside := List.mem_append.mp inside
      · obtain ⟨entry, listed, inside⟩ := List.mem_flatMap.mp inside
        exact short_stringFrames (Nat.lt_trans (ids _ _ (added entry listed)) nextId)
          (accounted.lengths entry listed) frame inside
      obtain inside | inside := List.mem_append.mp inside
      · exact short_savedFrames 0 (writable .message) (fits .message) frame inside
      obtain inside | inside := List.mem_append.mp inside
      · exact short_savedFrames 0 (writable .tool) (fits .tool) frame inside
      · obtain rfl := List.mem_singleton.mp inside
        exact short_commit numbers
    · rw [List.head?_append, base.first]
      rfl
    · rw [List.tail_append_of_ne_nil filled, List.foldlM_append, base.scanned]
      show List.foldlM (indexFrame sha) index _ = _
      rw [show index = ⟨index.strings, index.rows, none⟩ by rw [← base.idle], List.foldlM_append, scanned]
      show List.foldlM (indexFrame sha) _ _ = _
      rw [List.foldlM_append, scannedMessages]
      show List.foldlM (indexFrame sha) _ _ = _
      rw [List.foldlM_append, scannedTools]
      show (indexFrame sha _ _ >>= pure) = _
      rw [bind_pure]
      exact commit
    · intro kind row value listed
      obtain ⟨tokens, there⟩ := all kind row value listed
      have within := (List.getElem?_eq_some_iff.mp listed).1
      exact ⟨tokens, by rw [JsMap.get?_filter, there]; simp [within]⟩
    · have written : (append sha sessionId rows previous generation file).1 ≠ [] := by
        rw [whole]
        simp [frameBytes, line_ne_nil]
      rw [validHistoryReference]
      simp only [List.all_cons, List.all_nil, Bool.and_true, Bool.and_eq_true, decide_eq_true_eq]
      exact ⟨⟨⟨⟨safe.bytes, safe.revision, (numbers.2 .message).1, (numbers.2 .tool).1,
        (numbers.2 .message).2, (numbers.2 .tool).2⟩, Nat.ne_of_gt (List.length_pos_of_ne_nil written)⟩,
        promised.frozen .message⟩, promised.frozen .tool⟩
    · rw [← List.append_assoc, ← List.append_assoc, ← List.append_assoc, List.getLast?_concat]
      rfl
  · refine ⟨fun kind => ?_, fun text range known => located_stored accounted kept added known, after⟩
    rw [← map_digest_savedOf (sound kind)]
    cases kind with
    | message => exact map_digest_savedRanges _ _
    | tool => exact map_digest_savedRanges _ _

end Appending

/-! ## Runs -/

section Runs

/-- A journal, and the heads that were published with their rows, the newest first. -/
structure SavedHistory where
  journal : SessionHistoryJournal
  published : List (HistoryReference × (RowKind → List Value))

inductive SaveEvent
  | save (rows : CandidateRows) (generation : JsString) (publishes : Bool)
  | crash (rows : CandidateRows) (generation : JsString) (crash : Crash)
  | release

def SavedHistory.after (s : SavedHistory) (rows : CandidateRows)
    (outcome : SessionHistoryJournal × Option HistoryReference) : SavedHistory :=
  ⟨outcome.1, (outcome.2.map fun head => (head, rows.values)).toList ++ s.published⟩

def SavedHistory.step (sha : Sha256) (sessionId : JsString) (s : SavedHistory) : SaveEvent → SavedHistory
  | .save rows generation publishes =>
    s.after rows (s.journal.write sha sessionId rows generation (s.published.head?.map (·.1)) publishes)
  | .crash rows generation crash => s.after rows (s.journal.crash sha sessionId rows generation crash)
  | .release => { s with journal := s.journal.release }

def saves (sha : Sha256) (sessionId : JsString) : Machine SavedHistory SaveEvent where
  start := ⟨⟨none, ∅⟩, []⟩
  step s event := some (s.step sha sessionId event)

/-- The rows of the head that counts. -/
def SavedHistory.rows (s : SavedHistory) : RowKind → List Value :=
  (s.published.head?.map (·.2)).getD fun _ => []

/-- What a save is given: rows as promised, and the name of a generation that is new. -/
structure Given (sha : Sha256) (sessionId : JsString) (s : SavedHistory) (rows : CandidateRows)
    (generation : JsString) : Prop where
  promised : Promised rows s.journal.cache s.rows
  unused : s.journal.disk.get? generation = none
  uuid : generation.length = 36
  safe : Safe (candidate sha sessionId s.journal rows generation).2

def Allowed (sha : Sha256) (sessionId : JsString) (s : SavedHistory) : SaveEvent → Prop
  | .save rows generation _ => Given sha sessionId s rows generation
  | .crash rows generation _ => Given sha sessionId s rows generation
  | .release => True

/-- Every row of a head that was published. -/
def SavedHistory.values (s : SavedHistory) : List Value :=
  s.published.flatMap fun entry => entry.2 .message ++ entry.2 .tool

def SavedHistory.Collides (sha : Sha256) (s : SavedHistory) : Prop :=
  ∃ value ∈ s.values, ∃ value' ∈ s.values, sha.Collide (hashInput value) (hashInput value')

/-- A head whose rows stand on the disk, with a cache that agrees. -/
def Stands (sha : Sha256) (sessionId : JsString) (journal : SessionHistoryJournal) (head : HistoryReference)
    (rows : RowKind → List Value) : Prop :=
  ∃ file index, journal.disk.get? head.generation = some file ∧
    Committed sha sessionId head rows index file ∧
    ∀ cache, journal.cache = some cache → cache.head = head ∧ Agrees sha cache rows index

structure Kept (sha : Sha256) (sessionId : JsString) (s : SavedHistory) : Prop where
  stands : ∀ head rows, s.published.head? = some (head, rows) → Stands sha sessionId s.journal head rows
  started : s.published = [] → s.journal.cache = none

/-- The bytes of a head stay where they are. -/
def Keeps (disk disk' : JsMap JsString Bytes) (head : HistoryReference) : Prop :=
  ∀ file, disk.get? head.generation = some file →
    ∃ file', disk'.get? head.generation = some file' ∧ file'.take head.bytes = file.take head.bytes

theorem Stands.keep {journal journal' : SessionHistoryJournal} {head : HistoryReference}
    {rows : RowKind → List Value} (stands : Stands sha sessionId journal head rows)
    (keeps : Keeps journal.disk journal'.disk head)
    (cache : journal'.cache = none ∨ journal'.cache = journal.cache) :
    Stands sha sessionId journal' head rows := by
  obtain ⟨file, index, stored, committed, cached⟩ := stands
  obtain ⟨file', stored', same⟩ := keeps file stored
  refine ⟨file', index, stored', committed.congr same, fun cache' own => ?_⟩
  obtain none | same := cache
  · rw [none] at own
    cases own
  · exact cached cache' (same ▸ own)

theorem short_history {generation : JsString} (named : sessionId.length ≤ 255)
    (uuid : generation.length = 36) : Short (historyFrame sessionId generation) := by
  have number := bound_integer (show 1 < 2 ^ 53 by decide)
  refine short_named (by decide) ?_
  simp only [List.map_cons, List.map_nil, List.sum_cons, List.sum_nil, Scalar.bound, uuid] at number ⊢
  omega

theorem base_none {generation : JsString} (named : sessionId.length ≤ 255) (uuid : generation.length = 36) :
    Base sha sessionId generation none [] (fun _ => []) [historyFrame sessionId generation] .empty where
  bytes := (List.append_nil _).symm
  short frame inside := by
    obtain rfl := List.mem_singleton.mp inside
    exact short_history named uuid
  first := rfl
  scanned := rfl
  idle := rfl
  recorded := nofun
  digests _ := rfl
  stored := nofun
  unused _ _ := rfl

theorem base_some {cache : JournalCache} {rows : RowKind → List Value} {frames : List Frame}
    {index : JournalIndex} {file : Bytes} (holds : Holds sha sessionId cache.head rows frames index)
    (taken : file.take cache.head.bytes = frameBytes frames) (agrees : Agrees sha cache rows index) :
    Base sha sessionId cache.head.generation (some cache) file rows frames index :=
  { holds.toReads, agrees with bytes := taken }

theorem Committed.length {head : HistoryReference} {rows : RowKind → List Value} {index : JournalIndex}
    {file : Bytes} (committed : Committed sha sessionId head rows index file) :
    (file.take head.bytes).length = head.bytes := by
  obtain ⟨frames, holds, taken⟩ := committed
  rw [taken, holds.bytes]

section Keeping

variable {disk disk' disk'' : JsMap JsString Bytes} {head : HistoryReference} {generation : JsString}
  {file : Bytes}

theorem Keeps.refl : Keeps disk disk head := fun file stored => ⟨file, stored, rfl⟩

theorem Keeps.trans (first : Keeps disk disk' head) (second : Keeps disk' disk'' head) :
    Keeps disk disk'' head := by
  intro file stored
  obtain ⟨file', stored', same⟩ := first file stored
  obtain ⟨file'', stored'', same'⟩ := second file' stored'
  exact ⟨file'', stored'', same'.trans same⟩

theorem keeps_set_other (other : head.generation ≠ generation) :
    Keeps disk (disk.set generation file) head :=
  fun file stored => ⟨file, by rw [JsMap.get?_set_of_ne other, stored], rfl⟩

theorem keeps_set_own
    (same : file.take head.bytes = ((disk.get? head.generation).getD []).take head.bytes) :
    Keeps disk (disk.set head.generation file) head := by
  intro file' stored
  rw [stored, Option.getD_some] at same
  exact ⟨file, JsMap.get?_set_self, same⟩

theorem keeps_delete (other : head.generation ≠ generation) : Keeps disk (disk.delete generation) head :=
  fun file stored => ⟨file, by rw [JsMap.get?_delete, if_neg other, stored], rfl⟩

theorem keeps_rollback : Keeps disk (rollback disk head) head :=
  keeps_set_own (by rw [List.take_take, Nat.min_self])

theorem keeps_retire {retired : Option HistoryReference} : Keeps disk (retire disk retired head) head := by
  unfold retire
  split
  · split
    · rename_i other
      exact keeps_delete (Ne.symm other)
    · exact Keeps.refl
  · exact Keeps.refl

end Keeping

/-- A save starts a generation, maybe after it rolled another back, or appends to the one that is cached. -/
theorem candidate_cases (sha : Sha256) (sessionId : JsString) (journal : SessionHistoryJournal)
    (rows : CandidateRows) (generation : JsString) :
    (journal.cache = none ∧ candidate sha sessionId journal rows generation =
      (journal.disk.set generation (started sha sessionId rows generation).1,
        (started sha sessionId rows generation).2)) ∨
    ∃ previous, journal.cache = some previous ∧
      (candidate sha sessionId journal rows generation =
        ((rollback (journal.disk.set previous.head.generation
            (continued sha sessionId journal rows previous).1) previous.head).set generation
          (started sha sessionId rows generation).1, (started sha sessionId rows generation).2) ∨
      candidate sha sessionId journal rows generation =
        (journal.disk.set previous.head.generation (continued sha sessionId journal rows previous).1,
          (continued sha sessionId journal rows previous).2)) := by
  unfold candidate
  cases cached : journal.cache with
  | none => exact .inl ⟨rfl, rfl⟩
  | some previous =>
    refine .inr ⟨previous, rfl, ?_⟩
    dsimp only
    split
    · exact .inl rfl
    · exact .inr rfl

section Steps

variable {s : SavedHistory} {rows : CandidateRows} {generation : JsString} {head : HistoryReference}
  {values : RowKind → List Value}

theorem Stands.ne (stands : Stands sha sessionId s.journal head values)
    (unused : s.journal.disk.get? generation = none) : head.generation ≠ generation := by
  rintro rfl
  obtain ⟨file, _, stored, _⟩ := stands
  rw [unused] at stored
  cases stored

theorem Stands.is_cached (stands : Stands sha sessionId s.journal head values) {previous : JournalCache}
    (cached : s.journal.cache = some previous) : previous.head = head := by
  obtain ⟨_, _, _, _, agrees⟩ := stands
  exact (agrees previous cached).1

theorem take_continued {previous : JournalCache} (stands : Stands sha sessionId s.journal previous.head values) :
    (continued sha sessionId s.journal rows previous).1.take previous.head.bytes =
      ((s.journal.disk.get? previous.head.generation).getD []).take previous.head.bytes := by
  obtain ⟨file, index, stored, committed, _⟩ := stands
  refine List.take_left' ?_
  rw [stored, Option.getD_some]
  exact committed.length

/-- What is appended to a generation comes after what its head commits to. -/
theorem keeps_append (stands : Stands sha sessionId s.journal head values) {previous : JournalCache}
    (cached : s.journal.cache = some previous) :
    Keeps s.journal.disk (s.journal.disk.set previous.head.generation
      (continued sha sessionId s.journal rows previous).1) head := by
  obtain rfl := stands.is_cached cached
  exact keeps_set_own (take_continued stands)

theorem candidate_keeps (rows : CandidateRows) (stands : Stands sha sessionId s.journal head values)
    (unused : s.journal.disk.get? generation = none) :
    Keeps s.journal.disk (candidate sha sessionId s.journal rows generation).1 head := by
  obtain ⟨_, taken⟩ | ⟨previous, cached, taken | taken⟩ :=
    candidate_cases sha sessionId s.journal rows generation
  · rw [taken]
    exact keeps_set_other (stands.ne unused)
  · rw [taken]
    obtain rfl := stands.is_cached cached
    exact ((keeps_append stands cached).trans keeps_rollback).trans (keeps_set_other (stands.ne unused))
  · rw [taken]
    exact keeps_append stands cached

theorem append_stands {previous : Option JournalCache} {file : Bytes} {old : RowKind → List Value}
    {frames : List Frame} {index : JournalIndex}
    (base : Base sha sessionId generation previous file old frames index)
    (promised : Promised rows previous old) (apart : Apart sha old rows.values)
    {out : Bytes × JournalCache} (appended : append sha sessionId rows previous generation file = out)
    (safe : Safe out.2) (disk : JsMap JsString Bytes) :
    Stands sha sessionId ⟨some out.2, disk.set generation out.1⟩ out.2.head rows.values := by
  obtain ⟨frames', index', whole, holds, cached⟩ := append_holds base promised apart appended safe
  subst appended
  refine ⟨_, index', JsMap.get?_set_self, ⟨frames', holds, ?_⟩, fun cache own => ?_⟩
  · rw [whole, ← holds.bytes, List.take_length]
  · cases own
    exact ⟨rfl, cached⟩

theorem candidate_stands (named : sessionId.length ≤ 255) (kept : Kept sha sessionId s)
    (given : Given sha sessionId s rows generation) (apart : Apart sha s.rows rows.values) :
    Stands sha sessionId
      ⟨some (candidate sha sessionId s.journal rows generation).2,
        (candidate sha sessionId s.journal rows generation).1⟩
      (candidate sha sessionId s.journal rows generation).2.head rows.values := by
  have safe := given.safe
  have promised := given.promised
  have fresh : ∀ disk, Safe (started sha sessionId rows generation).2 → Stands sha sessionId
      ⟨some (started sha sessionId rows generation).2,
        JsMap.set disk generation (started sha sessionId rows generation).1⟩
      (started sha sessionId rows generation).2.head rows.values := fun disk safe =>
    append_stands (base_none named given.uuid) ⟨promised.proper, promised.frozen, nofun⟩
      (fun _ _ inside => (by cases inside)) rfl safe disk
  obtain ⟨_, taken⟩ | ⟨previous, cached, taken | taken⟩ :=
    candidate_cases sha sessionId s.journal rows generation <;> rw [taken] at safe ⊢
  · exact fresh _ safe
  · exact fresh _ safe
  · cases published : s.published.head? with
    | none =>
      have started := kept.started (List.head?_eq_none_iff.mp published)
      rw [cached] at started
      cases started
    | some entry =>
      obtain ⟨head, values⟩ := entry
      obtain ⟨file, index, stored, ⟨frames, holds, bytes⟩, agrees⟩ := kept.stands head values published
      obtain ⟨rfl, agreed⟩ := agrees previous cached
      have old : s.rows = values := by rw [SavedHistory.rows, published]; rfl
      rw [continued, stored, Option.getD_some] at safe ⊢
      rw [old] at apart promised
      rw [cached] at promised
      exact append_stands (base_some holds bytes agreed) promised apart rfl safe _

end Steps

section Outcomes

variable {s : SavedHistory} {rows : CandidateRows} {generation : JsString}

/-- While no other head is published, the bytes of the one that counts stay. -/
theorem kept_of_keeps (kept : Kept sha sessionId s) {journal : SessionHistoryJournal}
    (cache : journal.cache = none ∨ journal.cache = s.journal.cache)
    (keeps : ∀ head values, Stands sha sessionId s.journal head values →
      Keeps s.journal.disk journal.disk head) : Kept sha sessionId ⟨journal, s.published⟩ where
  stands head values published :=
    (kept.stands head values published).keep (keeps head values (kept.stands head values published)) cache
  started empty := cache.elim id fun same => same.trans (kept.started empty)

theorem kept_of_stands {journal : SessionHistoryJournal} {head : HistoryReference}
    (stands : Stands sha sessionId journal head rows.values) :
    Kept sha sessionId (s.after rows (journal, some head)) where
  stands := by
    rintro head' values published
    cases published
    exact stands
  started := nofun

theorem apart_of_distinct {journal : SessionHistoryJournal} {head : HistoryReference}
    (distinct : ¬ (s.after rows (journal, some head)).Collides sha) : Apart sha s.rows rows.values := by
  have among : ∀ {values : RowKind → List Value} {kind : RowKind} {value : Value}, value ∈ values kind →
      value ∈ values .message ++ values .tool := by
    intro values kind value inside
    cases kind with
    | message => exact List.mem_append_left _ inside
    | tool => exact List.mem_append_right _ inside
  intro kind value old value' new collide
  refine distinct ⟨value, List.mem_append_right _ ?_, value', List.mem_append_left _ (among new), collide⟩
  rw [SavedHistory.rows] at old
  cases published : s.published with
  | nil =>
    rw [published] at old
    cases old
  | cons entry rest =>
    rw [published] at old
    exact List.mem_append_left _ (among old)

theorem write_kept (named : sessionId.length ≤ 255) (kept : Kept sha sessionId s)
    (given : Given sha sessionId s rows generation) {prior : Option HistoryReference} {publishes : Bool}
    (distinct : ¬ (s.after rows
      (s.journal.write sha sessionId rows generation prior publishes)).Collides sha) :
    Kept sha sessionId (s.after rows (s.journal.write sha sessionId rows generation prior publishes)) := by
  cases publishes with
  | true =>
    have apart : Apart sha s.rows rows.values := apart_of_distinct distinct
    exact kept_of_stands ((candidate_stands named kept given apart).keep keeps_retire (.inr rfl))
  | false =>
    refine kept_of_keeps kept (.inr rfl) fun head values stands => ?_
    have appended := candidate_keeps rows stands given.unused
    have cut : Keeps s.journal.disk (restore (candidate sha sessionId s.journal rows generation).1
        s.journal.cache (candidate sha sessionId s.journal rows generation).2.head generation) head := by
      unfold restore
      cases cached : s.journal.cache with
      | none =>
        dsimp only
        split
        · exact appended.trans (keeps_delete (stands.ne given.unused))
        · exact appended
      | some previous =>
        obtain rfl := stands.is_cached cached
        dsimp only
        split
        · exact (appended.trans keeps_rollback).trans (keeps_delete (stands.ne given.unused))
        · exact appended.trans keeps_rollback
    exact cut

theorem crash_kept (named : sessionId.length ≤ 255) (kept : Kept sha sessionId s)
    (given : Given sha sessionId s rows generation) {crash : Crash}
    (distinct : ¬ (s.after rows (s.journal.crash sha sessionId rows generation crash)).Collides sha) :
    Kept sha sessionId (s.after rows (s.journal.crash sha sessionId rows generation crash)) := by
  cases crash with
  | published =>
    have apart : Apart sha s.rows rows.values := apart_of_distinct distinct
    exact kept_of_stands ((candidate_stands named kept given apart).keep Keeps.refl (.inl rfl))
  | appending bytes =>
    unfold SessionHistoryJournal.crash
    cases cached : s.journal.cache with
    | none => exact kept_of_keeps kept (.inl rfl) fun _ _ stands => keeps_set_other (stands.ne given.unused)
    | some previous =>
      refine kept_of_keeps kept (.inl rfl) fun head values stands => ?_
      obtain rfl := stands.is_cached cached
      refine keeps_set_own ?_
      rw [List.take_take, Nat.min_eq_left (Nat.le_add_right _ _)]
      exact take_continued stands
  | restarting bytes =>
    unfold SessionHistoryJournal.crash
    cases cached : s.journal.cache with
    | none => exact kept_of_keeps kept (.inl rfl) fun _ _ stands => keeps_set_other (stands.ne given.unused)
    | some previous =>
      refine kept_of_keeps kept (.inl rfl) fun head values stands => ?_
      obtain rfl := stands.is_cached cached
      exact ((keeps_append stands cached).trans keeps_rollback).trans
        (keeps_set_other (stands.ne given.unused))

end Outcomes

/-- Unless rows collide, the head that counts stands on the disk. -/
def Secure (sha : Sha256) (sessionId : JsString) (s : SavedHistory) : Prop :=
  s.Collides sha ∨ Kept sha sessionId s

theorem saves_secure (named : sessionId.length ≤ 255) {s : SavedHistory}
    (reached : (saves sha sessionId).Reaches (Allowed sha sessionId) s) : Secure sha sessionId s := by
  refine reached.invariant (.inr ⟨fun _ _ published => (by cases published), fun _ => rfl⟩) ?_
  intro s event t _ kept allowed taken
  cases taken
  by_cases collides : (s.step sha sessionId event).Collides sha
  · exact .inl collides
  refine .inr ?_
  -- The rows that were published stay published.
  have stays : ∃ more, (s.step sha sessionId event).published = more ++ s.published := by
    cases event with
    | release => exact ⟨[], rfl⟩
    | _ => exact ⟨_, rfl⟩
  obtain ⟨more, published⟩ := stays
  have before : Kept sha sessionId s := by
    refine kept.resolve_left fun ⟨value, old, value', old', collide⟩ => collides ⟨value, ?_, value', ?_, collide⟩ <;>
      rw [SavedHistory.values, published, List.flatMap_append] <;> refine List.mem_append_right _ ?_
    · exact old
    · exact old'
  cases event with
  | save rows generation publishes => exact write_kept named before allowed collides
  | crash rows generation crash => exact crash_kept named before allowed collides
  | release => exact kept_of_keeps before (.inl rfl) fun _ _ _ => Keeps.refl

/-- A head that was published last is read back as the rows that were saved with it, or two of the rows
that were saved have one digest. -/
theorem saved_history_read_back (named : sessionId.length ≤ 255) {s : SavedHistory}
    (reached : (saves sha sessionId).Reaches (Allowed sha sessionId) s) {head : HistoryReference}
    {rows : RowKind → List Value} (published : s.published.head? = some (head, rows)) :
    s.Collides sha ∨
      readSessionHistory sha sessionId head s.journal.disk = .ok (rows .message, rows .tool) := by
  refine (saves_secure named reached).imp_right fun kept => ?_
  obtain ⟨file, index, stored, committed, _⟩ := kept.stands head rows published
  exact committed.reads stored

/-- A digest that tells inputs by their lengths. -/
def lengthSha : Sha256 where
  digest bytes := List.replicate 64 (UInt16.ofNat (48 + bytes.length % 10))
  hex bytes := by
    refine ⟨List.length_replicate, fun c inside => ?_⟩
    rw [List.eq_of_mem_replicate inside]
    have digits : ∀ n < 10, (isDigit (UInt16.ofNat (48 + n)) ||
        (97 ≤ UInt16.ofNat (48 + n) && UInt16.ofNat (48 + n) ≤ 102)) = true := by decide
    exact digits _ (Nat.mod_lt _ (by decide))

def textRows (texts : List JsString) : CandidateRows where
  values
    | .message => texts.map .string
    | .tool => []
  frozen _ := 0
  unchanged _ := 0

theorem given_textRows {s : SavedHistory} {texts : List JsString} {generation : JsString}
    (short : ∀ text ∈ texts, text.length < 2 ^ 53) (unused : s.journal.disk.get? generation = none)
    (uuid : generation.length = 36) {cache : JournalCache}
    (saved : (candidate sha sessionId s.journal (textRows texts) generation).2 = cache)
    (safe : cache.head.bytes < 2 ^ 53 ∧ cache.head.revision < 2 ^ 53 ∧ cache.nextId < 2 ^ 53 ∧
      cache.head.count .message < 2 ^ 53 ∧ cache.head.count .tool < 2 ^ 53) :
    Given sha sessionId s (textRows texts) generation where
  promised := by
    refine ⟨fun kind value inside => ?_, fun _ => Nat.zero_le _, fun _ _ => rfl⟩
    cases kind with
    | message =>
      obtain ⟨text, listed, rfl⟩ := List.mem_map.mp inside
      exact short text listed
    | tool => cases inside
  unused := unused
  uuid := uuid
  safe := by
    subst saved
    refine ⟨safe.1, safe.2.1, fun kind => ?_, safe.2.2.1⟩
    cases kind with
    | message => exact safe.2.2.2.1
    | tool => exact safe.2.2.2.2

/-- A process ends while it appends a second row; the next one saves both. -/
theorem saved_history_read_back_after_crash : ∃ (s : SavedHistory) (head : HistoryReference)
    (rows : RowKind → List Value), (saves lengthSha (js "s1")).Reaches (Allowed lengthSha (js "s1")) s ∧
    s.published.head? = some (head, rows) ∧ (rows .message).length = 2 ∧ (s.Collides lengthSha ∨
      readSessionHistory lengthSha (js "s1") head s.journal.disk = .ok (rows .message, rows .tool)) := by
  have saved : (saves lengthSha (js "s1")).Reaches (Allowed lengthSha (js "s1")) _ :=
    .step (l := .save (textRows [js "a"]) (List.replicate 36 48) true) .start
      (by exact given_textRows (by decide) rfl rfl rfl (by decide +kernel)) rfl
  have torn : (saves lengthSha (js "s1")).Reaches (Allowed lengthSha (js "s1")) _ :=
    saved.step (l := .crash (textRows [js "a", js "b"]) (List.replicate 36 49) (.appending 40))
      (by exact given_textRows (by decide) (by decide +kernel) rfl rfl (by decide +kernel)) rfl
  have again : (saves lengthSha (js "s1")).Reaches (Allowed lengthSha (js "s1")) _ :=
    torn.step (l := .save (textRows [js "a", js "b"]) (List.replicate 36 49) true)
      (by exact given_textRows (by decide) (by decide +kernel) rfl rfl (by decide +kernel)) rfl
  exact ⟨_, _, _, again, rfl, rfl, saved_history_read_back (by decide) again rfl⟩

end Runs

end Takode.SessionHistory
