import Takode.Lib.Except
import Takode.SessionHistory.Journal

/-!
# Records of a journal

What a save appends is scanned record by record: strings, the rows that refer to them, and the commit.
-/

namespace Takode.SessionHistory

open JsString JsonText

variable {sha : Sha256} {sessionId : JsString}

/-! ## Lines -/

/-- An array whose line is read. -/
def Short (frame : Frame) : Prop := (utf8 (stringify frame)).length ≤ 128 * 1024

theorem short_of_bound {frame : Frame} (bound : (frame.map fun item => Scalar.bound item + 1).sum ≤ 131070) :
    Short frame := by
  have length := (stringify_bounds frame).1
  unfold Short
  omega

theorem bound_integer {n : Nat} (safe : n < 2 ^ 53) : Scalar.bound (integer n) ≤ 16 :=
  Numeral.length_text_ofNat safe

theorem frameBytes_append (frames more : List Frame) :
    frameBytes (frames ++ more) = frameBytes frames ++ frameBytes more :=
  List.flatMap_append

/-- Lines that were written are the frames that are read, whatever comes after them. -/
theorem historyFrames_frameBytes {file : Bytes} {bytes : Nat} {frames : List Frame}
    (taken : file.take bytes = frameBytes frames) (whole : (frameBytes frames).length = bytes)
    (short : ∀ frame ∈ frames, Short frame) : historyFrames file bytes = .ok frames := by
  have lines : JsonText.splitLines (file.take bytes) = (frames.map fun frame => utf8 (stringify frame), []) := by
    have all := splitLines_lines frames []
    rw [List.append_nil] at all
    rw [taken, frameBytes, all]
    simp [JsonText.splitLines]
  have enough : bytes ≤ file.length := by
    have length := congrArg List.length taken
    rw [List.length_take] at length
    omega
  have read : (frames.map fun frame => utf8 (stringify frame)).mapM lineFrame = .ok frames := by
    rw [List.mapM_map, mapM_eq_map (g := id), List.map_id]
    intro frame _
    rw [Function.comp_apply, lineFrame, readLine_utf8_stringify]
    rfl
  unfold historyFrames
  rw [lines]
  dsimp only
  rw [if_neg, if_neg, read]
  · simpa using enough
  · simpa [Short] using short

/-! ## Records -/

section Records

variable {strings : JsMap Nat JsString} {rows : RowKind → JsMap Nat DecodedRow}

theorem scan_parts {parts : List JsString} {id length : Nat}
    (small : ∀ part ∈ parts, part.length ≤ HISTORY_STRING_CHARS) (before : List JsString) :
    (parts.map fun part => [Scalar.string (js "part"), .string part]).foldlM (indexFrame sha)
        ⟨strings, rows, some (.string id length before)⟩ =
      .ok ⟨strings, rows, some (.string id length (before ++ parts))⟩ := by
  induction parts generalizing before with
  | nil => simp [pure, Except.pure]
  | cons part parts ih =>
    have first : indexFrame sha ⟨strings, rows, some (.string id length before)⟩
        [.string (js "part"), .string part] =
        .ok ⟨strings, rows, some (.string id length (before ++ [part]))⟩ :=
      if_pos ⟨rfl, small part List.mem_cons_self⟩
    have rest := ih (fun part inside => small part (List.mem_cons_of_mem _ inside)) (before ++ [part])
    rw [List.append_assoc] at rest
    rw [List.map_cons, List.foldlM_cons, first]
    exact rest

/-- The record of a string is scanned as that string. -/
theorem scan_string {id : Nat} {text : JsString} (fresh : strings.get? id = none) (safe : id < 2 ^ 53)
    (short : text.length < 2 ^ 53) :
    (stringFrames id text).foldlM (indexFrame sha) ⟨strings, rows, none⟩ =
      .ok ⟨strings.set id text, rows, none⟩ := by
  have begins : indexFrame sha ⟨strings, rows, none⟩
      [.string (js "string"), integer id, integer text.length] =
      .ok ⟨strings, rows, some (.string id text.length [])⟩ := by
    have absent : strings.has id = false := JsMap.has_eq_false.mpr fresh
    simp only [indexFrame, beginRecord, if_true, asInteger_integer safe, asInteger_integer short, absent]
    rfl
  have ends : indexFrame sha ⟨strings, rows, some (.string id text.length (pieces text))⟩
      [.string (js "endString")] = .ok ⟨strings.set id text, rows, none⟩ := by
    have same := flatten_pieces text
    simp only [indexFrame, same, and_self, if_true]
  rw [stringFrames, List.cons_append, List.foldlM_cons, begins]
  show ((List.map (fun piece => [Scalar.string (js "part"), .string piece]) (pieces text) ++
    [[Scalar.string (js "endString")]]).foldlM (indexFrame sha) _) = _
  rw [List.foldlM_append, scan_parts fun _ => length_of_mem_pieces, List.nil_append]
  show (indexFrame sha _ _ >>= pure) = _
  rw [bind_pure, ends]

theorem head?_frame_mem (idOf : JsString → Nat) (token : Token) :
    (token.frame idOf).head? ∈ tokenKinds.map fun kind => some (Scalar.string kind) := by
  cases token with
  | null => exact List.mem_map.mpr ⟨js "null", by decide, rfl⟩
  | boolean => exact List.mem_map.mpr ⟨js "bool", by decide, rfl⟩
  | number => exact List.mem_map.mpr ⟨js "number", by decide, rfl⟩
  | ref => exact List.mem_map.mpr ⟨js "ref", by decide, rfl⟩
  | array => exact List.mem_map.mpr ⟨js "array", by decide, rfl⟩
  | object => exact List.mem_map.mpr ⟨js "object", by decide, rfl⟩

theorem frame_ne_endRow (idOf : JsString → Nat) (token : Token) :
    token.frame idOf ≠ [.string (js "endRow")] := by
  cases token with
  | null =>
    intro same
    have kind := Scalar.string.inj (List.cons.inj same).1
    revert kind
    decide
  | _ => exact nofun

theorem scan_tokens {idOf : JsString → Nat} {kind : RowKind} {row : Nat} {digest : JsString}
    (tokens : List Token) (before : List Frame) :
    (tokens.map (Token.frame idOf)).foldlM (indexFrame sha)
        ⟨strings, rows, some (.row kind row digest before)⟩ =
      .ok ⟨strings, rows, some (.row kind row digest (before ++ tokens.map (Token.frame idOf)))⟩ := by
  induction tokens generalizing before with
  | nil => simp [pure, Except.pure]
  | cons token tokens ih =>
    have first : indexFrame sha ⟨strings, rows, some (.row kind row digest before)⟩ (token.frame idOf) =
        .ok ⟨strings, rows, some (.row kind row digest (before ++ [token.frame idOf]))⟩ := by
      simp only [indexFrame]
      rw [if_neg (frame_ne_endRow idOf token), if_pos (head?_frame_mem idOf token)]
    have rest := ih (before ++ [token.frame idOf])
    rw [List.append_assoc] at rest
    rw [List.map_cons, List.foldlM_cons, first]
    exact rest

theorem isDigest_valueDigest (sha : Sha256) (value : Value) : isDigest (valueDigest sha value) = true := by
  obtain ⟨length, digits⟩ := sha.hex (hashInput value)
  rw [isDigest, Bool.and_eq_true, decide_eq_true_eq, List.all_eq_true]
  exact ⟨length, digits⟩

/-- A row of the index, decoded to its value. -/
def Recorded (sha : Sha256) (rows : RowKind → JsMap Nat DecodedRow) (kind : RowKind) (row : Nat)
    (value : Value) : Prop :=
  ∃ tokens, (rows kind).get? row = some ⟨valueDigest sha value, some value, tokens⟩

/-- The record of a row is scanned as its value, where its strings were scanned before. -/
theorem scan_row {idOf : JsString → Nat} (kind : RowKind) {row : Nat} {value : Value} (safe : row < 2 ^ 53)
    (proper : Proper value) (resolves : Resolves idOf strings.get? (texts value)) :
    (rowFrames idOf kind row value (valueDigest sha value)).foldlM (indexFrame sha) ⟨strings, rows, none⟩ =
      .ok ⟨strings, Function.update rows kind ((rows kind).set row
        ⟨valueDigest sha value, some value, (valueTokens value).map (Token.frame idOf)⟩), none⟩ := by
  have begins : indexFrame sha ⟨strings, rows, none⟩
      [.string kind.text, integer row, .string (valueDigest sha value)] =
      .ok ⟨strings, rows, some (.row kind row (valueDigest sha value) [])⟩ := by
    have other : ¬ kind.text = js "string" := by cases kind <;> decide
    have found : [RowKind.message, .tool].find? (·.text = kind.text) = some kind := by
      cases kind <;> decide
    simp only [indexFrame, beginRecord]
    rw [if_neg other]
    simp only [found, asInteger_integer safe, isDigest_valueDigest, if_true]
  have decoded : decodeRow sha ((valueTokens value).map (Token.frame idOf)) (valueDigest sha value) strings =
      ⟨valueDigest sha value, some value, (valueTokens value).map (Token.frame idOf)⟩ := by
    rw [decodeRow, buildRowValue_tokens proper resolves]
    exact if_pos rfl
  rw [rowFrames, List.foldlM_cons, begins]
  show (((valueTokens value).map (Token.frame idOf) ++ [[Scalar.string (js "endRow")]]).foldlM
    (indexFrame sha) _) = _
  rw [List.foldlM_append, scan_tokens, List.nil_append, ← decoded]
  rfl

/-- What may be written: the ids of the strings that are scanned, and values as JavaScript has them. -/
def Writable (sha : Sha256) (idOf : JsString → Nat) (strings : JsMap Nat JsString) (saved : List SavedRow) :
    Prop :=
  ∀ value digest, .written value digest ∈ saved → digest = valueDigest sha value ∧ Proper value ∧
    Resolves idOf strings.get? (texts value)

/-- The rows of a save: those that are written are recorded, and every other row stays. -/
theorem scan_saved {idOf : JsString → Nat} (kind : RowKind) (rows : RowKind → JsMap Nat DecodedRow)
    (offset : Nat) {saved : List SavedRow} (writable : Writable sha idOf strings saved) (safe : offset + saved.length ≤ 2 ^ 53) :
    ∃ rows', (savedFrames idOf kind offset saved).foldlM (indexFrame sha) ⟨strings, rows, none⟩ =
        .ok ⟨strings, rows', none⟩ ∧
      (∀ kind', kind' ≠ kind → rows' kind' = rows kind') ∧
      (∀ i value digest, saved[i]? = some (.written value digest) →
        Recorded sha rows' kind (offset + i) value) ∧
      ∀ row, (∀ i value digest, saved[i]? = some (.written value digest) → row ≠ offset + i) →
        (rows' kind).get? row = (rows kind).get? row := by
  induction saved generalizing offset rows with
  | nil => exact ⟨rows, rfl, fun _ _ => rfl, fun i value digest found => by simp at found, fun _ _ => rfl⟩
  | cons row saved ih =>
    rw [List.length_cons] at safe
    have later : Writable sha idOf strings saved := fun value digest inside =>
      writable value digest (List.mem_cons_of_mem _ inside)
    cases row with
    | kept old =>
      obtain ⟨rows', scanned, others, recorded, stay⟩ := ih rows (offset + 1) later (by omega)
      refine ⟨rows', scanned, others, ?_, ?_⟩
      · intro i value digest found
        cases i with
        | zero => cases found
        | succ i =>
          have there := recorded i value digest found
          rwa [show offset + 1 + i = offset + (i + 1) by omega] at there
      · intro row absent
        refine stay row fun i value digest found same => absent (i + 1) value digest found ?_
        omega
    | written value digest =>
      obtain ⟨rfl, proper, resolves⟩ := writable value digest List.mem_cons_self
      obtain ⟨rows', scanned, others, recorded, stay⟩ := ih
        (Function.update rows kind ((rows kind).set offset
          ⟨valueDigest sha value, some value, (valueTokens value).map (Token.frame idOf)⟩)) (offset + 1)
        later (by omega)
      refine ⟨rows', ?_, ?_, ?_, ?_⟩
      · rw [savedFrames, List.foldlM_append, scan_row kind (by omega) proper resolves]
        exact scanned
      · intro kind' other
        rw [others kind' other, Function.update_of_ne other]
      · intro i value' digest' found
        cases i with
        | zero =>
          cases found
          -- The rows after it have other places.
          have own := stay offset fun i value digest _ same => by omega
          rw [Function.update_self, JsMap.get?_set_self] at own
          exact ⟨_, own⟩
        | succ i =>
          have there := recorded i value' digest' found
          rwa [show offset + 1 + i = offset + (i + 1) by omega] at there
      · intro row absent
        have other : row ≠ offset := absent 0 value _ rfl
        have same := stay row fun i value digest found same => absent (i + 1) value digest found (by omega)
        rwa [Function.update_self, JsMap.get?_set_of_ne other] at same

/-- The strings of a save, whose ids follow those that are taken. -/
theorem scan_strings (sha : Sha256) (strings : JsMap Nat JsString) (rows : RowKind → JsMap Nat DecodedRow)
    {entries : List (JsString × StringRange)} {first : Nat}
    (ids : entries.map (·.2.id) = List.range' first entries.length)
    (lengths : ∀ entry ∈ entries, entry.1.length < 2 ^ 53) (safe : first + entries.length ≤ 2 ^ 53)
    (unused : ∀ id, first ≤ id → strings.get? id = none) :
    ∃ strings', (entries.flatMap fun entry => stringFrames entry.2.id entry.1).foldlM (indexFrame sha)
        ⟨strings, rows, none⟩ = .ok ⟨strings', rows, none⟩ ∧
      (∀ id text, strings.get? id = some text → strings'.get? id = some text) ∧
      (∀ entry ∈ entries, strings'.get? entry.2.id = some entry.1) ∧
      ∀ id, first + entries.length ≤ id → strings'.get? id = none := by
  induction entries generalizing first strings with
  | nil => exact ⟨strings, rfl, fun _ _ found => found, nofun, unused⟩
  | cons entry entries ih =>
    rw [List.map_cons, List.length_cons, List.range'_succ, List.cons.injEq] at ids
    rw [List.length_cons] at safe
    obtain ⟨own, ids⟩ := ids
    have fresh : strings.get? entry.2.id = none := unused _ (by omega)
    obtain ⟨strings', scanned, kept, added, after⟩ := ih (strings.set entry.2.id entry.1) ids
      (fun entry inside => lengths entry (List.mem_cons_of_mem _ inside)) (by omega) fun id above => by
        rw [JsMap.get?_set_of_ne (by omega)]
        exact unused id (by omega)
    refine ⟨strings', ?_, ?_, ?_, ?_⟩
    · rw [List.flatMap_cons, List.foldlM_append,
        scan_string fresh (by omega) (lengths entry List.mem_cons_self)]
      exact scanned
    · intro id text found
      refine kept id text ?_
      rw [JsMap.get?_set_of_ne]
      · exact found
      · rintro rfl
        rw [fresh] at found
        cases found
    · intro entry' inside
      obtain rfl | inside := List.mem_cons.mp inside
      · exact kept _ _ JsMap.get?_set_self
      · exact added entry' inside
    · intro id above
      rw [List.length_cons] at above
      exact after id (by omega)

/-- The rows up to a count are the first rows. -/
theorem committedRows_eq {rows : JsMap Nat DecodedRow} {count : Nat}
    (all : ∀ row < count, ∃ decoded, rows.get? row = some decoded) :
    committedRows rows count = .ok (rows.filter fun row _ => row < count) := by
  have listed : ∀ row, row ∈ (rows.filter fun row _ => row < count).keys ↔ row ∈ List.range count := by
    intro row
    rw [JsMap.mem_keys, List.mem_range, JsMap.get?_filter]
    constructor
    · rintro ⟨decoded, found⟩
      obtain ⟨_, _, kept⟩ := Option.bind_eq_some_iff.mp found
      by_contra above
      simp [above] at kept
    · intro below
      obtain ⟨decoded, found⟩ := all row below
      exact ⟨decoded, by simp [found, below]⟩
  have size : (rows.filter fun row _ => row < count).size = count := by
    have same := ((List.perm_ext_iff_of_nodup (JsMap.nodup _) List.nodup_range).mpr listed).length_eq
    rw [List.length_range] at same
    rw [JsMap.size_eq_length_keys]
    exact same
  have fewer : (rows.filter fun row _ => row < count).size ≤ rows.size := List.length_filterMap_le _ _
  rw [committedRows, if_neg (by omega)]
  exact if_neg (not_not.mpr size)

/-- The commit of a save leaves the rows that it counts. -/
theorem scan_commit (sha : Sha256) (strings : JsMap Nat JsString) {head : HistoryReference}
    (safe : head.revision < 2 ^ 53 ∧ ∀ kind, head.count kind < 2 ^ 53 ∧ head.frozen kind < 2 ^ 53)
    (all : ∀ kind, ∀ row < head.count kind, ∃ decoded, (rows kind).get? row = some decoded) :
    indexFrame sha ⟨strings, rows, none⟩ (historyCommitFrame head) =
      .ok ⟨strings, fun kind => (rows kind).filter fun row _ => row < head.count kind, none⟩ := by
  obtain ⟨revision, counts⟩ := safe
  have numbers : ∀ {n : Nat}, n < 2 ^ 53 → (asInteger (integer n)).isSome := fun small => by
    rw [asInteger_integer small]
    rfl
  simp only [historyCommitFrame, indexFrame, beginRecord, asInteger_integer (counts .message).1,
    asInteger_integer (counts .tool).1]
  rw [if_pos ⟨trivial, numbers revision, numbers (counts .message).2, numbers (counts .tool).2⟩,
    committedRows_eq (all .message), committedRows_eq (all .tool)]
  have each : ∀ {rows' rows'' : RowKind → JsMap Nat DecodedRow}, rows' = rows'' →
      (Except.ok ⟨strings, rows', none⟩ : Except JsString JournalIndex) = .ok ⟨strings, rows'', none⟩ :=
    fun same => by rw [same]
  refine each (funext fun kind => ?_)
  cases kind <;> rfl

end Records

/-! ## Lines that fit -/

section Fits

/-- A token as proper values have it. -/
def Token.Fits : Token → Prop
  | .number value => value.text.length ≤ 25
  | .ref text => text.length < 2 ^ 53
  | .array length => length < 2 ^ 53
  | .object length => length < 2 ^ 53
  | _ => True

mutual

theorem fits_value : ∀ value : Value, Proper value → ∀ token ∈ valueTokens value, token.Fits
  | .null, _, token, inside => by
    obtain rfl := List.mem_singleton.mp inside
    trivial
  | .boolean _, _, token, inside => by
    obtain rfl := List.mem_singleton.mp inside
    trivial
  | .number value, proper, token, inside => by
    obtain rfl := List.mem_singleton.mp inside
    exact proper
  | .string value, proper, token, inside => by
    obtain rfl := List.mem_singleton.mp inside
    exact proper
  | .array items, proper, token, inside => by
    obtain rfl | inside := List.mem_cons.mp inside
    · exact proper.1
    · exact fits_items items proper.2 token inside
  | .object members, proper, token, inside => by
    obtain rfl | inside := List.mem_cons.mp inside
    · exact proper.1
    · exact fits_members members proper.2.2 token inside

theorem fits_items : ∀ items : List Value, ProperItems items → ∀ token ∈ itemTokens items, token.Fits
  | [], _, _, inside => by cases inside
  | item :: items, proper, token, inside => by
    rw [itemTokens] at inside
    obtain inside | inside := List.mem_append.mp inside
    · exact fits_value item proper.1 token inside
    · exact fits_items items proper.2 token inside

theorem fits_members : ∀ members : List (JsString × Value), ProperMembers members →
    ∀ token ∈ memberTokens members, token.Fits
  | [], _, _, inside => by cases inside
  | (key, value) :: members, proper, token, inside => by
    rw [memberTokens] at inside
    obtain rfl | inside := List.mem_cons.mp inside
    · exact proper.1
    · obtain inside | inside := List.mem_append.mp inside
      · exact fits_value value proper.2.1 token inside
      · exact fits_members members proper.2.2 token inside

end

theorem length_of_mem_texts {value : Value} {text : JsString} (proper : Proper value)
    (inside : text ∈ texts value) : text.length < 2 ^ 53 := by
  obtain ⟨token, listed, own⟩ := List.mem_filterMap.mp inside
  obtain rfl := text?_eq_some own
  exact fits_value value proper _ listed

theorem short_named {name : JsString} {items : Frame} (brief : name.length ≤ 16)
    (bound : (items.map fun item => Scalar.bound item + 1).sum ≤ 130000) : Short (.string name :: items) := by
  refine short_of_bound ?_
  rw [List.map_cons, List.sum_cons, Scalar.bound]
  omega

theorem short_token {idOf : JsString → Nat} {token : Token} (fits : token.Fits)
    (ids : ∀ text, token.text? = some text → idOf text < 2 ^ 53) : Short (token.frame idOf) := by
  have one : ∀ {item : Scalar}, Scalar.bound item ≤ 25 →
      ([item].map fun item => Scalar.bound item + 1).sum ≤ 130000 := by
    intro item bound
    simp only [List.map_cons, List.map_nil, List.sum_cons, List.sum_nil]
    omega
  have number : ∀ {n : Nat}, n < 2 ^ 53 → Scalar.bound (integer n) ≤ 25 := fun safe =>
    Nat.le_trans (bound_integer safe) (by decide)
  cases token with
  | null => exact short_named (by decide) (by decide)
  | boolean value => exact short_named (by decide) (one (by simp [Scalar.bound]))
  | number value => exact short_named (by decide) (one fits)
  | ref text => exact short_named (by decide) (one (number (ids text rfl)))
  | array length => exact short_named (by decide) (one (number fits))
  | object length => exact short_named (by decide) (one (number fits))

theorem short_stringFrames {id : Nat} {text : JsString} (safe : id < 2 ^ 53)
    (length : text.length < 2 ^ 53) : ∀ frame ∈ stringFrames id text, Short frame := by
  intro frame inside
  have number := bound_integer safe
  have number' := bound_integer length
  rw [stringFrames, List.cons_append] at inside
  obtain rfl | inside := List.mem_cons.mp inside
  · refine short_named (by decide) ?_
    simp only [List.map_cons, List.map_nil, List.sum_cons, List.sum_nil]
    omega
  · obtain inside | inside := List.mem_append.mp inside
    · obtain ⟨piece, listed, rfl⟩ := List.mem_map.mp inside
      have small := length_of_mem_pieces listed
      refine short_named (by decide) ?_
      rw [HISTORY_STRING_CHARS] at small
      simp only [List.map_cons, List.map_nil, List.sum_cons, List.sum_nil, Scalar.bound]
      omega
    · obtain rfl := List.mem_singleton.mp inside
      exact short_named (by decide) (by decide)

theorem short_savedFrames {idOf : JsString → Nat} {strings : JsMap Nat JsString} {kind : RowKind}
    {saved : List SavedRow} (offset : Nat) (writable : Writable sha idOf strings saved)
    (safe : offset + saved.length ≤ 2 ^ 53) : ∀ frame ∈ savedFrames idOf kind offset saved, Short frame := by
  induction saved generalizing offset with
  | nil => exact nofun
  | cons row saved ih =>
    rw [List.length_cons] at safe
    have later := ih (offset + 1)
      (fun value digest inside => writable value digest (List.mem_cons_of_mem _ inside)) (by omega)
    cases row with
    | kept old => exact later
    | written value digest =>
      obtain ⟨rfl, proper, resolves⟩ := writable value digest List.mem_cons_self
      intro frame inside
      rw [savedFrames, rowFrames, List.cons_append] at inside
      obtain rfl | inside := List.mem_cons.mp inside
      · have number := bound_integer (show offset < 2 ^ 53 by omega)
        have hex := (sha.hex (hashInput value)).1
        refine short_named (by cases kind <;> decide) ?_
        simp only [List.map_cons, List.map_nil, List.sum_cons, List.sum_nil, Scalar.bound, valueDigest, hex]
          at number ⊢
        omega
      · obtain inside | inside := List.mem_append.mp inside
        · obtain inside | inside := List.mem_append.mp inside
          · obtain ⟨token, listed, rfl⟩ := List.mem_map.mp inside
            refine short_token (fits_value value proper token listed) fun text own => ?_
            exact (resolves text (List.mem_filterMap.mpr ⟨token, listed, own⟩)).1
          · obtain rfl := List.mem_singleton.mp inside
            exact short_named (by decide) (by decide)
        · exact later frame inside

theorem short_commit {head : HistoryReference}
    (safe : head.revision < 2 ^ 53 ∧ ∀ kind, head.count kind < 2 ^ 53 ∧ head.frozen kind < 2 ^ 53) :
    Short (historyCommitFrame head) := by
  have revision := bound_integer safe.1
  have messages := safe.2 .message
  have tools := safe.2 .tool
  have counts := bound_integer messages.1
  have counts' := bound_integer tools.1
  have frozen := bound_integer messages.2
  have frozen' := bound_integer tools.2
  refine short_named (by decide) ?_
  simp only [List.map_cons, List.map_nil, List.sum_cons, List.sum_nil]
  omega

end Fits

end Takode.SessionHistory
