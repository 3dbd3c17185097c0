import Takode.Lib.Codes
import Takode.SessionHistory.Codec

/-!
# Digests of values

What a value's digest is taken of determines the value, so a save that keeps the rows with the digests
that it finds keeps a changed row only where two different inputs have one digest
(`valueDigest`, `SessionHistoryJournal.append`).
-/

namespace Takode.SessionHistory

open JsString JsonText

/-! ## Tokens -/

section Tokens

theorem utf16le_selfDelimiting {text text' : JsString} {rest rest' : Bytes}
    (length : text.length = text'.length) (same : utf16le text ++ rest = utf16le text' ++ rest') :
    text = text' ∧ rest = rest' := by
  have unit : SelfDelimiting fun c : UInt16 => [UInt8.ofNat (c.toNat % 256), UInt8.ofNat (c.toNat / 256)] := by
    intro c c' rest rest' same
    simp only [List.cons_append, List.nil_append, List.cons.injEq] at same
    obtain ⟨low, high, after⟩ := same
    have low' := congrArg UInt8.toNat low
    have high' := congrArg UInt8.toNat high
    have small := c.toNat_lt
    have small' := c'.toNat_lt
    rw [UInt8.toNat_ofNat', UInt8.toNat_ofNat'] at low' high'
    refine ⟨UInt16.toNat_inj.mp ?_, after⟩
    omega
  exact unit.flatMap_of_length length same

theorem stringHeader_selfDelimiting : SelfDelimiting stringHeader := by
  -- The digits of a length are ASCII, and none of them is the colon after them.
  have code : ∀ {n : Nat} {c : UInt16}, c ∈ decimal n →
      (UInt8.ofNat c.toNat).toNat = c.toNat ∧ 48 ≤ c.toNat ∧ c.toNat ≤ 57 := by
    intro n c inside
    have range := toNat_of_isDigit (isDigit_of_mem_decimal inside)
    refine ⟨?_, range⟩
    rw [UInt8.toNat_ofNat', Nat.mod_eq_of_lt (by omega)]
  have digits : Function.Injective fun n => (decimal n).map fun c => UInt8.ofNat c.toNat := by
    intro n n' same
    have same : (decimal n).map (fun c => UInt8.ofNat c.toNat) =
        (decimal n').map fun c => UInt8.ofNat c.toNat := same
    refine decimal_injective ?_
    have back : ∀ m, ((decimal m).map fun c => UInt8.ofNat c.toNat).map
        (fun b => UInt16.ofNat b.toNat) = decimal m := by
      intro m
      rw [List.map_map]
      conv_rhs => rw [← List.map_id (decimal m)]
      refine List.map_congr_left fun c inside => ?_
      rw [Function.comp_apply, (code inside).1, UInt16.ofNat_toNat]
      rfl
    rw [← back n, same, back n']
  have unmarked : ∀ n, (58 : UInt8) ∉ (decimal n).map fun c => UInt8.ofNat c.toNat := by
    intro n inside
    obtain ⟨c, digit, same⟩ := List.mem_map.mp inside
    have number := congrArg UInt8.toNat same
    rw [(code digit).1] at number
    have colon : (58 : UInt8).toNat = 58 := rfl
    have range := (code digit).2
    omega
  intro n n' rest rest' same
  unfold stringHeader at same
  simp only [List.cons_append, List.cons.injEq, true_and] at same
  exact SelfDelimiting.of_mark digits unmarked same

theorem integer_injective : Function.Injective integer := by
  intro n n' same
  exact Numeral.ofNat_injective (Scalar.number.inj same)

/-- A token is told by its array, but for the string that it refers to. -/
theorem frame_injective {token token' : Token} (plain : token.text? = none) (plain' : token'.text? = none)
    (same : token.frame (fun _ => 0) = token'.frame fun _ => 0) : token = token' := by
  have kind := congrArg List.head? same
  have item := congrArg (fun frame => frame[1]?) same
  cases token <;> cases token' <;>
    simp only [Token.frame, List.head?_cons, Option.some.injEq, Scalar.string.injEq] at kind <;>
    first
    | exact absurd kind (by decide)
    | skip
  case null.null => rfl
  case boolean.boolean => exact congrArg Token.boolean (Scalar.boolean.inj (Option.some.inj item))
  case number.number => exact congrArg Token.number (Scalar.number.inj (Option.some.inj item))
  case ref.ref => cases plain
  case array.array => exact congrArg Token.array (integer_injective (Option.some.inj item))
  case object.object => exact congrArg Token.object (integer_injective (Option.some.inj item))

theorem hashed_of_plain {token : Token} (plain : token.text? = none) :
    token.hashed = line (token.frame fun _ => 0) := by
  cases token with
  | ref text => cases plain
  | _ => rfl

theorem text?_eq_some {token : Token} {text : JsString} (found : token.text? = some text) :
    token = .ref text := by
  cases token with
  | ref other => exact congrArg Token.ref (Option.some.inj found)
  | _ => cases found

/-- The bytes of a token start with a bracket, or with the letter of a string. -/
theorem hashed_selfDelimiting : SelfDelimiting Token.hashed := by
  have reference : ∀ text rest, (Token.hashed (.ref text) ++ rest).head? = some 115 := fun _ _ => rfl
  have plainly : ∀ token : Token, token.text? = none → ∀ rest,
      (token.hashed ++ rest).head? = some 91 := by
    intro token plain rest
    rw [hashed_of_plain plain]
    rfl
  intro token token' rest rest' same
  cases found : token.text? with
  | none =>
    cases found' : token'.text? with
    | none =>
      rw [hashed_of_plain found, hashed_of_plain found'] at same
      obtain ⟨frames, after⟩ := line_append_inj same
      exact ⟨frame_injective found found' frames, after⟩
    | some text' =>
      have first := congrArg List.head? same
      rw [text?_eq_some found', reference, plainly token found] at first
      exact absurd first (by decide)
  | some text =>
    obtain rfl := text?_eq_some found
    cases found' : token'.text? with
    | none =>
      have first := congrArg List.head? same
      rw [reference, plainly token' found'] at first
      exact absurd first (by decide)
    | some text' =>
      obtain rfl := text?_eq_some found'
      simp only [Token.hashed, List.append_assoc] at same
      obtain ⟨length, same⟩ := stringHeader_selfDelimiting same
      obtain ⟨rfl, same⟩ := utf16le_selfDelimiting length same
      exact ⟨rfl, List.append_cancel_left same⟩

theorem hashed_ne_nil (token : Token) : token.hashed ≠ [] := by
  cases token with
  | ref text => exact List.cons_ne_nil _ _
  | _ => exact line_ne_nil _

end Tokens

/-! ## Values -/

mutual

/-- The tokens of a value tell where it ends. -/
theorem valueTokens_selfDelimiting : ∀ (value value' : Value) (rest rest' : List Token),
    valueTokens value ++ rest = valueTokens value' ++ rest' → value = value' ∧ rest = rest'
  | .null, value', rest, rest', same => by
    cases value' with
    | null => exact ⟨rfl, (List.cons.inj same).2⟩
    | _ => cases (List.cons.inj same).1
  | .boolean value, value', rest, rest', same => by
    cases value' with
    | boolean =>
      obtain ⟨first, after⟩ := List.cons.inj same
      exact ⟨congrArg Value.boolean (Token.boolean.inj first), after⟩
    | _ => cases (List.cons.inj same).1
  | .number value, value', rest, rest', same => by
    cases value' with
    | number =>
      obtain ⟨first, after⟩ := List.cons.inj same
      exact ⟨congrArg Value.number (Token.number.inj first), after⟩
    | _ => cases (List.cons.inj same).1
  | .string value, value', rest, rest', same => by
    cases value' with
    | string =>
      obtain ⟨first, after⟩ := List.cons.inj same
      exact ⟨congrArg Value.string (Token.ref.inj first), after⟩
    | _ => cases (List.cons.inj same).1
  | .array items, value', rest, rest', same => by
    cases value' with
    | array items' =>
      obtain ⟨first, next⟩ := List.cons.inj same
      obtain ⟨rfl, after⟩ := itemTokens_selfDelimiting items items' rest rest' (Token.array.inj first) next
      exact ⟨rfl, after⟩
    | _ => cases (List.cons.inj same).1
  | .object members, value', rest, rest', same => by
    cases value' with
    | object members' =>
      obtain ⟨first, next⟩ := List.cons.inj same
      obtain ⟨rfl, after⟩ :=
        memberTokens_selfDelimiting members members' rest rest' (Token.object.inj first) next
      exact ⟨rfl, after⟩
    | _ => cases (List.cons.inj same).1

theorem itemTokens_selfDelimiting : ∀ (items items' : List Value) (rest rest' : List Token),
    items.length = items'.length → itemTokens items ++ rest = itemTokens items' ++ rest' →
      items = items' ∧ rest = rest'
  | [], items', rest, rest', length, same => by
    obtain rfl := List.length_eq_zero_iff.mp length.symm
    exact ⟨rfl, same⟩
  | item :: items, items', rest, rest', length, same => by
    cases items' with
    | nil => cases length
    | cons item' items' =>
      rw [itemTokens, itemTokens, List.append_assoc, List.append_assoc] at same
      obtain ⟨rfl, next⟩ := valueTokens_selfDelimiting item item' _ _ same
      obtain ⟨rfl, after⟩ := itemTokens_selfDelimiting items items' rest rest' (Nat.succ.inj length) next
      exact ⟨rfl, after⟩

theorem memberTokens_selfDelimiting : ∀ (members members' : List (JsString × Value))
    (rest rest' : List Token), members.length = members'.length →
    memberTokens members ++ rest = memberTokens members' ++ rest' → members = members' ∧ rest = rest'
  | [], members', rest, rest', length, same => by
    obtain rfl := List.length_eq_zero_iff.mp length.symm
    exact ⟨rfl, same⟩
  | (key, value) :: members, members', rest, rest', length, same => by
    cases members' with
    | nil => cases length
    | cons member members' =>
      obtain ⟨key', value'⟩ := member
      rw [memberTokens, memberTokens, List.cons_append, List.cons_append, List.append_assoc,
        List.append_assoc] at same
      obtain ⟨first, next⟩ := List.cons.inj same
      obtain rfl := Token.ref.inj first
      obtain ⟨rfl, later⟩ := valueTokens_selfDelimiting value value' _ _ next
      obtain ⟨rfl, after⟩ :=
        memberTokens_selfDelimiting members members' rest rest' (Nat.succ.inj length) later
      exact ⟨rfl, after⟩

end

theorem hashInput_injective : Function.Injective hashInput := by
  intro value value' same
  have tokens := hashed_selfDelimiting.flatMap_injective hashed_ne_nil same
  have padded : valueTokens value ++ [] = valueTokens value' ++ [] := by rw [tokens]
  exact (valueTokens_selfDelimiting value value' [] [] padded).1

/-! ## Rows that are kept -/

/-- Where a row is in the file, with the digest of its value. -/
structure RowRange where
  start : Nat
  stop : Nat
  digest : JsString

/-- What a save does with a row: the old one stays, or the row is written. -/
inductive SavedRow
  | kept (old : RowRange)
  | written (value : Value) (digest : JsString)

/-- The rows of a save. Those that are trusted stay without a look at them. -/
def savedRow (sha : Sha256) (old : List RowRange) (trusted index : Nat) (value : Value) : SavedRow :=
  match old[index]? with
  | none => .written value (valueDigest sha value)
  | some range =>
    if index < trusted ∨ range.digest = valueDigest sha value then .kept range
    else .written value (valueDigest sha value)

def savedRows (sha : Sha256) (old : List RowRange) (trusted : Nat) (values : List Value) : List SavedRow :=
  values.mapIdx (savedRow sha old trusted)

/-- Two inputs that have one digest. -/
def Sha256.Collide (sha : Sha256) (bytes bytes' : Bytes) : Prop :=
  bytes ≠ bytes' ∧ sha.digest bytes = sha.digest bytes'

/-- Values that are hashed alike are one value, so a row that a save compares and keeps has the value
that the row before had, or their inputs collide. -/
theorem digest_tells_values (sha : Sha256) :
    (∀ value value', hashInput value = hashInput value' → value = value') ∧
    ∀ (before values : List Value) (old : List RowRange) (trusted index : Nat) (range : RowRange),
      old.map (·.digest) = before.map (valueDigest sha) → trusted ≤ index →
      (savedRows sha old trusted values)[index]? = some (.kept range) →
      ∃ value value', before[index]? = some value ∧ values[index]? = some value' ∧
        (value = value' ∨ sha.Collide (hashInput value) (hashInput value')) := by
  refine ⟨fun value value' same => hashInput_injective same, ?_⟩
  intro before values old trusted index range digests compared kept
  rw [savedRows, List.getElem?_mapIdx, Option.map_eq_some_iff] at kept
  obtain ⟨value', found', kept⟩ := kept
  rw [savedRow] at kept
  cases found : old[index]? with
  | none =>
    rw [found] at kept
    cases kept
  | some range' =>
    rw [found] at kept
    dsimp only at kept
    have digest := congrArg (fun digests => digests[index]?) digests
    simp only [List.getElem?_map, found, Option.map_some] at digest
    obtain ⟨value, there, same⟩ := Option.map_eq_some_iff.mp digest.symm
    refine ⟨value, value', there, found', ?_⟩
    by_cases equal : value = value'
    · exact .inl equal
    · refine .inr ⟨fun bytes => equal (hashInput_injective bytes), ?_⟩
      split at kept
      · rename_i reason
        rcases reason with early | own
        · omega
        · exact same.trans own
      · cases kept

end Takode.SessionHistory
