import Takode.Lib.JsonText

/-!
# Compact JSON texts

`JSON.stringify` of a value, without white space: values have different texts.
-/

namespace Takode.JsonText

open JsString

mutual

/-- `JSON.stringify(value)`. -/
def compact : Value → List Char
  | .null => ['n', 'u', 'l', 'l']
  | .boolean true => ['t', 'r', 'u', 'e']
  | .boolean false => ['f', 'a', 'l', 's', 'e']
  | .number value => value.text
  | .string value => quote value
  | .array items => '[' :: compactItems items
  | .object members => '{' :: compactMembers members

/-- The items of an array, up to its bracket. -/
def compactItems : List Value → List Char
  | [] => [']']
  | item :: items => compact item ++ compactMoreItems items

def compactMoreItems : List Value → List Char
  | [] => [']']
  | item :: items => ',' :: (compact item ++ compactMoreItems items)

/-- The members of an object, up to its brace. -/
def compactMembers : List (JsString × Value) → List Char
  | [] => ['\x7d']
  | (key, value) :: members => quote key ++ ':' :: (compact value ++ compactMoreMembers members)

def compactMoreMembers : List (JsString × Value) → List Char
  | [] => ['\x7d']
  | (key, value) :: members =>
    ',' :: (quote key ++ ':' :: (compact value ++ compactMoreMembers members))

end

/-- What comes next is no part of a number. -/
def Stops (rest : List Char) : Prop := ∀ c ∈ rest.head?, isNumeralChar c = false

theorem stops_cons {c : Char} (rest : List Char) (plain : isNumeralChar c = false) : Stops (c :: rest) := by
  intro d first
  cases first
  exact plain

theorem quote_append_inj {s s' : JsString} {rest rest' : List Char}
    (same : quote s ++ rest = quote s' ++ rest') : s = s' ∧ rest = rest' := by
  simp only [quote, List.cons_append, List.append_assoc, List.cons.injEq, true_and] at same
  have read := congrArg unquote same
  rw [unquote_quoteBody, unquote_quoteBody] at read
  have both := Prod.mk.inj (Option.some.inj read)
  exact both

theorem numeral_append_inj {value value' : Numeral} {rest rest' : List Char} (stops : Stops rest)
    (stops' : Stops rest') (same : value.text ++ rest = value'.text ++ rest') :
    value = value' ∧ rest = rest' := by
  have taken : ∀ (value : Numeral) (rest : List Char), Stops rest →
      (value.text ++ rest).takeWhile isNumeralChar = value.text := by
    intro value rest stops
    rw [List.takeWhile_append_of_pos value.plain]
    cases rest with
    | nil => rw [List.takeWhile_nil, List.append_nil]
    | cons c rest =>
      have plain := stops c rfl
      rw [List.takeWhile_cons_of_neg (by simp [plain]), List.append_nil]
  have texts := congrArg (List.takeWhile isNumeralChar) same
  rw [taken value rest stops, taken value' rest' stops'] at texts
  rw [texts] at same
  refine ⟨?_, List.append_cancel_left same⟩
  cases value
  cases value'
  cases texts
  rfl

/-- What a text is of, by its first character. -/
def kindOf (c : Char) : Nat :=
  if c = 'n' then 0 else if c = 't' then 1 else if c = 'f' then 2 else if c = '"' then 3
  else if c = '[' then 4 else if c = '\x7b' then 5 else if c = ']' then 7 else 6

def kind : Value → Nat
  | .null => 0
  | .boolean true => 1
  | .boolean false => 2
  | .string _ => 3
  | .array _ => 4
  | .object _ => 5
  | .number _ => 6

theorem kindOf_numeral {c : Char} (plain : isNumeralChar c = true) : kindOf c = 6 := by
  have others : ∀ d : Char, isNumeralChar d = false → c ≠ d := by
    intro d other same
    rw [same, other] at plain
    cases plain
  unfold kindOf
  rw [if_neg (others 'n' (by decide)), if_neg (others 't' (by decide)), if_neg (others 'f' (by decide)),
    if_neg (others '"' (by decide)), if_neg (others '[' (by decide)),
    if_neg (others '\x7b' (by decide)), if_neg (others ']' (by decide))]

theorem kindOf_compact (value : Value) : ∃ c rest, compact value = c :: rest ∧ kindOf c = kind value := by
  cases value with
  | null => exact ⟨_, _, rfl, rfl⟩
  | boolean value => cases value <;> exact ⟨_, _, rfl, rfl⟩
  | number value =>
    cases text : value.text with
    | nil => exact absurd text value.filled
    | cons c rest =>
      have plain : isNumeralChar c = true := value.plain c (by rw [text]; exact List.mem_cons_self)
      exact ⟨c, rest, text, kindOf_numeral plain⟩
  | string value => exact ⟨_, _, rfl, rfl⟩
  | array items => exact ⟨_, _, rfl, rfl⟩
  | object members => exact ⟨_, _, rfl, rfl⟩

theorem kind_eq {value value' : Value} {rest rest' : List Char}
    (same : compact value ++ rest = compact value' ++ rest') : kind value = kind value' := by
  obtain ⟨c, more, text, own⟩ := kindOf_compact value
  obtain ⟨c', more', text', own'⟩ := kindOf_compact value'
  rw [text, text'] at same
  rw [← own, ← own', (List.cons.inj same).1]

/-- No text starts with the end of an array. -/
theorem compact_ne_bracket (value : Value) (more rest : List Char) : compact value ++ more ≠ ']' :: rest := by
  intro same
  obtain ⟨c, front, text, own⟩ := kindOf_compact value
  rw [text] at same
  have bracket : kindOf c = 7 := by rw [(List.cons.inj same).1]; rfl
  rw [bracket] at own
  cases value with
  | boolean value => cases value <;> cases own
  | _ => cases own

theorem stops_compactMoreItems (items : List Value) (rest : List Char) :
    Stops (compactMoreItems items ++ rest) := by
  cases items <;> exact stops_cons _ (by decide)

theorem stops_compactMoreMembers (members : List (JsString × Value)) (rest : List Char) :
    Stops (compactMoreMembers members ++ rest) := by
  cases members <;> exact stops_cons _ (by decide)

mutual

/-- A text tells where it ends, where no number goes on. -/
theorem compact_append_inj : ∀ (value value' : Value) (rest rest' : List Char), Stops rest → Stops rest' →
    compact value ++ rest = compact value' ++ rest' → value = value' ∧ rest = rest'
  | .null, value', rest, rest', _, _, same => by
    cases value' with
    | null => exact ⟨rfl, List.append_cancel_left same⟩
    | boolean value => cases value <;> cases kind_eq same
    | _ => cases kind_eq same
  | .boolean true, value', rest, rest', _, _, same => by
    cases value' with
    | boolean value =>
      cases value with
      | true => exact ⟨rfl, List.append_cancel_left same⟩
      | false => cases kind_eq same
    | _ => cases kind_eq same
  | .boolean false, value', rest, rest', _, _, same => by
    cases value' with
    | boolean value =>
      cases value with
      | true => cases kind_eq same
      | false => exact ⟨rfl, List.append_cancel_left same⟩
    | _ => cases kind_eq same
  | .number value, value', rest, rest', stops, stops', same => by
    cases value' with
    | number value' =>
      obtain ⟨rfl, after⟩ := numeral_append_inj stops stops' same
      exact ⟨rfl, after⟩
    | boolean value => cases value <;> cases kind_eq same
    | _ => cases kind_eq same
  | .string value, value', rest, rest', _, _, same => by
    cases value' with
    | string value' =>
      obtain ⟨rfl, after⟩ := quote_append_inj same
      exact ⟨rfl, after⟩
    | boolean value => cases value <;> cases kind_eq same
    | _ => cases kind_eq same
  | .array items, value', rest, rest', _, _, same => by
    cases value' with
    | array items' =>
      obtain ⟨rfl, after⟩ := compactItems_append_inj items items' rest rest' (List.cons.inj same).2
      exact ⟨rfl, after⟩
    | boolean value => cases value <;> cases kind_eq same
    | _ => cases kind_eq same
  | .object members, value', rest, rest', _, _, same => by
    cases value' with
    | object members' =>
      obtain ⟨rfl, after⟩ := compactMembers_append_inj members members' rest rest' (List.cons.inj same).2
      exact ⟨rfl, after⟩
    | boolean value => cases value <;> cases kind_eq same
    | _ => cases kind_eq same

theorem compactItems_append_inj : ∀ (items items' : List Value) (rest rest' : List Char),
    compactItems items ++ rest = compactItems items' ++ rest' → items = items' ∧ rest = rest'
  | [], items', rest, rest', same => by
    cases items' with
    | nil => exact ⟨rfl, List.append_cancel_left same⟩
    | cons item' items' =>
      rw [compactItems, compactItems, List.append_assoc] at same
      exact absurd same.symm (compact_ne_bracket item' _ _)
  | item :: items, items', rest, rest', same => by
    cases items' with
    | nil =>
      rw [compactItems, compactItems, List.append_assoc] at same
      exact absurd same (compact_ne_bracket item _ _)
    | cons item' items' =>
      rw [compactItems, compactItems, List.append_assoc, List.append_assoc] at same
      obtain ⟨rfl, next⟩ := compact_append_inj item item' _ _ (stops_compactMoreItems items rest)
        (stops_compactMoreItems items' rest') same
      obtain ⟨rfl, after⟩ := compactMoreItems_append_inj items items' rest rest' next
      exact ⟨rfl, after⟩

theorem compactMoreItems_append_inj : ∀ (items items' : List Value) (rest rest' : List Char),
    compactMoreItems items ++ rest = compactMoreItems items' ++ rest' → items = items' ∧ rest = rest'
  | [], items', rest, rest', same => by
    cases items' with
    | nil => exact ⟨rfl, List.append_cancel_left same⟩
    | cons item' items' => cases (List.cons.inj same).1
  | item :: items, items', rest, rest', same => by
    cases items' with
    | nil => cases (List.cons.inj same).1
    | cons item' items' =>
      rw [compactMoreItems, compactMoreItems, List.cons_append, List.cons_append, List.append_assoc,
        List.append_assoc] at same
      obtain ⟨rfl, next⟩ := compact_append_inj item item' _ _ (stops_compactMoreItems items rest)
        (stops_compactMoreItems items' rest') (List.cons.inj same).2
      obtain ⟨rfl, after⟩ := compactMoreItems_append_inj items items' rest rest' next
      exact ⟨rfl, after⟩

theorem compactMembers_append_inj : ∀ (members members' : List (JsString × Value)) (rest rest' : List Char),
    compactMembers members ++ rest = compactMembers members' ++ rest' → members = members' ∧ rest = rest'
  | [], members', rest, rest', same => by
    cases members' with
    | nil => exact ⟨rfl, List.append_cancel_left same⟩
    | cons member' members' => cases (List.cons.inj same).1
  | (key, value) :: members, members', rest, rest', same => by
    cases members' with
    | nil => cases (List.cons.inj same).1
    | cons member' members' =>
      obtain ⟨key', value'⟩ := member'
      simp only [compactMembers, List.append_assoc, List.cons_append] at same
      obtain ⟨rfl, named⟩ := quote_append_inj same
      obtain ⟨rfl, next⟩ := compact_append_inj value value' _ _ (stops_compactMoreMembers members rest)
        (stops_compactMoreMembers members' rest') (List.cons.inj named).2
      obtain ⟨rfl, after⟩ := compactMoreMembers_append_inj members members' rest rest' next
      exact ⟨rfl, after⟩

theorem compactMoreMembers_append_inj : ∀ (members members' : List (JsString × Value))
    (rest rest' : List Char), compactMoreMembers members ++ rest = compactMoreMembers members' ++ rest' →
      members = members' ∧ rest = rest'
  | [], members', rest, rest', same => by
    cases members' with
    | nil => exact ⟨rfl, List.append_cancel_left same⟩
    | cons member' members' => cases (List.cons.inj same).1
  | (key, value) :: members, members', rest, rest', same => by
    cases members' with
    | nil => cases (List.cons.inj same).1
    | cons member' members' =>
      obtain ⟨key', value'⟩ := member'
      simp only [compactMoreMembers, List.append_assoc, List.cons_append] at same
      obtain ⟨rfl, named⟩ := quote_append_inj (List.cons.inj same).2
      obtain ⟨rfl, next⟩ := compact_append_inj value value' _ _ (stops_compactMoreMembers members rest)
        (stops_compactMoreMembers members' rest') (List.cons.inj named).2
      obtain ⟨rfl, after⟩ := compactMoreMembers_append_inj members members' rest rest' next
      exact ⟨rfl, after⟩

end

theorem compact_injective : Function.Injective compact := by
  intro value value' same
  have padded : compact value ++ [] = compact value' ++ [] := by rw [same]
  have nothing : Stops [] := fun c first => by cases first
  exact (compact_append_inj value value' [] [] nothing nothing padded).1

end Takode.JsonText
