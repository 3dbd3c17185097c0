import Takode.Lib.FreshNames

/-!
# JSON texts

`JSON.stringify` and `JSON.parse` for arrays of strings, numbers and booleans, and the
lines of bytes that such arrays are written as. A text is a list of Unicode characters: a
lone surrogate is written as an escape. A finite number is given by its text, since
`String(x)` tells all finite numbers apart but `-0`, which is written as `0`.
-/

namespace Takode

open JsString

/-! ## Strings -/

namespace JsString

def isHighSurrogate (c : UInt16) : Bool := 0xD800 ≤ c && c ≤ 0xDBFF
def isLowSurrogate (c : UInt16) : Bool := 0xDC00 ≤ c && c ≤ 0xDFFF

end JsString

namespace JsonText

def hexDigit (n : Nat) : Char := if n < 10 then Char.ofNat (48 + n) else Char.ofNat (87 + n)

def hexValue (c : Char) : Option Nat :=
  if 48 ≤ c.toNat ∧ c.toNat ≤ 57 then some (c.toNat - 48)
  else if 97 ≤ c.toNat ∧ c.toNat ≤ 102 then some (c.toNat - 87)
  else if 65 ≤ c.toNat ∧ c.toNat ≤ 70 then some (c.toNat - 55)
  else none

def unicodeEscape (c : UInt16) : List Char :=
  ['\\', 'u', hexDigit (c.toNat / 4096), hexDigit (c.toNat / 256 % 16), hexDigit (c.toNat / 16 % 16),
    hexDigit (c.toNat % 16)]

/-- A code unit that is not half of a pair. -/
def escape (c : UInt16) : List Char :=
  if c = 34 then ['\\', '"']
  else if c = 92 then ['\\', '\\']
  else if c = 8 then ['\\', 'b']
  else if c = 9 then ['\\', 't']
  else if c = 10 then ['\\', 'n']
  else if c = 12 then ['\\', 'f']
  else if c = 13 then ['\\', 'r']
  else if c < 32 || isHighSurrogate c || isLowSurrogate c then unicodeEscape c
  else [Char.ofNat c.toNat]

/-- The character of a surrogate pair. -/
def pairChar (c d : UInt16) : Char :=
  Char.ofNat (0x10000 + (c.toNat - 0xD800) * 1024 + (d.toNat - 0xDC00))

def quoteBody : JsString → List Char
  | [] => []
  | [c] => escape c
  | c :: d :: rest =>
    if isHighSurrogate c && isLowSurrogate d then pairChar c d :: quoteBody rest
    else escape c ++ quoteBody (d :: rest)

def quote (s : JsString) : List Char := '"' :: quoteBody s ++ ['"']

/-- The code units of a character. -/
def units (c : Char) : JsString :=
  if c.toNat < 0x10000 then [UInt16.ofNat c.toNat]
  else [UInt16.ofNat (0xD800 + (c.toNat - 0x10000) / 1024), UInt16.ofNat (0xDC00 + (c.toNat - 0x10000) % 1024)]

def simpleEscape (c : Char) : Option UInt16 :=
  if c = '"' then some 34
  else if c = '\\' then some 92
  else if c = '/' then some 47
  else if c = 'b' then some 8
  else if c = 't' then some 9
  else if c = 'n' then some 10
  else if c = 'f' then some 12
  else if c = 'r' then some 13
  else none

/-- The rest of a string after its opening quote, and what comes after it. -/
def unquote : List Char → Option (JsString × List Char)
  | [] => none
  | c :: rest =>
    if c = '"' then some ([], rest)
    else if c = '\\' then
      match rest with
      | 'u' :: a :: b :: c :: d :: rest => do
        let unit := 4096 * (← hexValue a) + 256 * (← hexValue b) + 16 * (← hexValue c) + (← hexValue d)
        let (s, rest) ← unquote rest
        return (UInt16.ofNat unit :: s, rest)
      | e :: rest => do
        let unit ← simpleEscape e
        let (s, rest) ← unquote rest
        return (unit :: s, rest)
      | [] => none
    else if c.toNat < 32 then none
    else do
      let (s, rest) ← unquote rest
      return (units c ++ s, rest)

theorem toNat_ofNat {n : Nat} (valid : n.isValidChar) : (Char.ofNat n).toNat = n := by
  rw [Char.ofNat, dif_pos valid]
  rfl

theorem hexValue_hexDigit {n : Nat} (small : n < 16) : hexValue (hexDigit n) = some n := by
  have all : ∀ n : Fin 16, hexValue (hexDigit n) = some n.val := by decide
  exact all ⟨n, small⟩

/-- A code unit is put before what is read. -/
def prepend (unit : JsString) (read : JsString × List Char) : JsString × List Char :=
  (unit ++ read.1, read.2)

theorem unquote_plain {c : Char} (quotation : c ≠ '"') (backslash : c ≠ '\\') (printed : 32 ≤ c.toNat)
    (rest : List Char) : unquote (c :: rest) = (unquote rest).map (prepend (units c)) := by
  rw [unquote.eq_def]
  simp only [if_neg quotation, if_neg backslash, if_neg (Nat.not_lt.mpr printed)]
  cases unquote rest <;> rfl

theorem unquote_end (rest : List Char) : unquote ('"' :: rest) = some ([], rest) := by
  rw [unquote.eq_def]
  rfl

theorem unquote_simpleEscape {e : Char} {unit : UInt16} (simple : simpleEscape e = some unit)
    (rest : List Char) :
    unquote ('\\' :: e :: rest) = (unquote rest).map (prepend [unit]) := by
  rw [unquote.eq_def]
  simp only [show ('\\' : Char) ≠ '"' by decide, if_false, if_true]
  split
  · rename_i same
    cases same
    cases simple
  · rename_i same
    cases same
    rw [simple]
    cases unquote rest <;> rfl
  · rename_i same
    cases same

theorem unquote_unicodeEscape (c : UInt16) (rest : List Char) :
    unquote (unicodeEscape c ++ rest) = (unquote rest).map (prepend [c]) := by
  have small := c.toNat_lt
  have unit : 4096 * (c.toNat / 4096) + 256 * (c.toNat / 256 % 16) + 16 * (c.toNat / 16 % 16) +
      c.toNat % 16 = c.toNat := by omega
  show unquote ('\\' :: 'u' :: hexDigit _ :: hexDigit _ :: hexDigit _ :: hexDigit _ :: rest) = _
  rw [unquote, if_neg (by decide), if_pos rfl]
  simp only [hexValue_hexDigit (show c.toNat / 4096 < 16 by omega),
    hexValue_hexDigit (show c.toNat / 256 % 16 < 16 by omega),
    hexValue_hexDigit (show c.toNat / 16 % 16 < 16 by omega),
    hexValue_hexDigit (show c.toNat % 16 < 16 by omega), Option.bind_eq_bind, Option.bind_some, unit,
    UInt16.ofNat_toNat]
  cases unquote rest <;> rfl

theorem isHighSurrogate_iff {c : UInt16} :
    isHighSurrogate c = true ↔ 0xD800 ≤ c.toNat ∧ c.toNat ≤ 0xDBFF := by
  simp [isHighSurrogate, UInt16.le_iff_toNat_le]

theorem isLowSurrogate_iff {c : UInt16} :
    isLowSurrogate c = true ↔ 0xDC00 ≤ c.toNat ∧ c.toNat ≤ 0xDFFF := by
  simp [isLowSurrogate, UInt16.le_iff_toNat_le]

theorem escape_cases (c : UInt16) :
    (∃ e, simpleEscape e = some c ∧ escape c = ['\\', e] ∧ 32 ≤ e.toNat ∧ e.toNat < 128) ∨
    escape c = unicodeEscape c ∨
    (escape c = [Char.ofNat c.toNat] ∧ 32 ≤ c.toNat ∧ c ≠ 34 ∧ c ≠ 92 ∧ c.toNat.isValidChar) := by
  unfold escape
  split
  · rename_i same
    exact .inl ⟨'"', by rw [same]; rfl, rfl, by decide, by decide⟩
  split
  · rename_i same
    exact .inl ⟨'\\', by rw [same]; rfl, rfl, by decide, by decide⟩
  split
  · rename_i same
    exact .inl ⟨'b', by rw [same]; rfl, rfl, by decide, by decide⟩
  split
  · rename_i same
    exact .inl ⟨'t', by rw [same]; rfl, rfl, by decide, by decide⟩
  split
  · rename_i same
    exact .inl ⟨'n', by rw [same]; rfl, rfl, by decide, by decide⟩
  split
  · rename_i same
    exact .inl ⟨'f', by rw [same]; rfl, rfl, by decide, by decide⟩
  split
  · rename_i same
    exact .inl ⟨'r', by rw [same]; rfl, rfl, by decide, by decide⟩
  split
  · exact .inr (.inl rfl)
  · rename_i quotation backslash _ _ _ _ _ plain
    simp only [Bool.or_eq_true, decide_eq_true_eq, isHighSurrogate_iff, isLowSurrogate_iff, not_or,
      UInt16.lt_iff_toNat_lt] at plain
    have small := c.toNat_lt
    have printed : 32 ≤ c.toNat := Nat.not_lt.mp plain.1.1
    refine .inr (.inr ⟨rfl, printed, quotation, backslash, ?_⟩)
    unfold Nat.isValidChar
    omega

theorem unquote_escape (c : UInt16) (rest : List Char) :
    unquote (escape c ++ rest) = (unquote rest).map (prepend [c]) := by
  obtain ⟨e, simple, same, _⟩ | same | ⟨same, printed, quotation, backslash, valid⟩ := escape_cases c
  · rw [same]
    exact unquote_simpleEscape simple rest
  · rw [same]
    exact unquote_unicodeEscape c rest
  · rw [same, List.singleton_append]
    have code := toNat_ofNat valid
    have own : UInt16.ofNat c.toNat = c := UInt16.ofNat_toNat
    rw [unquote_plain, units, code, if_pos c.toNat_lt, own]
    · intro same
      rw [same] at code
      exact quotation (own.symm.trans (congrArg UInt16.ofNat code.symm))
    · intro same
      rw [same] at code
      exact backslash (own.symm.trans (congrArg UInt16.ofNat code.symm))
    · rw [code]
      exact printed

theorem toNat_pairChar {c d : UInt16} (high : isHighSurrogate c = true) (low : isLowSurrogate d = true) :
    (pairChar c d).toNat = 0x10000 + (c.toNat - 0xD800) * 1024 + (d.toNat - 0xDC00) := by
  rw [isHighSurrogate_iff] at high
  rw [isLowSurrogate_iff] at low
  refine toNat_ofNat ?_
  unfold Nat.isValidChar
  omega

theorem units_pairChar {c d : UInt16} (high : isHighSurrogate c = true) (low : isLowSurrogate d = true) :
    units (pairChar c d) = [c, d] := by
  have code := toNat_pairChar high low
  rw [isHighSurrogate_iff] at high
  rw [isLowSurrogate_iff] at low
  rw [units, if_neg (by omega)]
  rw [show 0xD800 + ((pairChar c d).toNat - 0x10000) / 1024 = c.toNat by omega,
    show 0xDC00 + ((pairChar c d).toNat - 0x10000) % 1024 = d.toNat by omega,
    UInt16.ofNat_toNat, UInt16.ofNat_toNat]

theorem unquote_quoteBody (s : JsString) (rest : List Char) :
    unquote (quoteBody s ++ '"' :: rest) = some (s, rest) := by
  induction s using quoteBody.induct with
  | case1 => exact unquote_end rest
  | case2 c =>
    rw [quoteBody, unquote_escape, unquote_end]
    rfl
  | case3 c d s pair ih =>
    rw [quoteBody, if_pos pair]
    rw [Bool.and_eq_true] at pair
    have code := toNat_pairChar pair.1 pair.2
    rw [List.cons_append, unquote_plain, ih, units_pairChar pair.1 pair.2]
    · rfl
    · intro same
      rw [same] at code
      exact absurd code (by show (34 : Nat) ≠ _; omega)
    · intro same
      rw [same] at code
      exact absurd code (by show (92 : Nat) ≠ _; omega)
    · omega
  | case4 c d s pair ih =>
    rw [quoteBody, if_neg pair, List.append_assoc, unquote_escape, ih]
    rfl

end JsonText

/-! ## Numbers -/

namespace JsonText

/-- The characters of decimal and exponential notation. -/
def isNumeralChar (c : Char) : Bool :=
  (48 ≤ c.toNat && c.toNat ≤ 57) || c = '-' || c = '+' || c = '.' || c = 'e'

end JsonText

open JsonText

/-- A finite number. -/
structure Numeral where
  text : List Char
  filled : text ≠ []
  plain : ∀ c ∈ text, isNumeralChar c = true
deriving DecidableEq

namespace Numeral

theorem char_of_isDigit {c : UInt16} (digit : isDigit c = true) :
    (Char.ofNat c.toNat).toNat = c.toNat ∧ isNumeralChar (Char.ofNat c.toNat) = true := by
  simp only [isDigit, Bool.and_eq_true, decide_eq_true_eq, UInt16.le_iff_toNat_le] at digit
  have code : (Char.ofNat c.toNat).toNat = c.toNat :=
    toNat_ofNat (Or.inl (Nat.lt_of_le_of_lt digit.2 (by decide)))
  refine ⟨code, ?_⟩
  have first : 48 ≤ c.toNat := digit.1
  have last : c.toNat ≤ 57 := digit.2
  simp [isNumeralChar, code, first, last]

/-- A natural number. -/
def ofNat (n : Nat) : Numeral where
  text := (decimal n).map fun c => Char.ofNat c.toNat
  filled := by simpa using decimal_ne_nil n
  plain c inside := by
    obtain ⟨unit, digit, rfl⟩ := List.mem_map.mp inside
    exact (char_of_isDigit (isDigit_of_mem_decimal digit)).2

/-- The number that the digits of a text stand for. -/
def value (number : Numeral) : Nat := digitsValue (number.text.map fun c => UInt16.ofNat c.toNat)

/-- A number that is an integer, not negative and safe (`Number.isSafeInteger`). -/
def toNat? (number : Numeral) : Option Nat :=
  if number = ofNat number.value ∧ number.value < 2 ^ 53 then some number.value else none

@[simp] theorem value_ofNat (n : Nat) : (ofNat n).value = n := by
  have same : ((decimal n).map fun c => Char.ofNat c.toNat).map (fun c => UInt16.ofNat c.toNat) =
      decimal n := by
    rw [List.map_map]
    conv => rhs; rw [← List.map_id (decimal n)]
    refine List.map_congr_left fun c digit => ?_
    rw [Function.comp_apply, (char_of_isDigit (isDigit_of_mem_decimal digit)).1, UInt16.ofNat_toNat]
    rfl
  rw [value, ofNat, same, digitsValue_decimal]

theorem ofNat_injective : Function.Injective ofNat := Function.LeftInverse.injective value_ofNat

theorem toNat?_ofNat {n : Nat} (safe : n < 2 ^ 53) : (ofNat n).toNat? = some n := by
  rw [toNat?, value_ofNat, if_pos ⟨rfl, safe⟩]

theorem length_text_ofNat {n : Nat} (safe : n < 2 ^ 53) : (ofNat n).text.length ≤ 16 := by
  show ((decimal n).map _).length ≤ 16
  rw [List.length_map, decimal]
  split
  · decide
  · rw [List.length_map, List.length_reverse]
    exact (Nat.digits_length_le_iff (by decide) n).mpr (Nat.lt_trans safe (by decide))

end Numeral

/-! ## Values -/

namespace JsonText

/-- A JSON value; an object lists its members in the order of `Object.keys`. -/
inductive Value
  | null
  | boolean (value : Bool)
  | number (value : Numeral)
  | string (value : JsString)
  | array (items : List Value)
  | object (members : List (JsString × Value))

end JsonText

/-! ## Arrays -/

/-- A member of an array. -/
inductive Scalar
  | string (value : JsString)
  | number (value : Numeral)
  | boolean (value : Bool)
deriving DecidableEq

/-- An array of strings, numbers and booleans. -/
abbrev Frame := List Scalar

namespace JsonText

def scalarText : Scalar → List Char
  | .string value => quote value
  | .number value => value.text
  | .boolean true => ['t', 'r', 'u', 'e']
  | .boolean false => ['f', 'a', 'l', 's', 'e']

def itemsText : Frame → List Char
  | [] => [']']
  | [item] => scalarText item ++ [']']
  | item :: rest => scalarText item ++ ',' :: itemsText rest

/-- `JSON.stringify`. -/
def stringify (frame : Frame) : List Char := '[' :: itemsText frame

def readScalar : List Char → Option (Scalar × List Char)
  | '"' :: rest => (unquote rest).map fun (value, rest) => (.string value, rest)
  | 't' :: 'r' :: 'u' :: 'e' :: rest => some (.boolean true, rest)
  | 'f' :: 'a' :: 'l' :: 's' :: 'e' :: rest => some (.boolean false, rest)
  | text =>
    let digits := text.takeWhile isNumeralChar
    if filled : digits ≠ [] then
      some (.number ⟨digits, filled, fun _ => List.mem_takeWhile_imp⟩, text.dropWhile isNumeralChar)
    else none

/-- The items of an array after its opening bracket, up to a number of them. -/
def readItems : Nat → List Char → Option Frame
  | 0, _ => none
  | n + 1, text =>
    (readScalar text).bind fun (item, rest) =>
      match rest with
      | [']'] => some [item]
      | ',' :: rest => (readItems n rest).map (item :: ·)
      | _ => none

/-- `JSON.parse`, of an array of strings, numbers and booleans as `JSON.stringify` writes it; what
else it can read is not among the lines that are written. -/
def parse : List Char → Option Frame
  | '[' :: rest => if rest = [']'] then some [] else readItems rest.length rest
  | _ => none

theorem readScalar_scalarText (item : Scalar) {c : Char} (rest : List Char)
    (ends : isNumeralChar c = false) :
    readScalar (scalarText item ++ c :: rest) = some (item, c :: rest) := by
  cases item with
  | string value =>
    show readScalar ('"' :: (quoteBody value ++ ['"']) ++ c :: rest) = _
    rw [List.cons_append, List.append_assoc]
    show (unquote (quoteBody value ++ '"' :: c :: rest)).map _ = _
    rw [unquote_quoteBody]
    rfl
  | number value =>
    show readScalar (value.text ++ c :: rest) = _
    have taken : (value.text ++ c :: rest).takeWhile isNumeralChar = value.text := by
      rw [List.takeWhile_append_of_pos value.plain, List.takeWhile_cons_of_neg (by simp [ends]),
        List.append_nil]
    have dropped : (value.text ++ c :: rest).dropWhile isNumeralChar = c :: rest := by
      rw [List.dropWhile_append_of_pos value.plain, List.dropWhile_cons_of_neg (by simp [ends])]
    have other (d : Char) (no : isNumeralChar d = false) (text : List Char) :
        value.text ++ c :: rest ≠ d :: text := by
      intro same
      obtain ⟨first, digits, written⟩ := List.exists_cons_of_ne_nil value.filled
      rw [written, List.cons_append] at same
      have plain := value.plain first (written ▸ List.mem_cons_self)
      rw [(List.cons.inj same).1, no] at plain
      cases plain
    rw [readScalar]
    · simp only [taken, dropped]
      rw [dif_pos value.filled]
    · exact other '"' (by decide)
    · exact fun _ => other 't' (by decide) _
    · exact fun _ => other 'f' (by decide) _
  | boolean value => cases value <;> rfl

theorem itemsText_cons (item next : Scalar) (rest : Frame) :
    itemsText (item :: next :: rest) = scalarText item ++ ',' :: itemsText (next :: rest) := rfl

theorem readItems_itemsText (item : Scalar) (rest : Frame) (n : Nat) (bound : rest.length ≤ n) :
    readItems (n + 1) (itemsText (item :: rest)) = some (item :: rest) := by
  induction rest generalizing item n with
  | nil =>
    rw [readItems, itemsText, readScalar_scalarText item [] (by decide)]
    rfl
  | cons next rest ih =>
    obtain ⟨n, rfl⟩ := Nat.exists_eq_succ_of_ne_zero (Nat.ne_of_gt (Nat.lt_of_lt_of_le (Nat.succ_pos _) bound))
    rw [readItems, itemsText_cons, readScalar_scalarText item _ (by decide)]
    show (readItems (n + 1) (itemsText (next :: rest))).map (item :: ·) = _
    rw [ih next n (Nat.le_of_succ_le_succ bound)]
    rfl

theorem length_le_itemsText (frame : Frame) : frame.length < (itemsText frame).length := by
  induction frame with
  | nil => exact Nat.one_pos
  | cons item rest ih =>
    cases rest with
    | nil =>
      have filled : 0 < (scalarText item).length := by
        cases item with
        | string value => exact Nat.succ_pos _
        | number value => exact List.length_pos_of_ne_nil value.filled
        | boolean value => cases value <;> exact Nat.succ_pos _
      rw [itemsText, List.length_append]
      simp only [List.length_cons, List.length_nil]
      omega
    | cons next rest =>
      rw [itemsText_cons, List.length_append]
      simp only [List.length_cons] at ih ⊢
      omega

theorem parse_stringify (frame : Frame) : parse (stringify frame) = some frame := by
  cases frame with
  | nil => rfl
  | cons item rest =>
    have bound := length_le_itemsText (item :: rest)
    show (if itemsText (item :: rest) = [']'] then _ else readItems _ _) = _
    rw [if_neg]
    · obtain ⟨n, length⟩ := Nat.exists_eq_succ_of_ne_zero (Nat.ne_of_gt (Nat.lt_of_le_of_lt (Nat.zero_le _) bound))
      rw [length]
      refine readItems_itemsText item rest n ?_
      rw [length, List.length_cons] at bound
      omega
    · intro same
      rw [same, List.length_cons] at bound
      simp at bound

/-! ## Lines -/

/-- The bytes of a text in UTF-8. -/
def utf8 (text : List Char) : Bytes := text.flatMap String.utf8EncodeChar

/-- `buffer.toString("utf8")`, of bytes that are UTF-8. -/
def ofUtf8 (bytes : Bytes) : Option (List Char) := bytes.toByteArray.utf8Decode?.map Array.toList

theorem ofUtf8_utf8 (text : List Char) : ofUtf8 (utf8 text) = some text := by
  have decoded := List.utf8Decode?_utf8Encode (l := text)
  rw [List.utf8Encode] at decoded
  rw [ofUtf8, utf8, decoded]
  rfl

theorem le_toNat_ofNat {n : Nat} (above : 128 ≤ n) (small : n < 256) :
    128 ≤ (UInt8.ofNat n).toNat := by
  rw [UInt8.toNat_ofNat', Nat.mod_eq_of_lt small]
  exact above

/-- The bytes of a character are its own or above those of ASCII. -/
theorem mem_utf8EncodeChar {c : Char} {b : UInt8} (inside : b ∈ String.utf8EncodeChar c) :
    (c.toNat < 128 ∧ b = UInt8.ofNat c.toNat) ∨ 128 ≤ b.toNat := by
  simp only [String.utf8EncodeChar] at inside
  split at inside
  · rename_i ascii
    exact .inl ⟨Nat.lt_succ_of_le ascii, List.mem_singleton.mp inside⟩
  right
  split at inside
  · simp only [List.mem_cons, List.not_mem_nil, or_false] at inside
    obtain rfl | rfl := inside <;> exact le_toNat_ofNat (by omega) (by omega)
  split at inside
  · simp only [List.mem_cons, List.not_mem_nil, or_false] at inside
    obtain rfl | rfl | rfl := inside <;> exact le_toNat_ofNat (by omega) (by omega)
  · simp only [List.mem_cons, List.not_mem_nil, or_false] at inside
    obtain rfl | rfl | rfl | rfl := inside <;> exact le_toNat_ofNat (by omega) (by omega)

theorem newline_notMem_utf8 {text : List Char} (printed : ∀ c ∈ text, 32 ≤ c.toNat) :
    (10 : UInt8) ∉ utf8 text := by
  intro inside
  obtain ⟨c, own, byte⟩ := List.mem_flatMap.mp inside
  have code := printed c own
  obtain ⟨ascii, same⟩ | above := mem_utf8EncodeChar byte
  · have same := congrArg UInt8.toNat same
    rw [UInt8.toNat_ofNat', show (10 : UInt8).toNat = 10 from rfl] at same
    omega
  · exact absurd above (by decide)

theorem isNumeralChar_ascii {c : Char} (plain : isNumeralChar c = true) :
    32 ≤ c.toNat ∧ c.toNat < 128 := by
  simp only [isNumeralChar, Bool.or_eq_true, Bool.and_eq_true, decide_eq_true_eq] at plain
  obtain (((digit | rfl) | rfl) | rfl) | rfl := plain
  · omega
  all_goals decide

theorem hexDigit_ascii {n : Nat} (small : n < 16) :
    32 ≤ (hexDigit n).toNat ∧ (hexDigit n).toNat < 128 := by
  have all : ∀ n : Fin 16, 32 ≤ (hexDigit n).toNat ∧ (hexDigit n).toNat < 128 := by decide
  exact all ⟨n, small⟩

theorem unicodeEscape_ascii {c : UInt16} {d : Char} (inside : d ∈ unicodeEscape c) :
    32 ≤ d.toNat ∧ d.toNat < 128 := by
  have small := c.toNat_lt
  simp only [unicodeEscape, List.mem_cons, List.not_mem_nil, or_false] at inside
  obtain rfl | rfl | rfl | rfl | rfl | rfl := inside
  · decide
  · decide
  all_goals exact hexDigit_ascii (by omega)

theorem utf8_append (text text' : List Char) : utf8 (text ++ text') = utf8 text ++ utf8 text' :=
  List.flatMap_append

theorem length_utf8_of_ascii {text : List Char} (ascii : ∀ c ∈ text, c.toNat < 128) :
    (utf8 text).length = text.length := by
  induction text with
  | nil => rfl
  | cons c text ih =>
    have one : (String.utf8EncodeChar c).length = 1 := by
      rw [String.length_utf8EncodeChar, Char.utf8Size_eq_one_iff, UInt32.le_iff_toNat_le]
      exact Nat.le_of_lt_succ (ascii c List.mem_cons_self)
    rw [utf8, List.flatMap_cons, List.length_append, one, List.length_cons, Nat.add_comm]
    exact congrArg (· + 1) (ih fun c inside => ascii c (List.mem_cons_of_mem _ inside))

/-- A code unit is written in up to six bytes, all of them above the control characters. -/
theorem escape_bounds (c : UInt16) :
    (utf8 (escape c)).length ≤ 6 ∧ ∀ d ∈ escape c, 32 ≤ d.toNat := by
  obtain ⟨e, _, same, printed, ascii⟩ | same | ⟨same, printed, _, _, valid⟩ := escape_cases c
  · rw [same]
    have both : ∀ d ∈ ['\\', e], 32 ≤ d.toNat ∧ d.toNat < 128 := by
      intro d inside
      obtain rfl | inside := List.mem_cons.mp inside
      · decide
      · obtain rfl := List.mem_singleton.mp inside
        exact ⟨printed, ascii⟩
    refine ⟨?_, fun d inside => (both d inside).1⟩
    rw [length_utf8_of_ascii fun d inside => (both d inside).2]
    exact Nat.le_of_ble_eq_true rfl
  · rw [same]
    refine ⟨?_, fun d inside => (unicodeEscape_ascii inside).1⟩
    rw [length_utf8_of_ascii fun d inside => (unicodeEscape_ascii inside).2]
    exact Nat.le_refl 6
  · rw [same]
    refine ⟨?_, fun d inside => ?_⟩
    · rw [utf8, List.flatMap_singleton, String.length_utf8EncodeChar]
      exact Nat.le_trans (Char.utf8Size_le_four _) (by decide)
    · rw [List.mem_singleton.mp inside, toNat_ofNat valid]
      exact printed

/-- The body of a string is written in up to six bytes for each code unit. -/
theorem quoteBody_bounds (s : JsString) :
    (utf8 (quoteBody s)).length ≤ 6 * s.length ∧ ∀ c ∈ quoteBody s, 32 ≤ c.toNat := by
  induction s using quoteBody.induct with
  | case1 => exact ⟨Nat.le_refl 0, fun _ inside => by cases inside⟩
  | case2 c => exact escape_bounds c
  | case3 c d s pair ih =>
    rw [quoteBody, if_pos pair]
    rw [Bool.and_eq_true] at pair
    have code := toNat_pairChar pair.1 pair.2
    refine ⟨?_, List.forall_mem_cons.mpr ⟨by omega, ih.2⟩⟩
    have four := Char.utf8Size_le_four (pairChar c d)
    rw [utf8, List.flatMap_cons, List.length_append, String.length_utf8EncodeChar]
    have rest : (utf8 (quoteBody s)).length ≤ 6 * s.length := ih.1
    rw [utf8] at rest
    simp only [List.length_cons]
    omega
  | case4 c d s pair ih =>
    rw [quoteBody, if_neg pair, utf8_append, List.length_append]
    have first := escape_bounds c
    refine ⟨?_, fun e inside => ?_⟩
    · have rest := ih.1
      simp only [List.length_cons] at rest ⊢
      omega
    · obtain inside | inside := List.mem_append.mp inside
      · exact first.2 e inside
      · exact ih.2 e inside

/-- The bytes that the members of an array take at most. -/
def Scalar.bound : Scalar → Nat
  | .string value => 6 * value.length + 2
  | .number value => value.text.length
  | .boolean _ => 5

theorem scalarText_bounds (item : Scalar) :
    (utf8 (scalarText item)).length ≤ Scalar.bound item ∧ ∀ c ∈ scalarText item, 32 ≤ c.toNat := by
  cases item with
  | string value =>
    have body := quoteBody_bounds value
    constructor
    · show (utf8 (['"'] ++ quoteBody value ++ ['"'])).length ≤ _
      rw [utf8_append, utf8_append, List.length_append, List.length_append]
      have one : (utf8 ['"']).length = 1 := rfl
      rw [one, Scalar.bound]
      omega
    · intro c inside
      obtain inside | inside := List.mem_append.mp (show c ∈ ('"' :: quoteBody value) ++ ['"'] from inside)
      · obtain rfl | inside := List.mem_cons.mp inside
        · decide
        · exact body.2 c inside
      · obtain rfl := List.mem_singleton.mp inside
        decide
  | number value =>
    refine ⟨?_, fun c inside => (isNumeralChar_ascii (value.plain c inside)).1⟩
    exact Nat.le_of_eq (length_utf8_of_ascii fun c inside => (isNumeralChar_ascii (value.plain c inside)).2)
  | boolean value =>
    cases value with
    | true => exact ⟨by decide, forall_mem_of_all (by decide)⟩
    | false => exact ⟨by decide, forall_mem_of_all (by decide)⟩

/-- The text of an array: its bytes at most, and that nothing in it is a control character. -/
theorem itemsText_bounds (frame : Frame) :
    (utf8 (itemsText frame)).length ≤ (frame.map fun item => Scalar.bound item + 1).sum + 1 ∧
      ∀ c ∈ itemsText frame, 32 ≤ c.toNat := by
  induction frame with
  | nil => exact ⟨by decide, forall_mem_of_all (by decide)⟩
  | cons item rest ih =>
    have first := scalarText_bounds item
    rw [List.map_cons, List.sum_cons]
    cases rest with
    | nil =>
      rw [itemsText, utf8_append, List.length_append]
      have one : (utf8 [']']).length = 1 := rfl
      refine ⟨by rw [one]; simp only [List.map_nil, List.sum_nil]; omega, fun c inside => ?_⟩
      obtain inside | inside := List.mem_append.mp inside
      · exact first.2 c inside
      · obtain rfl := List.mem_singleton.mp inside
        decide
    | cons next rest =>
      rw [itemsText_cons, utf8_append, List.length_append]
      refine ⟨?_, fun c inside => ?_⟩
      · have one : (utf8 (',' :: itemsText (next :: rest))).length =
            1 + (utf8 (itemsText (next :: rest))).length := by
          rw [← List.singleton_append, utf8_append, List.length_append]
          rfl
        rw [one]
        omega
      · obtain inside | inside := List.mem_append.mp inside
        · exact first.2 c inside
        · obtain rfl | inside := List.mem_cons.mp inside
          · decide
          · exact ih.2 c inside

/-- The line of an array. -/
def line (frame : Frame) : Bytes := utf8 (stringify frame) ++ [10]

/-- The array of a line, without its end. -/
def readLine (bytes : Bytes) : Option Frame := (ofUtf8 bytes).bind parse

theorem readLine_utf8_stringify (frame : Frame) : readLine (utf8 (stringify frame)) = some frame := by
  rw [readLine, ofUtf8_utf8, Option.bind_some, parse_stringify]

theorem stringify_bounds (frame : Frame) :
    (utf8 (stringify frame)).length ≤ (frame.map fun item => Scalar.bound item + 1).sum + 2 ∧
      (10 : UInt8) ∉ utf8 (stringify frame) := by
  have items := itemsText_bounds frame
  constructor
  · rw [stringify, ← List.singleton_append, utf8_append, List.length_append]
    have one : (utf8 ['[']).length = 1 := rfl
    rw [one]
    omega
  · refine newline_notMem_utf8 fun c inside => ?_
    obtain rfl | inside := List.mem_cons.mp inside
    · decide
    · exact items.2 c inside

/-- The complete lines of bytes, and what comes after the last. -/
def splitLines : Bytes → List Bytes × Bytes
  | [] => ([], [])
  | b :: bytes =>
    if b = 10 then ([] :: (splitLines bytes).1, (splitLines bytes).2)
    else match splitLines bytes with
      | ([], rest) => ([], b :: rest)
      | (first :: lines, rest) => ((b :: first) :: lines, rest)

theorem splitLines_append {bytes : Bytes} (plain : (10 : UInt8) ∉ bytes) (rest : Bytes) :
    splitLines (bytes ++ 10 :: rest) = (bytes :: (splitLines rest).1, (splitLines rest).2) := by
  induction bytes with
  | nil =>
    rw [List.nil_append, splitLines, if_pos rfl]
  | cons b bytes ih =>
    rw [List.mem_cons, not_or] at plain
    rw [List.cons_append, splitLines, if_neg (Ne.symm plain.1), ih plain.2]

theorem splitLines_lines (frames : List Frame) (rest : Bytes) :
    splitLines (frames.flatMap line ++ rest) =
      (frames.map (fun frame => utf8 (stringify frame)) ++ (splitLines rest).1, (splitLines rest).2) := by
  induction frames with
  | nil => rfl
  | cons frame frames ih =>
    rw [List.flatMap_cons, line, List.append_assoc, List.append_assoc, List.singleton_append,
      splitLines_append (stringify_bounds frame).2, ih]
    rfl

/-- No line is the beginning of another. -/
theorem line_append_inj {frame frame' : Frame} {rest rest' : Bytes}
    (same : line frame ++ rest = line frame' ++ rest') : frame = frame' ∧ rest = rest' := by
  simp only [line, List.append_assoc, List.singleton_append] at same
  have split := congrArg splitLines same
  rw [splitLines_append (stringify_bounds frame).2, splitLines_append (stringify_bounds frame').2] at split
  have text := (List.cons.inj (Prod.mk.inj split).1).1
  have read := congrArg readLine text
  rw [readLine_utf8_stringify, readLine_utf8_stringify] at read
  refine ⟨Option.some.inj read, ?_⟩
  rw [text] at same
  exact (List.cons.inj (List.append_cancel_left same)).2

theorem line_ne_nil (frame : Frame) : line frame ≠ [] :=
  List.append_ne_nil_of_right_ne_nil _ (List.cons_ne_nil _ _)

end JsonText

end Takode
