import Takode.Lib.Json
import Takode.Lib.JsonText

/-!
# Values

Rows are JSON values, written as tokens (`session-history-codec.ts`). Strings, object keys
among them, are kept apart from the tokens that refer to them, in pieces of bounded length.
-/

namespace Takode.SessionHistory

open JsString JsonText

def HISTORY_STRING_CHARS : Nat := 16 * 1024

/-! ## Tokens -/

/-- A token of a value, with the string that it refers to. -/
inductive Token
  | null
  | boolean (value : Bool)
  | number (value : Numeral)
  | ref (text : JsString)
  | array (length : Nat)
  | object (length : Nat)

mutual

def valueTokens : Value → List Token
  | .null => [.null]
  | .boolean value => [.boolean value]
  | .number value => [.number value]
  | .string value => [.ref value]
  | .array items => .array items.length :: itemTokens items
  | .object members => .object members.length :: memberTokens members

def itemTokens : List Value → List Token
  | [] => []
  | item :: items => valueTokens item ++ itemTokens items

def memberTokens : List (JsString × Value) → List Token
  | [] => []
  | (key, value) :: members => .ref key :: (valueTokens value ++ memberTokens members)

end

/-- `JSON.stringify` writes a safe integer. -/
def integer (n : Nat) : Scalar := .number (.ofNat n)

def Token.frame (stringId : JsString → Nat) : Token → Frame
  | .null => [.string (js "null")]
  | .boolean value => [.string (js "bool"), .boolean value]
  | .number value => [.string (js "number"), .number value]
  | .ref text => [.string (js "ref"), integer (stringId text)]
  | .array length => [.string (js "array"), integer length]
  | .object length => [.string (js "object"), integer length]

def Token.text? : Token → Option JsString
  | .ref text => some text
  | _ => none

/-- The strings of a value, in the order in which its tokens refer to them. -/
def texts (value : Value) : List JsString := (valueTokens value).filterMap Token.text?

/-! ## Digests -/

/-- `createHash("sha256")`, up to its digest in hexadecimal. -/
structure Sha256 where
  digest : Bytes → JsString
  hex : ∀ bytes, (digest bytes).length = 64 ∧
    ∀ c ∈ digest bytes, (isDigit c || (97 ≤ c && c ≤ 102)) = true

/-- `Buffer.from(text, "utf16le")`. -/
def utf16le (text : JsString) : Bytes :=
  text.flatMap fun c => [UInt8.ofNat (c.toNat % 256), UInt8.ofNat (c.toNat / 256)]

/-- `s${length}:`. -/
def stringHeader (length : Nat) : Bytes :=
  115 :: ((decimal length).map (fun c => UInt8.ofNat c.toNat) ++ [58])

def Token.hashed : Token → Bytes
  | .ref text => stringHeader text.length ++ utf16le text ++ line (Token.frame (fun _ => 0) (.ref text))
  | token => line (token.frame fun _ => 0)

/-- What `valueDigest` hashes. -/
def hashInput (value : Value) : Bytes := (valueTokens value).flatMap Token.hashed

def valueDigest (sha : Sha256) (value : Value) : JsString := sha.digest (hashInput value)

/-! ## Strings -/

/-- Up to a number of pieces of a string. -/
def piecesFrom : Nat → JsString → List JsString
  | 0, _ => []
  | n + 1, text =>
    if text = [] then []
    else text.take HISTORY_STRING_CHARS :: piecesFrom n (text.drop HISTORY_STRING_CHARS)

/-- The pieces of a string. -/
def pieces (text : JsString) : List JsString := piecesFrom text.length text

def stringFrames (id : Nat) (value : JsString) : List Frame :=
  [.string (js "string"), integer id, integer value.length] ::
    ((pieces value).map fun piece => [.string (js "part"), .string piece]) ++
    [[.string (js "endString")]]

/-! ## Reading -/

/-- `integer(value)`. -/
def asInteger : Scalar → Option Nat
  | .number value => value.toNat?
  | _ => none

/-- A container that is being filled. -/
inductive Container
  | array (items : List Value)
  | object (members : List (JsString × Value)) (key : Option JsString)

structure OpenContainer where
  container : Container
  remaining : Nat

/-- The containers that are being filled, the innermost first, and the value once it is complete. -/
structure Building where
  unfinished : List OpenContainer
  result : Option Value

/-- An object with properties that were defined one after another. -/
def objectOf (members : List (JsString × Value)) : Value := .object (Record.ofEntries members).ownEntries

/-- Attach the finished value to its parent, closing every parent that it completes. -/
def attach : List OpenContainer → Value → Except JsString Building
  | [], value => .ok ⟨[], some value⟩
  | ⟨.array items, remaining⟩ :: parents, value =>
    if 0 < remaining - 1 then .ok ⟨⟨.array (items ++ [value]), remaining - 1⟩ :: parents, none⟩
    else attach parents (.array (items ++ [value]))
  | ⟨.object members none, remaining⟩ :: parents, value =>
    match value with
    | .string key =>
      if key ∈ members.map Prod.fst then .error (js "Invalid history object key")
      else .ok ⟨⟨.object members (some key), remaining⟩ :: parents, none⟩
    | _ => .error (js "Invalid history object key")
  | ⟨.object members (some key), remaining⟩ :: parents, value =>
    if 0 < remaining - 1 then
      .ok ⟨⟨.object (members ++ [(key, value)]) none, remaining - 1⟩ :: parents, none⟩
    else attach parents (objectOf (members ++ [(key, value)]))

/-- A value that a token stands for, or a container that it opens. -/
inductive Read
  | value (value : Value)
  | container (container : OpenContainer)

def readToken (strings : Nat → Option JsString) : Frame → Except JsString Read
  | [.string kind] =>
    if kind = js "null" then .ok (.value .null) else .error (js "Invalid history container")
  | [.string kind, item] =>
    if kind = js "bool" then
      match item with
      | .boolean value => .ok (.value (.boolean value))
      | _ => .error (js "Invalid history container")
    else if kind = js "number" then
      match item with
      | .number value => .ok (.value (.number value))
      | _ => .error (js "Invalid history container")
    else if kind = js "ref" then
      match asInteger item with
      | some id =>
        match strings id with
        | some text => .ok (.value (.string text))
        | none => .error (js "Missing history string")
      | none => .error (js "Invalid history container")
    else if kind = js "array" then
      match asInteger item with
      | some 0 => .ok (.value (.array []))
      | some length => .ok (.container ⟨.array [], length⟩)
      | none => .error (js "Invalid history container")
    else if kind = js "object" then
      match asInteger item with
      | some 0 => .ok (.value (.object []))
      | some length => .ok (.container ⟨.object [] none, length⟩)
      | none => .error (js "Invalid history container")
    else .error (js "Invalid history container")
  | _ => .error (js "Invalid history container")

def buildStep (strings : Nat → Option JsString) (building : Building) (frame : Frame) :
    Except JsString Building :=
  if building.result.isSome then .error (js "History row content mismatch")
  else do
    match ← readToken strings frame with
    | .value value => attach building.unfinished value
    | .container opened => .ok ⟨opened :: building.unfinished, none⟩

/-- Rebuild one row from its value tokens. -/
def buildRowValue (tokens : List Frame) (strings : Nat → Option JsString) : Except JsString Value := do
  let building ← tokens.foldlM (buildStep strings) ⟨[], none⟩
  match building.result with
  | some value => .ok value
  | none => .error (js "Incomplete history value")

/-! ## Proper values -/

mutual

/-- A value as JavaScript has them: numbers of up to 25 characters, lengths that are safe integers, keys
in the order of `Object.keys`. -/
def Proper : Value → Prop
  | .null => True
  | .boolean _ => True
  | .number value => value.text.length ≤ 25
  | .string value => value.length < 2 ^ 53
  | .array items => items.length < 2 ^ 53 ∧ ProperItems items
  | .object members => members.length < 2 ^ 53 ∧
      (∃ r : Record Value, members = r.ownEntries) ∧ ProperMembers members

def ProperItems : List Value → Prop
  | [] => True
  | item :: items => Proper item ∧ ProperItems items

def ProperMembers : List (JsString × Value) → Prop
  | [] => True
  | (key, value) :: members => key.length < 2 ^ 53 ∧ Proper value ∧ ProperMembers members

end

/-! ## Pieces -/

theorem flatten_piecesFrom {n : Nat} {text : JsString} (enough : text.length ≤ n) :
    (piecesFrom n text).flatten = text := by
  induction n generalizing text with
  | zero =>
    rw [List.length_eq_zero_iff.mp (Nat.le_zero.mp enough)]
    rfl
  | succ n ih =>
    rw [piecesFrom]
    split
    · rename_i empty
      rw [empty]
      rfl
    · rename_i filled
      have shorter : (text.drop HISTORY_STRING_CHARS).length ≤ n := by
        have positive := List.length_pos_of_ne_nil filled
        rw [List.length_drop, HISTORY_STRING_CHARS]
        omega
      rw [List.flatten_cons, ih shorter, List.take_append_drop]

theorem flatten_pieces (text : JsString) : (pieces text).flatten = text :=
  flatten_piecesFrom (Nat.le_refl _)

theorem length_of_mem_piecesFrom {n : Nat} {text piece : JsString} (inside : piece ∈ piecesFrom n text) :
    piece.length ≤ HISTORY_STRING_CHARS := by
  induction n generalizing text with
  | zero => cases inside
  | succ n ih =>
    rw [piecesFrom] at inside
    split at inside
    · cases inside
    · obtain rfl | inside := List.mem_cons.mp inside
      · exact List.length_take_le _ _
      · exact ih inside

theorem length_of_mem_pieces {text piece : JsString} (inside : piece ∈ pieces text) :
    piece.length ≤ HISTORY_STRING_CHARS :=
  length_of_mem_piecesFrom inside

/-! ## Rebuilding -/

variable {stringId : JsString → Nat} {strings : Nat → Option JsString}

/-- The strings are found under their ids, and these are safe. -/
def Resolves (stringId : JsString → Nat) (strings : Nat → Option JsString) (texts : List JsString) :
    Prop :=
  ∀ text ∈ texts, stringId text < 2 ^ 53 ∧ strings (stringId text) = some text

theorem asInteger_integer {n : Nat} (safe : n < 2 ^ 53) : asInteger (integer n) = some n :=
  Numeral.toNat?_ofNat safe

/-- The tokens of values are read where the strings are found. -/
theorem readToken_ref {text : JsString} (safe : stringId text < 2 ^ 53)
    (found : strings (stringId text) = some text) :
    readToken strings (Token.frame stringId (.ref text)) = .ok (.value (.string text)) := by
  rw [Token.frame, readToken.eq_def]
  simp only [show ¬ js "ref" = js "bool" by decide, show ¬ js "ref" = js "number" by decide, if_false,
    if_true, asInteger_integer safe, found]

theorem readToken_array {n : Nat} (safe : n < 2 ^ 53) (positive : n ≠ 0) :
    readToken strings (Token.frame stringId (.array n)) = .ok (.container ⟨.array [], n⟩) := by
  rw [Token.frame, readToken.eq_def]
  simp only [show ¬ js "array" = js "bool" by decide, show ¬ js "array" = js "number" by decide,
    show ¬ js "array" = js "ref" by decide, if_false, if_true, asInteger_integer safe]

theorem readToken_object {n : Nat} (safe : n < 2 ^ 53) (positive : n ≠ 0) :
    readToken strings (Token.frame stringId (.object n)) = .ok (.container ⟨.object [] none, n⟩) := by
  rw [Token.frame, readToken.eq_def]
  simp only [show ¬ js "object" = js "bool" by decide, show ¬ js "object" = js "number" by decide,
    show ¬ js "object" = js "ref" by decide, show ¬ js "object" = js "array" by decide, if_false,
    if_true, asInteger_integer safe]

/-- A token that is a value by itself. -/
theorem buildStep_value {frame : Frame} {value : Value} (read : readToken strings frame = .ok (.value value))
    (parents : List OpenContainer) :
    buildStep strings ⟨parents, none⟩ frame = attach parents value := by
  rw [buildStep, read]
  rfl

theorem buildStep_container {frame : Frame} {opened : OpenContainer}
    (read : readToken strings frame = .ok (.container opened)) (parents : List OpenContainer) :
    buildStep strings ⟨parents, none⟩ frame = .ok ⟨opened :: parents, none⟩ := by
  rw [buildStep, read]
  rfl

theorem ownEntries_of_canonical {members : List (JsString × Value)}
    (canonical : ∃ r : Record Value, members = r.ownEntries) :
    objectOf members = .object members := by
  obtain ⟨r, rfl⟩ := canonical
  rw [objectOf, Record.ownEntries_ofEntries_ownEntries]

theorem nodup_of_canonical {members : List (JsString × Value)}
    (canonical : ∃ r : Record Value, members = r.ownEntries) : (members.map Prod.fst).Nodup := by
  obtain ⟨r, rfl⟩ := canonical
  rw [Record.map_fst_ownEntries]
  exact r.ownKeys_nodup

/-- The steps of a value's tokens attach the value. -/
def Attaches (strings : Nat → Option JsString) (frames : List Frame) (value : Value) : Prop :=
  ∀ parents, frames.foldlM (buildStep strings) ⟨parents, none⟩ = attach parents value

theorem attaches_of_read {frame : Frame} {value : Value}
    (read : readToken strings frame = .ok (.value value)) : Attaches strings [frame] value := by
  intro parents
  rw [List.foldlM_cons, buildStep_value read]
  exact bind_pure _

theorem texts_cons {token : Token} {tokens : List Token} {text : JsString}
    (inside : text ∈ tokens.filterMap Token.text?) : text ∈ (token :: tokens).filterMap Token.text? := by
  rw [List.mem_filterMap] at inside ⊢
  obtain ⟨token', listed, own⟩ := inside
  exact ⟨token', List.mem_cons_of_mem _ listed, own⟩

theorem Resolves.tail {token : Token} {tokens : List Token}
    (resolves : Resolves stringId strings ((token :: tokens).filterMap Token.text?)) :
    Resolves stringId strings (tokens.filterMap Token.text?) :=
  fun text inside => resolves text (texts_cons inside)

theorem Resolves.left {tokens tokens' : List Token}
    (resolves : Resolves stringId strings ((tokens ++ tokens').filterMap Token.text?)) :
    Resolves stringId strings (tokens.filterMap Token.text?) := by
  intro text inside
  exact resolves text (by rw [List.filterMap_append]; exact List.mem_append_left _ inside)

theorem Resolves.right {tokens tokens' : List Token}
    (resolves : Resolves stringId strings ((tokens ++ tokens').filterMap Token.text?)) :
    Resolves stringId strings (tokens'.filterMap Token.text?) := by
  intro text inside
  exact resolves text (by rw [List.filterMap_append]; exact List.mem_append_right _ inside)

theorem Resolves.head {text : JsString} {tokens : List Token}
    (resolves : Resolves stringId strings ((Token.ref text :: tokens).filterMap Token.text?)) :
    stringId text < 2 ^ 53 ∧ strings (stringId text) = some text :=
  resolves text (List.mem_filterMap.mpr ⟨.ref text, List.mem_cons_self, rfl⟩)

mutual

theorem attaches_value : ∀ (value : Value), Proper value →
    Resolves stringId strings ((valueTokens value).filterMap Token.text?) →
    Attaches strings ((valueTokens value).map (Token.frame stringId)) value
  | .null, _, _ => attaches_of_read (by rw [Token.frame, readToken.eq_def]; exact if_pos rfl)
  | .boolean value, _, _ => attaches_of_read (by rw [Token.frame, readToken.eq_def]; exact if_pos rfl)
  | .number value, _, _ => attaches_of_read (by
      rw [Token.frame, readToken.eq_def]
      simp only [show ¬ js "number" = js "bool" by decide, if_false, if_true])
  | .string value, _, resolves => by
      obtain ⟨safe, found⟩ := resolves.head
      exact attaches_of_read (readToken_ref safe found)
  | .array [], _, _ => attaches_of_read (by
      rw [Token.frame, readToken.eq_def]
      simp only [show ¬ js "array" = js "bool" by decide, show ¬ js "array" = js "number" by decide,
        show ¬ js "array" = js "ref" by decide, if_false, if_true, List.length_nil,
        asInteger_integer (show 0 < 2 ^ 53 by decide)])
  | .array (item :: items), proper, resolves => by
      intro parents
      rw [valueTokens, List.map_cons, List.foldlM_cons,
        buildStep_container (readToken_array proper.1 (Nat.succ_ne_zero _))]
      exact attaches_items (item :: items) [] parents (List.cons_ne_nil _ _) proper.2 resolves.tail
  | .object [], _, _ => attaches_of_read (by
      rw [Token.frame, readToken.eq_def]
      simp only [show ¬ js "object" = js "bool" by decide, show ¬ js "object" = js "number" by decide,
        show ¬ js "object" = js "ref" by decide, show ¬ js "object" = js "array" by decide, if_false,
        if_true, List.length_nil, asInteger_integer (show 0 < 2 ^ 53 by decide)])
  | .object (member :: members), proper, resolves => by
      intro parents
      rw [valueTokens, List.map_cons, List.foldlM_cons,
        buildStep_container (readToken_object proper.1 (Nat.succ_ne_zero _))]
      rw [← ownEntries_of_canonical proper.2.1]
      exact attaches_members (member :: members) [] parents (List.cons_ne_nil _ _) proper.2.2 resolves.tail
        (nodup_of_canonical proper.2.1)

/-- The tokens of the items that are left fill the array. -/
theorem attaches_items : ∀ (items done : List Value) (parents : List OpenContainer), items ≠ [] →
    ProperItems items → Resolves stringId strings ((itemTokens items).filterMap Token.text?) →
    ((itemTokens items).map (Token.frame stringId)).foldlM (buildStep strings)
        ⟨⟨.array done, items.length⟩ :: parents, none⟩ =
      attach parents (.array (done ++ items))
  | [], _, _, filled, _, _ => absurd rfl filled
  | [item], done, parents, _, proper, resolves => by
      rw [itemTokens, itemTokens, List.append_nil] at resolves ⊢
      exact (attaches_value item proper.1 resolves _).trans (by rw [attach.eq_def]; exact if_neg (by simp))
  | item :: next :: items, done, parents, _, proper, resolves => by
      rw [itemTokens, List.map_append, List.foldlM_append,
        attaches_value item proper.1 (by rw [itemTokens] at resolves; exact resolves.left)]
      have stays : attach (⟨.array done, (item :: next :: items).length⟩ :: parents) item =
          .ok ⟨⟨.array (done ++ [item]), (next :: items).length⟩ :: parents, none⟩ := by
        rw [attach.eq_def]
        exact if_pos (by simp)
      rw [stays]
      have rest := attaches_items (next :: items) (done ++ [item]) parents (List.cons_ne_nil _ _) proper.2
        (by rw [itemTokens] at resolves; exact resolves.right)
      rw [List.append_assoc] at rest
      exact rest

/-- The tokens of the members that are left fill the object. -/
theorem attaches_members : ∀ (members done : List (JsString × Value)) (parents : List OpenContainer),
    members ≠ [] → ProperMembers members →
    Resolves stringId strings ((memberTokens members).filterMap Token.text?) →
    ((done ++ members).map Prod.fst).Nodup →
    ((memberTokens members).map (Token.frame stringId)).foldlM (buildStep strings)
        ⟨⟨.object done none, members.length⟩ :: parents, none⟩ =
      attach parents (objectOf (done ++ members))
  | [], _, _, filled, _, _, _ => absurd rfl filled
  | (key, value) :: members, done, parents, _, proper, resolves, distinct => by
      rw [memberTokens] at resolves
      obtain ⟨safe, found⟩ := resolves.head
      have fresh : key ∉ done.map Prod.fst := by
        rw [List.map_append, List.nodup_append] at distinct
        exact fun inside => distinct.2.2 key inside key (by simp) rfl
      have keyed : attach (⟨.object done none, ((key, value) :: members).length⟩ :: parents) (.string key) =
          .ok ⟨⟨.object done (some key), ((key, value) :: members).length⟩ :: parents, none⟩ := by
        rw [attach.eq_def]
        exact if_neg fresh
      rw [memberTokens, List.map_cons, List.map_append, List.foldlM_cons,
        buildStep_value (readToken_ref safe found), keyed]
      show ((List.map (Token.frame stringId) (valueTokens value) ++
        List.map (Token.frame stringId) (memberTokens members)).foldlM (buildStep strings) _) = _
      rw [List.foldlM_append, attaches_value value proper.2.1 resolves.tail.left]
      cases members with
      | nil =>
        have closes : attach (⟨.object done (some key), [(key, value)].length⟩ :: parents) value =
            attach parents (objectOf (done ++ [(key, value)])) := by
          rw [attach.eq_def]
          exact if_neg (by simp)
        rw [closes]
        exact bind_pure _
      | cons next members =>
        have stays : attach (⟨.object done (some key), ((key, value) :: next :: members).length⟩ :: parents)
            value = .ok ⟨⟨.object (done ++ [(key, value)]) none, (next :: members).length⟩ :: parents, none⟩ := by
          rw [attach.eq_def]
          exact if_pos (by simp)
        rw [stays]
        have rest := attaches_members (next :: members) (done ++ [(key, value)]) parents
          (List.cons_ne_nil _ _) proper.2.2 resolves.tail.right (by rw [List.append_assoc]; exact distinct)
        rw [List.append_assoc] at rest
        exact rest

end

/-- A row is rebuilt from its tokens, where its strings are found. -/
theorem buildRowValue_tokens {value : Value} (proper : Proper value)
    (resolves : Resolves stringId strings (texts value)) :
    buildRowValue ((valueTokens value).map (Token.frame stringId)) strings = .ok value := by
  rw [buildRowValue, attaches_value value proper resolves]
  rfl

end Takode.SessionHistory
