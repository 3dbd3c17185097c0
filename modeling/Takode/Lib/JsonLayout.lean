import Takode.Lib.JsonText

/-!
# JSON texts in lines

`JSON.stringify(value, null, 2)`: the text of a value with one line for each item and member; and
what indenting such a text or splitting it gives.
-/

namespace Takode.JsonText

open JsString

/-! ## Layout -/

def words (text : String) : List Char := text.toList

/-- Items in brackets, each in a line of its own. -/
def inBrackets (opening closing indent : List Char) (items : List (List Char)) : List Char :=
  if items = [] then opening ++ closing
  else opening ++ words "\n" ++ (indent ++ words "  ") ++
    (words ",\n" ++ (indent ++ words "  ")).intercalate items ++ words "\n" ++ indent ++ closing

mutual

/-- The text of a value in a line that has an indentation already. -/
def layout (indent : List Char) : Value → List Char
  | .null => words "null"
  | .boolean value => words (if value then "true" else "false")
  | .number value => value.text
  | .string value => quote value
  | .array items => inBrackets ['['] [']'] indent (layoutItems (indent ++ words "  ") items)
  | .object members =>
    inBrackets ['\x7b'] ['\x7d'] indent (layoutMembers (indent ++ words "  ") members)

def layoutItems (indent : List Char) : List Value → List (List Char)
  | [] => []
  | item :: items => layout indent item :: layoutItems indent items

def layoutMembers (indent : List Char) : List (JsString × Value) → List (List Char)
  | [] => []
  | (key, value) :: members =>
    (quote key ++ words ": " ++ layout indent value) :: layoutMembers indent members

end

theorem layoutItems_eq (indent : List Char) (items : List Value) :
    layoutItems indent items = items.map (layout indent) := by
  induction items with
  | nil => rfl
  | cons item items ih => exact congrArg (List.cons _) ih

theorem layoutMembers_eq (indent : List Char) (members : List (JsString × Value)) :
    layoutMembers indent members =
      members.map fun member => quote member.1 ++ words ": " ++ layout indent member.2 := by
  induction members with
  | nil => rfl
  | cons member members ih => exact congrArg (List.cons _) ih

/-- `replaceAll("\n", "\n" + pad)`. -/
def reindent (pad text : List Char) : List Char :=
  text.flatMap fun c => if c = '\n' then '\n' :: pad else [c]

theorem reindent_append (pad a b : List Char) :
    reindent pad (a ++ b) = reindent pad a ++ reindent pad b := List.flatMap_append

theorem reindent_of_plain {text : List Char} (pad : List Char) (plain : '\n' ∉ text) :
    reindent pad text = text := by
  induction text with
  | nil => rfl
  | cons c text ih =>
    obtain ⟨other, plain⟩ := not_or.mp (mt List.mem_cons.mpr plain)
    rw [reindent, List.flatMap_cons, if_neg (Ne.symm other)]
    exact congrArg (List.cons c) (ih plain)

theorem newline_notMem_quote (s : JsString) : '\n' ∉ quote s := by
  intro inside
  have body : '\n' ∈ quoteBody s := by simpa [quote] using inside
  exact absurd ((quoteBody_bounds s).2 _ body) (by decide)

theorem newline_notMem_numeral (value : Numeral) : '\n' ∉ value.text := by
  intro inside
  have plain := value.plain _ inside
  revert plain
  decide

theorem reindent_intercalate (pad : List Char) {indent : List Char} (plain : '\n' ∉ indent)
    (parts : List (List Char)) :
    reindent pad ((words ",\n" ++ indent).intercalate parts) =
      (words ",\n" ++ (pad ++ indent)).intercalate (parts.map (reindent pad)) := by
  have separator : reindent pad (words ",\n" ++ indent) = words ",\n" ++ (pad ++ indent) := by
    have comma : reindent pad (words ",\n") = words ",\n" ++ pad := by simp [reindent, words]
    rw [reindent_append, reindent_of_plain pad plain, comma, List.append_assoc]
  induction parts with
  | nil => rfl
  | cons part parts ih =>
    cases parts with
    | nil => simp
    | cons next parts =>
      rw [List.intercalate_cons_cons, reindent_append, reindent_append, separator, ih]
      simp only [List.map_cons, List.intercalate_cons_cons]

theorem reindent_inBrackets (pad : List Char) {opening closing indent : List Char}
    (plain : '\n' ∉ opening ∧ '\n' ∉ closing ∧ '\n' ∉ indent) (items : List (List Char)) :
    reindent pad (inBrackets opening closing indent items) =
      inBrackets opening closing (pad ++ indent) (items.map (reindent pad)) := by
  have more : '\n' ∉ indent ++ words "  " := by
    simp [plain.2.2, words]
  have newline : reindent pad (words "\n") = words "\n" ++ pad := List.append_nil _
  unfold inBrackets
  by_cases none : items = []
  · rw [if_pos none, if_pos (List.map_eq_nil_iff.mpr none), reindent_append,
      reindent_of_plain pad plain.1, reindent_of_plain pad plain.2.1]
  · rw [if_neg none, if_neg (fun other => none (List.map_eq_nil_iff.mp other))]
    simp only [reindent_append, newline, reindent_intercalate pad more,
      reindent_of_plain pad plain.1, reindent_of_plain pad plain.2.1,
      reindent_of_plain pad plain.2.2, reindent_of_plain pad (show '\n' ∉ words "  " by decide),
      List.append_assoc]

mutual

/-- A text that is indented as a whole is the text in an indented line. -/
theorem reindent_layout (pad indent : List Char) (plain : '\n' ∉ indent) :
    ∀ value, reindent pad (layout indent value) = layout (pad ++ indent) value
  | .null => reindent_of_plain pad (show '\n' ∉ words "null" by decide)
  | .boolean true => reindent_of_plain pad (show '\n' ∉ words "true" by decide)
  | .boolean false => reindent_of_plain pad (show '\n' ∉ words "false" by decide)
  | .number value => reindent_of_plain pad (newline_notMem_numeral value)
  | .string value => reindent_of_plain pad (newline_notMem_quote value)
  | .array items => by
    unfold layout
    rw [reindent_inBrackets pad ⟨by decide, by decide, plain⟩,
      reindent_layoutItems pad (indent ++ words "  ") (by simp [plain, words]) items,
      List.append_assoc]
  | .object members => by
    unfold layout
    rw [reindent_inBrackets pad ⟨by decide, by decide, plain⟩,
      reindent_layoutMembers pad (indent ++ words "  ") (by simp [plain, words]) members,
      List.append_assoc]

theorem reindent_layoutItems (pad indent : List Char) (plain : '\n' ∉ indent) :
    ∀ items, (layoutItems indent items).map (reindent pad) = layoutItems (pad ++ indent) items
  | [] => rfl
  | item :: items => by
    unfold layoutItems
    rw [List.map_cons, reindent_layout pad indent plain item,
      reindent_layoutItems pad indent plain items]

theorem reindent_layoutMembers (pad indent : List Char) (plain : '\n' ∉ indent) :
    ∀ members, (layoutMembers indent members).map (reindent pad) =
      layoutMembers (pad ++ indent) members
  | [] => rfl
  | (key, value) :: members => by
    unfold layoutMembers
    rw [List.map_cons, reindent_append, reindent_append,
      reindent_of_plain pad (newline_notMem_quote key), reindent_layout pad indent plain value,
      reindent_layoutMembers pad indent plain members]
    rfl

end

/-! ## Splitting -/

/-- What stands before the first occurrence of a separator, and after it. -/
def occurrence (separator : List Char) : List Char → Option (List Char × List Char)
  | [] => if separator = [] then some ([], []) else none
  | c :: text =>
    if separator <+: c :: text then some ([], (c :: text).drop separator.length)
    else (occurrence separator text).map fun found => (c :: found.1, found.2)

theorem occurrence_eq_some {separator text before after : List Char}
    (found : occurrence separator text = some (before, after)) :
    text = before ++ separator ++ after := by
  induction text generalizing before with
  | nil =>
    unfold occurrence at found
    split at found
    · rename_i empty
      cases found
      rw [empty]
      rfl
    · cases found
  | cons c text ih =>
    unfold occurrence at found
    split at found
    · rename_i starts
      cases found
      exact (List.prefix_iff_eq_append.mp starts).symm
    · obtain ⟨⟨before', after'⟩, found', same⟩ := Option.map_eq_some_iff.mp found
      cases same
      exact congrArg (List.cons c) (ih found')

theorem length_after {separator text before after : List Char} (filled : separator ≠ [])
    (found : occurrence separator text = some (before, after)) : after.length < text.length := by
  have whole := congrArg List.length (occurrence_eq_some found)
  have long := List.length_pos_of_ne_nil filled
  simp only [List.length_append] at whole
  omega

/-- `split(separator)`, of a separator that is not empty. -/
def splitText (separator : List Char) (filled : separator ≠ []) (text : List Char) :
    List (List Char) :=
  match _found : occurrence separator text with
  | none => [text]
  | some (before, after) => before :: splitText separator filled after
termination_by text.length
decreasing_by exact length_after filled _found

theorem occurrence_eq_none {separator text : List Char} (fresh : ¬ separator <:+: text) : occurrence separator text = none := by
  cases found : occurrence separator text with
  | none => rfl
  | some parts =>
    exact absurd ⟨parts.1, parts.2, (occurrence_eq_some found).symm⟩ fresh

/-- A separator that starts after a character that it does not have is found there, if it is not in
the text before it. -/
theorem occurrence_append {separator front : List Char} {c : Char} (rest : List Char)
    (filled : separator ≠ []) (other : c ∉ separator) (fresh : ¬ separator <:+: front) :
    occurrence separator (front ++ c :: (separator ++ rest)) = some (front ++ [c], rest) := by
  induction front with
  | nil =>
    have later : ¬ separator <+: c :: (separator ++ rest) := by
      rintro ⟨tail, same⟩
      cases separator with
      | nil => exact filled rfl
      | cons d separator => exact other ((List.cons.inj same).1 ▸ List.mem_cons_self)
    have here : occurrence separator (separator ++ rest) = some ([], rest) := by
      cases separator with
      | nil => exact absurd rfl filled
      | cons d separator =>
        rw [List.cons_append, occurrence, if_pos ⟨rest, rfl⟩, ← List.cons_append, List.drop_left]
    rw [List.nil_append, occurrence, if_neg later, here]
    rfl
  | cons d front ih =>
    have later : ¬ separator <+: d :: (front ++ c :: (separator ++ rest)) := by
      intro starts
      rcases List.prefix_or_prefix_of_prefix starts
        (⟨c :: (separator ++ rest), rfl⟩ : d :: front <+: d :: (front ++ c :: (separator ++ rest)))
        with early | late
      · exact fresh early.isInfix
      · obtain ⟨tail, rfl⟩ := late
        cases tail with
        | nil => exact fresh (by simp)
        | cons e tail =>
          have same := List.prefix_append_right_inj (d :: front) |>.mp starts
          obtain ⟨rfl, -⟩ := List.cons_prefix_cons.mp same
          exact other (List.mem_append_right _ List.mem_cons_self)
    have inside : ¬ separator <:+: front := fun found => fresh (List.infix_cons found)
    rw [List.cons_append, occurrence, if_neg later, ih inside]
    rfl

end Takode.JsonText
