import Takode.Lib.JsString

/-!
# Scanning texts

What the scanners of the repository share: literals in any letter case, the
longest run of some characters, and the lines of a text.
-/

namespace Takode

/-- The code unit of an ASCII character. -/
def unit (c : Char) : UInt16 := c.val.toUInt16

namespace JsString

/-- The rest of a text that starts with a literal (of small letters), in any letter case. -/
def afterLiteral (literal text : JsString) : Option JsString :=
  if toLowerCase (text.take literal.length) = literal then some (text.drop literal.length) else none

theorem length_of_toLowerCase {front literal : JsString} (same : toLowerCase front = literal) :
    front.length = literal.length := by
  rw [← same, toLowerCase, List.length_map]

theorem afterLiteral_append {literal front : JsString} (same : toLowerCase front = literal)
    (rest : JsString) : afterLiteral literal (front ++ rest) = some rest := by
  unfold afterLiteral
  rw [← length_of_toLowerCase same, List.take_left, List.drop_left, if_pos same]

theorem afterLiteral_self (literal rest : JsString)
    (small : (literal.all fun c => lower c == c) = true) :
    afterLiteral literal (literal ++ rest) = some rest := by
  refine afterLiteral_append ?_ rest
  refine (List.map_congr_left fun c inside => ?_).trans literal.map_id
  exact eq_of_beq (List.all_eq_true.mp small c inside)

theorem afterLiteral_eq_some {literal text rest : JsString}
    (found : afterLiteral literal text = some rest) :
    ∃ front, toLowerCase front = literal ∧ text = front ++ rest := by
  unfold afterLiteral at found
  split at found
  · rename_i same
    refine ⟨text.take literal.length, same, ?_⟩
    rw [← Option.some.inj found, List.take_append_drop]
  · cases found

theorem afterLiteral_of_head {l c : UInt16} (literal text : JsString) (other : lower c ≠ l) :
    afterLiteral (l :: literal) (c :: text) = none := by
  unfold afterLiteral
  rw [if_neg]
  intro same
  exact other (List.cons.inj same).1

/-- A literal in two parts. -/
theorem afterLiteral_append_eq (first second text : JsString) :
    afterLiteral (first ++ second) text = (afterLiteral first text).bind (afterLiteral second) := by
  have split : toLowerCase (text.take (first.length + second.length)) =
      toLowerCase (text.take first.length) ++
        toLowerCase ((text.drop first.length).take second.length) := by
    rw [toLowerCase, toLowerCase, toLowerCase, ← List.map_append, List.take_add]
  unfold afterLiteral
  rw [List.length_append, split]
  by_cases same : toLowerCase (text.take first.length) = first
  · rw [if_pos same, same, Option.bind_some, List.drop_drop]
    simp only [List.append_right_inj]
  · rw [if_neg same, Option.bind_none, if_neg]
    intro whole
    refine same (List.append_inj_left whole ?_)
    have long : first.length + second.length ≤ text.length := by
      have lengths := congrArg List.length whole
      simp only [toLowerCase, List.length_append, List.length_map, List.length_take,
        List.length_drop] at lengths
      omega
    simp only [toLowerCase, List.length_map, List.length_take]
    omega

/-! ## Classes of characters -/

theorem toNat_lower (c : UInt16) :
    (lower c).toNat = if 65 ≤ c.toNat ∧ c.toNat ≤ 90 then c.toNat + 32 else c.toNat := by
  unfold lower
  by_cases letter : 65 ≤ c.toNat ∧ c.toNat ≤ 90
  · rw [if_pos letter, if_pos (by simpa [UInt16.le_iff_toNat_le] using letter), UInt16.toNat_add]
    have small : (32 : UInt16).toNat = 32 := rfl
    omega
  · rw [if_neg letter, if_neg (by simpa [UInt16.le_iff_toNat_le] using letter)]

/-- A literal that starts with no letter is found by its first character. -/
theorem head_of_afterLiteral {l : UInt16} {literal text rest : JsString}
    (found : afterLiteral (l :: literal) text = some rest) (symbol : l.toNat < 97 ∨ 122 < l.toNat) :
    text.head? = some l := by
  obtain ⟨front, same, rfl⟩ := afterLiteral_eq_some found
  cases front with
  | nil => cases same
  | cons c front =>
    have first : lower c = l := (List.cons.inj same).1
    rw [← UInt16.toNat_inj, toNat_lower] at first
    have equal : c = l := by
      rw [← UInt16.toNat_inj]
      split at first <;> omega
    exact congrArg some equal

theorem isDigit_iff {c : UInt16} : isDigit c = true ↔ 48 ≤ c.toNat ∧ c.toNat ≤ 57 := by
  simp [isDigit, UInt16.le_iff_toNat_le]

theorem lower_of_isDigit {c : UInt16} (digit : isDigit c = true) : lower c = c := by
  have bounds := isDigit_iff.mp digit
  rw [← UInt16.toNat_inj, toNat_lower, if_neg (by omega)]

theorem forall_mem_intercalate {p : UInt16 → Prop} {sep : JsString} {parts : List JsString}
    (between : ∀ c ∈ sep, p c) (inside : ∀ part ∈ parts, ∀ c ∈ part, p c) :
    ∀ c ∈ sep.intercalate parts, p c := by
  induction parts with
  | nil => simp
  | cons part parts ih =>
    have later := ih fun other listed => inside other (List.mem_cons_of_mem _ listed)
    have first := inside part List.mem_cons_self
    cases parts with
    | nil => simpa using first
    | cons next parts =>
      intro c there
      rw [List.intercalate_cons_cons, List.mem_append, List.mem_append] at there
      rcases there with (there | there) | there
      · exact first c there
      · exact between c there
      · exact later c there

/-! ## Lines -/

/-- `split(/\r?\n/)`. -/
def splitLines : JsString → List JsString
  | [] => [[]]
  | c :: text =>
    if c = unit '\n' then [] :: splitLines text
    else if c = unit '\r' ∧ text.head? = some (unit '\n') then splitLines text
    else match splitLines text with
      | [] => [[c]]
      | line :: lines => (c :: line) :: lines

/-- The longest run of characters ends where another one follows. -/
theorem takeWhile_append_stop {p : UInt16 → Bool} {run rest : JsString}
    (inside : ∀ c ∈ run, p c = true) (stop : ∀ c, rest.head? = some c → p c = false) :
    (run ++ rest).takeWhile p = run := by
  rw [List.takeWhile_append_of_pos inside]
  cases rest with
  | nil => rw [List.takeWhile_nil, List.append_nil]
  | cons c tail => rw [List.takeWhile_cons_of_neg (by simp [stop c rfl]), List.append_nil]

end JsString

end Takode
