import Mathlib.Data.List.Basic
import Mathlib.Data.List.DropRight
import Mathlib.Tactic.IntervalCases

/-!
# Bytes and UTF-16 strings

A `Buffer` is its list of bytes and a JavaScript string its list of UTF-16 code
units.
-/

namespace Takode

abbrev Bytes := List UInt8
abbrev JsString := List UInt16

instance : LawfulBEq JsString := inferInstance

/-- The text of an ASCII literal. -/
def js (text : String) : JsString := text.toList.map fun c => c.val.toUInt16

/-- What can be checked of each item of a list. -/
theorem forall_mem_of_all {α : Type} {p : α → Prop} [DecidablePred p] {l : List α}
    (all : (l.all fun a => decide (p a)) = true) : ∀ a ∈ l, p a := by
  simpa using all

namespace JsString

/-- The white space and line terminators that `trim` strips. -/
def isSpace (c : UInt16) : Bool :=
  (9 ≤ c && c ≤ 13) || (8192 ≤ c && c ≤ 8202) ||
    c ∈ [32, 160, 5760, 8232, 8233, 8239, 8287, 12288, 65279]

/-- `String.prototype.trim`. -/
def trim (s : JsString) : JsString := ((s.dropWhile isSpace).reverse.dropWhile isSpace).reverse

theorem trim_trim (s : JsString) : trim (trim s) = trim s := by
  have front : (trim s).dropWhile isSpace = trim s := by
    rw [List.dropWhile_eq_self_iff]
    intro filled
    have kept : trim s <+: s.dropWhile isSpace := List.rdropWhile_prefix isSpace _
    rw [kept.getElem filled]
    exact List.dropWhile_eq_self_iff.mp (List.dropWhile_idempotent isSpace s)
      (Nat.lt_of_lt_of_le filled kept.length_le)
  show List.rdropWhile isSpace ((trim s).dropWhile isSpace) = trim s
  rw [front]
  exact List.rdropWhile_idempotent isSpace (s.dropWhile isSpace)

theorem trim_of_not_space {s : JsString} (plain : ∀ c ∈ s, isSpace c = false) : trim s = s := by
  have kept (t : JsString) (inside : ∀ c ∈ t, isSpace c = false) : t.dropWhile isSpace = t := by
    rw [List.dropWhile_eq_self_iff]
    intro filled
    simp [inside _ (List.getElem_mem filled)]
  unfold trim
  rw [kept s plain, kept s.reverse fun c inside => plain c (List.mem_reverse.mp inside),
    List.reverse_reverse]

/-- A text is blank if all of it is white space. -/
theorem trim_eq_nil {s : JsString} : trim s = [] ↔ ∀ c ∈ s, isSpace c = true := by
  show List.rdropWhile isSpace (s.dropWhile isSpace) = [] ↔ _
  rw [List.rdropWhile_eq_nil_iff, ← List.dropWhile_eq_nil_iff (p := isSpace) (l := s)]
  constructor
  · intro blank
    cases rest : s.dropWhile isSpace with
    | nil => rfl
    | cons c tail =>
      have first := List.head_dropWhile_not isSpace (l := s) (by simp [rest])
      simp only [rest, List.head_cons] at first
      have space := blank c (by simp [rest])
      simp [first] at space
  · intro blank c inside
    rw [blank] at inside
    cases inside

theorem trim_append_ne_nil {s : JsString} (t : JsString) (filled : trim s ≠ []) :
    trim (s ++ t) ≠ [] := by
  intro blank
  refine filled (trim_eq_nil.mpr fun c inside => ?_)
  exact trim_eq_nil.mp blank c (List.mem_append_left t inside)

/-- The trimmed text, unless nothing is left. -/
def nonempty (s : JsString) : Option JsString := if trim s = [] then none else some (trim s)

theorem nonempty_eq_some {s t : JsString} : nonempty s = some t ↔ trim s = t ∧ t ≠ [] := by
  unfold nonempty
  split
  · rename_i blank
    exact ⟨fun absent => (by cases absent), fun ⟨same, filled⟩ => absurd (same ▸ blank) filled⟩
  · rename_i filled
    exact ⟨fun same => Option.some.inj same ▸ ⟨rfl, filled⟩, fun ⟨same, _⟩ => congrArg some same⟩

/-- What `nonempty` has given stays. -/
theorem nonempty_of_nonempty {s t : JsString} (found : nonempty s = some t) :
    nonempty t = some t := by
  obtain ⟨rfl, filled⟩ := nonempty_eq_some.mp found
  exact nonempty_eq_some.mpr ⟨trim_trim s, filled⟩

/-- The small letter of an ASCII letter. -/
def lower (c : UInt16) : UInt16 := if 65 ≤ c && c ≤ 90 then c + 32 else c

/-- `String.prototype.toLowerCase`, of ASCII letters. -/
def toLowerCase (s : JsString) : JsString := s.map lower

theorem lower_cases (c : UInt16) : (65 ≤ c.toNat ∧ c.toNat ≤ 90 ∧ lower c = c + 32) ∨ lower c = c := by
  unfold lower
  split
  · rename_i letter
    have bounds : 65 ≤ c.toNat ∧ c.toNat ≤ 90 := by simpa [UInt16.le_iff_toNat_le] using letter
    exact .inl ⟨bounds.1, bounds.2, rfl⟩
  · exact .inr rfl

@[simp] theorem isSpace_lower (c : UInt16) : isSpace (lower c) = isSpace c := by
  rcases lower_cases c with ⟨low, high, lowered⟩ | same
  · rw [lowered, ← UInt16.ofNat_toNat (x := c)]
    generalize c.toNat = n at low high
    interval_cases n <;> rfl
  · rw [same]

@[simp] theorem lower_lower (c : UInt16) : lower (lower c) = lower c := by
  rcases lower_cases c with ⟨low, high, lowered⟩ | same
  · rw [lowered, ← UInt16.ofNat_toNat (x := c)]
    generalize c.toNat = n at low high
    interval_cases n <;> rfl
  · rw [same, same]

theorem trim_toLowerCase (s : JsString) : trim (toLowerCase s) = toLowerCase (trim s) := by
  have spaces : isSpace ∘ lower = isSpace := funext isSpace_lower
  unfold trim toLowerCase
  rw [List.dropWhile_map, ← List.map_reverse, List.dropWhile_map, ← List.map_reverse, spaces]

@[simp] theorem toLowerCase_toLowerCase (s : JsString) :
    toLowerCase (toLowerCase s) = toLowerCase s := by
  simp [toLowerCase]

/-- `String.prototype.startsWith`. -/
def startsWith (s start : JsString) : Bool := s.take start.length == start

def isDigit (c : UInt16) : Bool := 48 ≤ c && c ≤ 57

/-- The number that decimal digits stand for. -/
def digitsValue (s : JsString) : Nat := s.foldl (fun n c => 10 * n + (c.toNat - 48)) 0

/-- A property key that is an array index: objects list these first, in ascending order. -/
def isArrayIndex (s : JsString) : Bool :=
  !s.isEmpty && s.all isDigit && (s.length = 1 || s.head? ≠ some 48) &&
    digitsValue s < 2 ^ 32 - 1

end JsString

end Takode
