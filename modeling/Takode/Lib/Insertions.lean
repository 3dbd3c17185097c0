import Takode.Lib.Positions

/-!
# Insertions

Lists into which values are put, and records by position whose later positions make room for them.
-/

namespace Takode

open JsString

/-! ## Lists -/

/-- The second list is the first one with values put in that satisfy `p`. -/
inductive Inserted {α : Type} (p : α → Prop) : List α → List α → Prop
  | nil : Inserted p [] []
  | keep {l l' : List α} (a : α) : Inserted p l l' → Inserted p (a :: l) (a :: l')
  | add {l l' : List α} (a : α) : p a → Inserted p l l' → Inserted p l (a :: l')

namespace Inserted

variable {α : Type} {p : α → Prop} {l l' l'' m m' : List α}

theorem refl (l : List α) : Inserted p l l := by
  induction l with
  | nil => exact .nil
  | cons a rest ih => exact .keep a ih

theorem trans (first : Inserted p l l') (second : Inserted p l' l'') : Inserted p l l'' := by
  induction second generalizing l with
  | nil => exact first
  | keep a later ih =>
    cases first with
    | keep _ earlier => exact .keep a (ih earlier)
    | add _ holds earlier => exact .add a holds (ih earlier)
  | add a holds later ih => exact .add a holds (ih first)

theorem append (first : Inserted p l l') (second : Inserted p m m') :
    Inserted p (l ++ m) (l' ++ m') := by
  induction first with
  | nil => exact second
  | keep a _ ih => exact .keep a ih
  | add a holds _ ih => exact .add a holds ih

theorem of_nil (all : ∀ a ∈ l, p a) : Inserted p [] l := by
  induction l with
  | nil => exact .nil
  | cons a rest ih =>
    refine .add a (all a List.mem_cons_self) (ih ?_)
    intro b inside
    exact all b (List.mem_cons_of_mem a inside)

/-- Values that are put in at a position. -/
theorem splice (l : List α) (position : Nat) (all : ∀ a ∈ m, p a) :
    Inserted p l (l.take position ++ m ++ l.drop position) := by
  have parts : Inserted p (l.take position ++ [] ++ l.drop position)
      (l.take position ++ m ++ l.drop position) :=
    ((refl _).append (of_nil all)).append (refl _)
  rwa [List.append_nil, List.take_append_drop] at parts

end Inserted

/-- What stands in a list into which values were put at a position. -/
theorem getElem?_splice {α : Type} {l m : List α} {position : Nat} (within : position ≤ l.length) (i : Nat) :
    (l.take position ++ m ++ l.drop position)[i]? =
      if i < position then l[i]? else if i < position + m.length then m[i - position]?
      else l[i - m.length]? := by
  have taken : (l.take position).length = position := by
    rw [List.length_take]
    omega
  by_cases before : i < position
  · rw [if_pos before, List.append_assoc, List.getElem?_append_left (by omega),
      List.getElem?_take_of_lt before]
  · rw [if_neg before]
    by_cases amid : i < position + m.length
    · rw [if_pos amid, List.getElem?_append_left (by rw [List.length_append]; omega),
        List.getElem?_append_right (by omega), taken]
    · rw [if_neg amid, List.getElem?_append_right (by rw [List.length_append]; omega),
        List.length_append, taken, List.getElem?_drop]
      congr 1
      omega

/-! ## Records -/

namespace JsString

/-- `Number(s)`, where it is a whole number that is written with digits. -/
def wholeNumber (s : JsString) : Option Nat :=
  if (trim s).all isDigit then some (digitsValue (trim s)) else none

theorem wholeNumber_decimal (n : Nat) : wholeNumber (decimal n) = some n := by
  have digits : (decimal n).all isDigit = true :=
    List.all_eq_true.mpr fun c inside => isDigit_of_mem_decimal inside
  have plain : ∀ c ∈ decimal n, isSpace c = false := by
    intro c inside
    have range := toNat_of_isDigit (isDigit_of_mem_decimal inside)
    rw [← UInt16.ofNat_toNat (x := c)]
    generalize c.toNat = m at range
    obtain ⟨low, high⟩ := range
    interval_cases m <;> rfl
  unfold wholeNumber
  rw [trim_of_not_space plain, if_pos digits, digitsValue_decimal]

/-- The position that one becomes when room is made for so many at another. -/
def shifted (position count n : Nat) : Nat := if position ≤ n then n + count else n

theorem shifted_injective (position count : Nat) : Function.Injective (shifted position count) := by
  intro n n' same
  unfold shifted at same
  split at same <;> split at same <;> omega

/-- The key of a position that is shifted; any other key is of no position. -/
def shiftedKey (position count : Nat) (key : JsString) : JsString :=
  match wholeNumber key with
  | some n => decimal (shifted position count n)
  | none => js "NaN"

end JsString

namespace Record

variable {α : Type}

/-- The record with room for so many at a position. -/
def shift (position count : Nat) (r : Record α) : Record α :=
  ofEntries (r.ownEntries.map fun entry => (shiftedKey position count entry.1, entry.2))

/-- A record by position whose values are read as they are. -/
structure Readable (parse : α → Option α) (count : Nat) (r : Record α) : Prop where
  keyed : r.KeyedByPosition count
  parsed : ∀ {key value}, r.get? key = some value → parse value = some value

section Shifting

variable {position count total : Nat} {r : Record α}

theorem mem_shiftedEntries (keyed : r.KeyedByPosition total) {n : Nat} {value : α} :
    (decimal n, value) ∈ r.ownEntries.map (fun entry => (shiftedKey position count entry.1, entry.2)) ↔
      ∃ m, r.get? (decimal m) = some value ∧ shifted position count m = n := by
  rw [List.mem_map]
  constructor
  · rintro ⟨⟨key, value'⟩, listed, same⟩
    obtain ⟨key', rfl⟩ := Prod.mk.inj same
    have found := mem_ownEntries.mp listed
    obtain ⟨m, -, rfl⟩ := keyed key (JsMap.mem_keys.mpr ⟨value', found⟩)
    unfold shiftedKey at key'
    rw [wholeNumber_decimal] at key'
    exact ⟨m, found, decimal_injective key'⟩
  · rintro ⟨m, found, rfl⟩
    refine ⟨(decimal m, value), mem_ownEntries.mpr found, ?_⟩
    unfold shiftedKey
    rw [wholeNumber_decimal]

theorem nodup_shiftedEntries (keyed : r.KeyedByPosition total) :
    ((r.ownEntries.map fun entry => (shiftedKey position count entry.1, entry.2)).map
      Prod.fst).Nodup := by
  have same : (r.ownEntries.map fun entry => (shiftedKey position count entry.1, entry.2)).map Prod.fst =
      r.ownKeys.map (shiftedKey position count) := by
    rw [← map_fst_ownEntries, List.map_map, List.map_map]
    rfl
  rw [same]
  refine List.Nodup.map_on ?_ r.ownKeys_nodup
  intro key listed key' listed' equal
  have named : ∀ key ∈ r.ownKeys, ∃ n, key = decimal n := by
    intro key listed
    rw [← map_fst_ownEntries] at listed
    obtain ⟨entry, inside, rfl⟩ := List.mem_map.mp listed
    obtain ⟨n, -, key⟩ := keyed entry.1 (JsMap.mem_keys.mpr ⟨entry.2, mem_ownEntries.mp inside⟩)
    exact ⟨n, key⟩
  obtain ⟨n, rfl⟩ := named key listed
  obtain ⟨n', rfl⟩ := named key' listed'
  unfold shiftedKey at equal
  rw [wholeNumber_decimal, wholeNumber_decimal] at equal
  rw [shifted_injective position count (decimal_injective equal)]

theorem get?_shift_eq_some (keyed : r.KeyedByPosition total) {n : Nat} {value : α} :
    (r.shift position count).get? (decimal n) = some value ↔
      ∃ m, r.get? (decimal m) = some value ∧ shifted position count m = n :=
  (get?_ofEntries (nodup_shiftedEntries keyed)).trans (mem_shiftedEntries keyed)

/-- What stands at a position once room was made. -/
theorem get?_shift (keyed : r.KeyedByPosition total) (n : Nat) :
    (r.shift position count).get? (decimal n) =
      if n < position then r.get? (decimal n)
      else if n < position + count then none else r.get? (decimal (n - count)) := by
  refine Option.ext fun value => (get?_shift_eq_some keyed).trans ?_
  unfold shifted
  constructor
  · rintro ⟨m, found, same⟩
    split at same
    · rw [if_neg (by omega), if_neg (by omega), ← same, Nat.add_sub_cancel]
      exact found
    · rw [if_pos (by omega), ← same]
      exact found
  · intro found
    split at found
    · exact ⟨n, found, if_neg (by omega)⟩
    · split at found
      · cases found
      · refine ⟨n - count, found, ?_⟩
        rw [if_pos (by omega)]
        omega

end Shifting

namespace Readable

variable {parse : α → Option α} {count total : Nat} {r : Record α}

theorem empty : (∅ : Record α).Readable parse count where
  keyed := fun key listed => by cases listed
  parsed := fun found => by cases found

theorem shift {position more : Nat} (readable : r.Readable parse count) :
    (r.shift position more).Readable parse (count + more) where
  keyed := by
    intro key listed
    have inside := mem_keys_ofEntries.mp listed
    rw [List.map_map] at inside
    obtain ⟨entry, own, rfl⟩ := List.mem_map.mp inside
    obtain ⟨n, below, same⟩ :=
      readable.keyed entry.1 (JsMap.mem_keys.mpr ⟨entry.2, mem_ownEntries.mp own⟩)
    refine ⟨shifted position more n, ?_, ?_⟩
    · unfold shifted
      split <;> omega
    · rw [Function.comp_apply, same]
      unfold shiftedKey
      rw [wholeNumber_decimal]
  parsed := by
    intro key value found
    obtain ⟨entry, listed, same⟩ := List.mem_map.mp (mem_of_get?_ofEntries found)
    obtain ⟨-, rfl⟩ := Prod.mk.inj same
    exact readable.parsed (mem_ownEntries.mp listed)

theorem set {n : Nat} {value : α} (readable : r.Readable parse count) (below : n < count)
    (parsed : parse value = some value) : Record.Readable parse count (r.set (decimal n) value) where
  keyed := by
    intro key listed
    rcases JsMap.mem_put_keys.mp listed with rfl | old
    · exact ⟨n, below, rfl⟩
    · exact readable.keyed key old
  parsed := by
    intro key value' found
    rw [JsMap.get?_set] at found
    split at found
    · cases found
      exact parsed
    · exact readable.parsed found

theorem delete (readable : r.Readable parse count) (k : JsString) :
    Record.Readable parse count (r.delete k) := by
  have kept : ∀ {key value}, (r.delete k).get? key = some value → r.get? key = some value := by
    intro key value found
    rw [JsMap.get?_delete] at found
    split at found
    · cases found
    · exact found
  refine ⟨fun key listed => ?_, fun found => readable.parsed (kept found)⟩
  obtain ⟨value, found⟩ := JsMap.mem_keys.mp listed
  exact readable.keyed key (JsMap.mem_keys.mpr ⟨value, kept found⟩)

theorem position_lt {n : Nat} {value : α} (readable : r.Readable parse count)
    (found : r.get? (decimal n) = some value) : n < count :=
  readable.keyed.position_lt found

/-- What is read of such a record is what it holds. -/
theorem get?_normalizePositions (readable : r.Readable parse count) (n : Nat) :
    ((r.normalizePositions parse count).getD ∅).get? (decimal n) = r.get? (decimal n) := by
  have listed : ∀ value, (n, value) ∈ r.positionEntries parse count ↔
      r.get? (decimal n) = some value := by
    intro value
    rw [readable.keyed.mem_positionEntries, Option.bind_eq_some_iff]
    constructor
    · rintro ⟨raw, found, read⟩
      rw [readable.parsed found] at read
      cases read
      exact found
    · intro found
      exact ⟨value, found, readable.parsed found⟩
  refine Option.ext fun value => ?_
  unfold normalizePositions
  dsimp only
  split
  · rename_i nothing
    rw [← listed, nothing]
    exact iff_of_false (fun found => by cases found) List.not_mem_nil
  · rw [Option.getD_some, get?_ofPositions readable.keyed.nodup_positionEntries, listed]

end Readable

/-- What was read by position is read as it is. -/
theorem readable_normalizePositions {parse : α → Option α} {count : Nat}
    (stable : ∀ value value', parse value = some value' → parse value' = some value')
    (raw : Option (Record α)) :
    ((raw.bind fun raw => raw.normalizePositions parse count).getD ∅).Readable parse count := by
  cases normal : raw.bind fun raw => raw.normalizePositions parse count with
  | none => exact .empty
  | some r =>
    obtain ⟨raw', -, normal'⟩ := Option.bind_eq_some_iff.mp normal
    obtain ⟨positional, -, rfl⟩ := normalizePositions_eq_some normal'
    refine ⟨positional.keyed, fun found => ?_⟩
    obtain ⟨n, -, inside⟩ := mem_of_mem_entries_ofPositions (JsMap.mem_entries.mpr found)
    obtain ⟨-, rawValue, -, -, parsed⟩ := mem_positionEntries.mp inside
    exact stable rawValue _ parsed

end Record

end Takode
