import Takode.Lib.FreshNames
import Takode.Lib.Json
import Mathlib.Data.List.Sort

/-!
# Records by position

Records whose keys are the decimals of positions: `Number.parseInt` of a key, and the record that a
raw one is read as.
-/

namespace Takode

open JsString

namespace JsString

/-- `Number.parseInt(s, 10)`; absent where it is `NaN`. -/
def parseInt (s : JsString) : Option Int :=
  let text := s.dropWhile isSpace
  let negative := decide (text.head? = some 45)
  let digits := (if negative || text.head? = some 43 then text.tail else text).takeWhile isDigit
  if digits = [] then none
  else some (if negative then -(digitsValue digits : Int) else digitsValue digits)

theorem parseInt_decimal (n : Nat) : parseInt (decimal n) = some (n : Int) := by
  have digits : ∀ c ∈ decimal n, isDigit c = true := fun c inside => isDigit_of_mem_decimal inside
  cases decimals : decimal n with
  | nil => exact absurd decimals (decimal_ne_nil n)
  | cons c rest =>
    have digit : isDigit c = true := digits c (by rw [decimals]; exact List.mem_cons_self)
    have range := toNat_of_isDigit digit
    have plain : isSpace c = false := by
      rw [← UInt16.ofNat_toNat (x := c)]
      generalize c.toNat = m at range
      obtain ⟨low, high⟩ := range
      interval_cases m <;> rfl
    have signs : c ≠ 45 ∧ c ≠ 43 := by
      refine ⟨?_, ?_⟩
      · rintro rfl
        exact absurd range (by decide)
      · rintro rfl
        exact absurd range (by decide)
    have kept : (c :: rest).dropWhile isSpace = c :: rest := by
      rw [List.dropWhile_cons, plain, if_neg (by decide)]
    have all : (c :: rest).takeWhile isDigit = c :: rest :=
      List.takeWhile_eq_self_iff.mpr fun d inside => digits d (by rw [decimals]; exact inside)
    unfold parseInt
    dsimp only
    rw [kept, List.head?_cons]
    have noMinus : decide (some c = some 45) = false := by simpa using signs.1
    have noPlus : decide (some c = some 43) = false := by simpa using signs.2
    rw [noMinus, noPlus, Bool.or_false, if_neg Bool.false_ne_true, all,
      if_neg (List.cons_ne_nil _ _), if_neg Bool.false_ne_true, ← decimals, digitsValue_decimal]

/-- The position that a key names, of so many. -/
def position (key : JsString) (count : Nat) : Option Nat :=
  (parseInt key).bind fun index => if 0 ≤ index ∧ index < count then some index.toNat else none

theorem position_decimal {n count : Nat} (below : n < count) : position (decimal n) count = some n := by
  unfold position
  rw [parseInt_decimal, Option.bind_some, if_pos (by omega)]
  rfl

theorem position_lt {key : JsString} {n count : Nat} (found : position key count = some n) :
    n < count := by
  obtain ⟨index, -, same⟩ := Option.bind_eq_some_iff.mp found
  split at same
  · cases same
    omega
  · cases same

end JsString

namespace Record

variable {α β : Type}

/-- The entries of a raw record at positions, in order. -/
def positionEntries (parse : β → Option α) (count : Nat) (raw : Record β) : List (Nat × α) :=
  (raw.ownEntries.filterMap fun entry =>
    (position entry.1 count).bind fun index => (parse entry.2).map fun value => (index, value))
      |>.insertionSort fun a b => a.1 ≤ b.1

/-- The record that has values at positions. -/
def ofPositions (entries : List (Nat × α)) : Record α :=
  ofEntries (entries.map fun entry => (decimal entry.1, entry.2))

/-- The record that a raw one is read as, unless nothing is left. -/
def normalizePositions (parse : β → Option α) (count : Nat) (raw : Record β) : Option (Record α) :=
  let entries := raw.positionEntries parse count
  if entries = [] then none else some (ofPositions entries)

/-- The entries of a record, if its keys are decimals. -/
def positions (r : Record α) : List (Nat × α) :=
  r.entries.map fun entry => (digitsValue entry.1, entry.2)

/-- A record by position: its keys are the decimals of positions, in order. -/
structure IsPositional (r : Record α) (count : Nat) : Prop where
  keys : ∀ entry ∈ r.entries, ∃ n < count, entry.1 = decimal n
  sorted : r.positions.Pairwise (·.1 < ·.1)

/-- The keys of a record are the decimals of positions. -/
def KeyedByPosition (r : Record α) (count : Nat) : Prop := ∀ key ∈ r.keys, ∃ n < count, key = decimal n

theorem positionEntries_sorted (parse : β → Option α) (count : Nat) (raw : Record β) :
    (raw.positionEntries parse count).Pairwise (·.1 ≤ ·.1) :=
  List.pairwise_insertionSort _ _

theorem mem_positionEntries {parse : β → Option α} {count : Nat} {raw : Record β} {n : Nat} {value : α} :
    (n, value) ∈ raw.positionEntries parse count ↔ ∃ key rawValue, raw.get? key = some rawValue ∧
      position key count = some n ∧ parse rawValue = some value := by
  unfold positionEntries
  rw [List.mem_insertionSort, List.mem_filterMap]
  constructor
  · rintro ⟨⟨key, rawValue⟩, listed, found⟩
    obtain ⟨index, position', found⟩ := Option.bind_eq_some_iff.mp found
    obtain ⟨value', parsed, same⟩ := Option.map_eq_some_iff.mp found
    cases same
    exact ⟨key, rawValue, mem_ownEntries.mp listed, position', parsed⟩
  · rintro ⟨key, rawValue, found, position', parsed⟩
    refine ⟨(key, rawValue), mem_ownEntries.mpr found, ?_⟩
    rw [position', Option.bind_some, parsed, Option.map_some]

theorem keys_set_sublist (r : Record α) (k : JsString) (a : α) :
    (r.set k a).keys.Sublist (r.keys ++ [k]) := by
  cases found : r.get? k with
  | none => rw [JsMap.keys_set_of_absent found]
  | some b =>
    rw [JsMap.keys_set_of_present found]
    exact List.sublist_append_left _ _

/-- The keys of a record are some of those that it was set from, in order. -/
theorem keys_ofEntries_sublist (entries : List (JsString × α)) :
    (ofEntries entries).keys.Sublist (entries.map Prod.fst) := by
  have grown : ∀ (rest : List (JsString × α)) (r : Record α),
      (rest.foldl (fun r e => r.set e.1 e.2) r).keys.Sublist (r.keys ++ rest.map Prod.fst) := by
    intro rest
    induction rest with
    | nil =>
      intro r
      rw [List.map_nil, List.append_nil]
      exact List.Sublist.refl _
    | cons e rest ih =>
      intro r
      rw [List.map_cons, List.append_cons]
      exact (ih (r.set e.1 e.2)).trans ((keys_set_sublist r e.1 e.2).append_right _)
  exact grown entries ∅

theorem mem_keys_ofEntries {entries : List (JsString × α)} {k : JsString} :
    k ∈ (ofEntries entries).keys ↔ k ∈ entries.map Prod.fst := by
  have grown : ∀ (rest : List (JsString × α)) (r : Record α),
      k ∈ (rest.foldl (fun r e => r.set e.1 e.2) r).keys ↔ k ∈ r.keys ∨ k ∈ rest.map Prod.fst := by
    intro rest
    induction rest with
    | nil =>
      intro r
      simp
    | cons e rest ih =>
      intro r
      have put : k ∈ (r.set e.1 e.2).keys ↔ k = e.1 ∨ k ∈ r.keys := JsMap.mem_put_keys
      rw [List.foldl_cons, ih, put, List.map_cons, List.mem_cons]
      tauto
  have none : ¬ k ∈ (∅ : Record α).keys := List.not_mem_nil
  refine (grown entries ∅).trans ⟨fun either => either.resolve_left none, .inr⟩

theorem mem_of_mem_entries_ofPositions {entries : List (Nat × α)} {entry : JsString × α}
    (listed : entry ∈ (ofPositions entries).entries) :
    ∃ n, entry.1 = decimal n ∧ (n, entry.2) ∈ entries := by
  have found := mem_of_get?_ofEntries (JsMap.mem_entries.mp listed)
  obtain ⟨⟨n, value⟩, inside, same⟩ := List.mem_map.mp found
  obtain ⟨key, value'⟩ := Prod.mk.inj same
  exact ⟨n, key.symm, value' ▸ inside⟩

/-- What is set at positions in order is a record by position. -/
theorem isPositional_ofPositions {entries : List (Nat × α)} {count : Nat}
    (sorted : entries.Pairwise (·.1 ≤ ·.1)) (below : ∀ entry ∈ entries, entry.1 < count) :
    (ofPositions entries).IsPositional count := by
  have keys : ∀ entry ∈ (ofPositions entries).entries, ∃ n < count, entry.1 = decimal n := by
    intro entry listed
    obtain ⟨n, key, inside⟩ := mem_of_mem_entries_ofPositions listed
    exact ⟨n, below _ inside, key⟩
  refine ⟨keys, ?_⟩
  have shown : (ofPositions entries).positions.map Prod.fst =
      (ofPositions entries).keys.map digitsValue := by
    unfold positions JsMap.keys
    rw [List.map_map, List.map_map]
    rfl
  have order : ((ofPositions entries).positions.map Prod.fst).Pairwise (· ≤ ·) := by
    have kept := (keys_ofEntries_sublist (entries.map fun entry => (decimal entry.1, entry.2))).map
      digitsValue
    rw [List.map_map, List.map_map] at kept
    have numbers : entries.map ((digitsValue ∘ Prod.fst) ∘ fun entry =>
        (decimal entry.1, entry.2)) = entries.map Prod.fst :=
      List.map_congr_left fun entry _ => digitsValue_decimal entry.1
    rw [numbers] at kept
    rw [shown]
    exact (List.pairwise_map.mpr sorted).sublist kept
  have distinct : ((ofPositions entries).positions.map Prod.fst).Nodup := by
    rw [shown]
    refine List.Nodup.map_on ?_ (ofPositions entries).nodup
    intro key listed key' listed' same
    obtain ⟨entry, inside, rfl⟩ := List.mem_map.mp listed
    obtain ⟨entry', inside', rfl⟩ := List.mem_map.mp listed'
    obtain ⟨n, -, first⟩ := keys entry inside
    obtain ⟨n', -, second⟩ := keys entry' inside'
    rw [first, second, digitsValue_decimal, digitsValue_decimal] at same
    rw [first, second, same]
  have both := order.and distinct
  exact (List.pairwise_map.mp both).imp fun less => Nat.lt_of_le_of_ne less.1 less.2

theorem entries_eq_of_isPositional {r : Record α} {count : Nat} (positional : r.IsPositional count) :
    r.entries = r.positions.map fun entry => (decimal entry.1, entry.2) := by
  unfold positions
  rw [List.map_map]
  refine (List.map_id _).symm.trans (List.map_congr_left fun entry listed => ?_)
  obtain ⟨n, -, key⟩ := positional.keys entry listed
  rw [Function.comp_apply, key, digitsValue_decimal, ← key]
  rfl

theorem perm_ownEntries (r : Record α) : r.ownEntries.Perm r.entries := by
  have own : (r.ownEntries.map Prod.fst).Nodup := r.map_fst_ownEntries ▸ r.ownKeys_nodup
  refine (List.perm_ext_iff_of_nodup own.of_map (List.Nodup.of_map Prod.fst r.nodup)).mpr ?_
  rintro ⟨key, value⟩
  rw [mem_ownEntries, JsMap.mem_entries]

/-- A record by position is read as it is. -/
theorem positionEntries_of_isPositional {parse : α → Option α} {count : Nat} {r : Record α}
    (positional : r.IsPositional count)
    (parsed : ∀ entry ∈ r.entries, parse entry.2 = some entry.2) :
    r.positionEntries parse count = r.positions := by
  have read : r.entries.filterMap (fun entry =>
      (position entry.1 count).bind fun index => (parse entry.2).map fun value => (index, value)) =
      r.positions := by
    unfold positions
    rw [← List.filterMap_eq_map]
    refine List.filterMap_congr fun entry listed => ?_
    obtain ⟨n, below, key⟩ := positional.keys entry listed
    rw [key, position_decimal below, Option.bind_some, parsed entry listed, Option.map_some,
      Function.comp_apply, key, digitsValue_decimal]
  have same := (perm_ownEntries r).filterMap fun entry : JsString × α =>
      (position entry.1 count).bind fun index => (parse entry.2).map fun value => (index, value)
  rw [read] at same
  unfold positionEntries
  refine ((List.perm_insertionSort _ _).trans same).eq_of_pairwise ?_
    (List.pairwise_insertionSort _ _) (positional.sorted.imp fun less => Nat.le_of_lt less)
  intro a b listed listed' less more
  have listed := same.mem_iff.mp ((List.mem_insertionSort _).mp listed)
  have distinct : (r.positions.map Prod.fst).Nodup :=
    List.pairwise_map.mpr (positional.sorted.imp Nat.ne_of_lt)
  exact List.inj_on_of_nodup_map distinct listed listed' (Nat.le_antisymm less more)

theorem normalizePositions_of_isPositional {parse : α → Option α} {count : Nat} {r : Record α}
    (positional : r.IsPositional count)
    (parsed : ∀ entry ∈ r.entries, parse entry.2 = some entry.2) (filled : r.entries ≠ []) :
    r.normalizePositions parse count = some r := by
  have entries := positionEntries_of_isPositional positional parsed
  unfold normalizePositions
  dsimp only
  have some : r.positions ≠ [] := fun none => filled (List.map_eq_nil_iff.mp none)
  rw [entries, if_neg some]
  refine congrArg Option.some (JsMap.ext ?_)
  have own := entries_eq_of_isPositional positional
  unfold ofPositions
  rw [← own]
  exact entries_ofEntries r.nodup

theorem normalizePositions_eq_some {parse : β → Option α} {count : Nat} {raw : Record β}
    {r : Record α} (normal : raw.normalizePositions parse count = some r) :
    r.IsPositional count ∧ r.entries ≠ [] ∧ r = ofPositions (raw.positionEntries parse count) := by
  unfold normalizePositions at normal
  dsimp only at normal
  split at normal
  · cases normal
  · rename_i filled
    cases normal
    refine ⟨isPositional_ofPositions (positionEntries_sorted parse count raw) ?_, ?_, rfl⟩
    · rintro ⟨n, value⟩ listed
      obtain ⟨_, _, _, named, _⟩ := mem_positionEntries.mp listed
      exact position_lt named
    · intro none
      obtain ⟨entry, listed⟩ := List.exists_mem_of_ne_nil _ filled
      have key : decimal entry.1 ∈ (ofPositions (raw.positionEntries parse count)).keys :=
        mem_keys_ofEntries.mpr (List.mem_map.mpr
          ⟨(decimal entry.1, entry.2), List.mem_map.mpr ⟨entry, listed, rfl⟩, rfl⟩)
      unfold JsMap.keys at key
      rw [none] at key
      cases key

/-- What was normalized stays, if what is read of a value is read again as it is. -/
theorem normalizePositions_idempotent {parse : α → Option α} {count : Nat} {raw r : Record α}
    (stable : ∀ value value', parse value = some value' → parse value' = some value')
    (normal : raw.normalizePositions parse count = some r) :
    r.normalizePositions parse count = some r := by
  obtain ⟨positional, filled, rfl⟩ := normalizePositions_eq_some normal
  refine normalizePositions_of_isPositional positional (fun entry listed => ?_) filled
  obtain ⟨n, -, inside⟩ := mem_of_mem_entries_ofPositions listed
  obtain ⟨-, rawValue, -, -, parsed⟩ := mem_positionEntries.mp inside
  exact stable rawValue entry.2 parsed

/-! ## Records that are keyed by position -/

section Keyed

variable {count : Nat} {r : Record α}

theorem IsPositional.keyed (positional : r.IsPositional count) : r.KeyedByPosition count := by
  intro key listed
  obtain ⟨entry, inside, rfl⟩ := List.mem_map.mp listed
  exact positional.keys entry inside

theorem KeyedByPosition.position_lt {n : Nat} {value : α} (keyed : r.KeyedByPosition count)
    (found : r.get? (decimal n) = some value) : n < count := by
  obtain ⟨m, below, same⟩ := keyed _ (JsMap.mem_keys.mpr ⟨value, found⟩)
  rwa [decimal_injective same]

/-- What is read of a record that is keyed by position. -/
theorem KeyedByPosition.mem_positionEntries {parse : α → Option β} (keyed : r.KeyedByPosition count)
    {n : Nat} {value : β} :
    (n, value) ∈ r.positionEntries parse count ↔ (r.get? (decimal n)).bind parse = some value := by
  rw [Record.mem_positionEntries, Option.bind_eq_some_iff]
  constructor
  · rintro ⟨key, rawValue, found, named, parsed⟩
    obtain ⟨m, below, rfl⟩ := keyed key (JsMap.mem_keys.mpr ⟨rawValue, found⟩)
    rw [position_decimal below] at named
    cases named
    exact ⟨rawValue, found, parsed⟩
  · rintro ⟨rawValue, found, parsed⟩
    exact ⟨_, rawValue, found, position_decimal (keyed.position_lt found), parsed⟩

theorem KeyedByPosition.nodup_positionEntries {parse : α → Option β} (keyed : r.KeyedByPosition count) :
    ((r.positionEntries parse count).map Prod.fst).Nodup := by
  have own : r.ownEntries.Pairwise (·.1 ≠ ·.1) := by
    have distinct : (r.ownEntries.map Prod.fst).Nodup := r.map_fst_ownEntries ▸ r.ownKeys_nodup
    exact List.pairwise_map.mp distinct
  unfold positionEntries
  rw [((List.perm_insertionSort _ _).map Prod.fst).nodup_iff]
  refine List.pairwise_map.mpr (List.pairwise_filterMap.mpr (own.imp_of_mem ?_))
  intro a b listed listed' other x first y second same
  have named : ∀ entry ∈ r.ownEntries, ∀ x : Nat × β, ((position entry.1 count).bind fun index =>
      (parse entry.2).map fun value => (index, value)) = some x → entry.1 = decimal x.1 := by
    intro entry inside x found
    obtain ⟨n, below, key⟩ :=
      keyed entry.1 (JsMap.mem_keys.mpr ⟨entry.2, mem_ownEntries.mp inside⟩)
    rw [key, position_decimal below, Option.bind_some] at found
    obtain ⟨value, -, rfl⟩ := Option.map_eq_some_iff.mp found
    exact key
  exact other ((named a listed x first).trans (same ▸ (named b listed' y second).symm))

theorem KeyedByPosition.mem_positions (keyed : r.KeyedByPosition count) {n : Nat} {value : α} :
    (n, value) ∈ r.positions ↔ r.get? (decimal n) = some value := by
  unfold positions
  rw [List.mem_map]
  constructor
  · rintro ⟨entry, listed, same⟩
    cases same
    obtain ⟨m, -, key⟩ := keyed entry.1 (List.mem_map_of_mem listed)
    rw [key, digitsValue_decimal, ← key]
    exact JsMap.mem_entries.mp listed
  · intro found
    exact ⟨(decimal n, value), JsMap.mem_entries.mpr found, by rw [digitsValue_decimal]⟩

theorem KeyedByPosition.nodup_positions (keyed : r.KeyedByPosition count) :
    (r.positions.map Prod.fst).Nodup := by
  unfold positions
  rw [List.map_map]
  have distinct : (r.entries.map Prod.fst).Pairwise (· ≠ ·) := r.nodup
  refine List.pairwise_map.mpr ((List.pairwise_map.mp distinct).imp_of_mem ?_)
  intro a b listed listed' other same
  obtain ⟨n, -, key⟩ := keyed a.1 (List.mem_map_of_mem listed)
  obtain ⟨m, -, key'⟩ := keyed b.1 (List.mem_map_of_mem listed')
  rw [Function.comp_apply, Function.comp_apply, key, key', digitsValue_decimal,
    digitsValue_decimal] at same
  have numbers : n = m := same
  exact other (by rw [key, key', numbers])

theorem get?_ofPositions {entries : List (Nat × α)} (distinct : (entries.map Prod.fst).Nodup) {n : Nat}
    {value : α} : (ofPositions entries).get? (decimal n) = some value ↔ (n, value) ∈ entries := by
  have keys : ((entries.map fun entry => (decimal entry.1, entry.2)).map Prod.fst).Nodup := by
    rw [List.map_map]
    have same : entries.map (Prod.fst ∘ fun entry => (decimal entry.1, entry.2)) =
        (entries.map Prod.fst).map decimal := by
      rw [List.map_map]
      rfl
    rw [same]
    exact distinct.map decimal_injective
  unfold ofPositions
  rw [← JsMap.mem_entries, entries_ofEntries keys, List.mem_map]
  constructor
  · rintro ⟨entry, listed, same⟩
    obtain ⟨key, rfl⟩ := Prod.mk.inj same
    rw [← decimal_injective key]
    exact listed
  · intro listed
    exact ⟨(n, value), listed, rfl⟩

/-- What a record holds after more entries were set. -/
theorem get?_foldl_set (entries : List (JsString × α)) (r : Record α) (k : JsString) :
    (∃ value, (k, value) ∈ entries ∧
      (entries.foldl (fun r entry => r.set entry.1 entry.2) r).get? k = some value) ∨
    k ∉ entries.map Prod.fst ∧
      (entries.foldl (fun r entry => r.set entry.1 entry.2) r).get? k = r.get? k := by
  induction entries generalizing r with
  | nil => exact .inr ⟨List.not_mem_nil, rfl⟩
  | cons entry rest ih =>
    rw [List.foldl_cons]
    rcases ih (r.set entry.1 entry.2) with ⟨value, listed, found⟩ | ⟨other, found⟩
    · exact .inl ⟨value, List.mem_cons_of_mem _ listed, found⟩
    · by_cases same : k = entry.1
      · subst same
        exact .inl ⟨entry.2, List.mem_cons_self, found.trans JsMap.get?_set_self⟩
      · refine .inr ⟨?_, found.trans (JsMap.get?_set_of_ne same)⟩
        rw [List.map_cons, List.mem_cons]
        exact not_or.mpr ⟨same, other⟩

end Keyed

end Record

end Takode
