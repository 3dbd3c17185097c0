import Takode.Lib.FreshNames
import Takode.Lib.JsValue

/-!
# JSON values

What `JSON.parse` gives, and the records that objects are used as. An object lists its
members as the text does: of two members of one name the later one counts.
-/

namespace Takode

inductive JsonValue
  | null
  | boolean (value : Bool)
  | number (value : JsNumber)
  | string (value : JsString)
  | array (items : List JsonValue)
  | object (members : List (JsString × JsonValue))

namespace Record

variable {α β : Type}

/-- The record with the entries, set one after another. -/
def ofEntries (entries : List (JsString × α)) : Record α :=
  entries.foldl (fun r e => r.set e.1 e.2) ∅

/-- `Object.entries`. -/
def ownEntries (r : Record α) : List (JsString × α) :=
  r.ownKeys.filterMap fun k => (r.get? k).map fun a => (k, a)

variable {r r' : Record α} {k : JsString} {a : α}

theorem mem_ownEntries : (k, a) ∈ r.ownEntries ↔ r.get? k = some a := by
  simp only [ownEntries, List.mem_filterMap, Option.map_eq_some_iff]
  constructor
  · rintro ⟨_, _, b, found, same⟩
    cases same
    exact found
  · exact fun found => ⟨k, Record.mem_ownKeys.mpr ⟨a, found⟩, a, found, rfl⟩

theorem ownKeys_nodup (r : Record α) : r.ownKeys.Nodup := by
  have distinct : r.keys.Nodup := r.nodup
  unfold ownKeys
  rw [List.nodup_append]
  refine ⟨(List.perm_insertionSort _ _).nodup_iff.mpr (distinct.filter _), distinct.filter _, ?_⟩
  rintro k index _ other rfl
  rw [List.mem_insertionSort, List.mem_filter] at index
  simp [index.2] at other

theorem map_fst_ownEntries (r : Record α) : r.ownEntries.map Prod.fst = r.ownKeys := by
  unfold ownEntries
  rw [List.map_filterMap]
  refine (List.filterMap_congr fun k listed => ?_).trans List.filterMap_some
  obtain ⟨a, found⟩ := Record.mem_ownKeys.mp listed
  simp [found]

theorem entries_foldl_set (entries : List (JsString × α)) (r : Record α)
    (fresh : (r.keys ++ entries.map Prod.fst).Nodup) :
    (entries.foldl (fun r e => r.set e.1 e.2) r).entries = r.entries ++ entries := by
  induction entries generalizing r with
  | nil => simp
  | cons e entries ih =>
    rw [List.map_cons, List.nodup_append_comm, List.cons_append, List.nodup_cons] at fresh
    have absent : r.get? e.1 = none := by
      rw [← Option.not_isSome_iff_eq_none, Option.isSome_iff_exists, ← JsMap.mem_keys]
      exact fun listed => fresh.1 (List.mem_append_right _ listed)
    have put : (r.set e.1 e.2).entries = r.entries ++ [e] := JsMap.put_of_absent absent
    rw [List.foldl_cons, ih, put, List.append_assoc, List.singleton_append]
    rw [JsMap.keys_set_of_absent absent, List.append_assoc, List.singleton_append]
    rw [List.nodup_append_comm, List.cons_append, List.nodup_cons]
    exact fresh

theorem entries_ofEntries {entries : List (JsString × α)}
    (distinct : (entries.map Prod.fst).Nodup) : (ofEntries entries).entries = entries :=
  entries_foldl_set entries ∅ distinct

theorem mem_of_get?_ofEntries {entries : List (JsString × α)}
    (found : (ofEntries entries).get? k = some a) : (k, a) ∈ entries := by
  have step (rest : List (JsString × α)) : ∀ r : Record α,
      (rest.foldl (fun r e => r.set e.1 e.2) r).get? k = some a →
        r.get? k = some a ∨ (k, a) ∈ rest := by
    induction rest with
    | nil => exact fun _ => Or.inl
    | cons e rest ih =>
      intro r found
      rcases ih (r.set e.1 e.2) found with set | later
      · rw [JsMap.get?_set] at set
        split at set
        · next own =>
          cases set
          exact Or.inr (own ▸ List.mem_cons_self)
        · exact Or.inl set
      · exact Or.inr (List.mem_cons_of_mem _ later)
  exact (step entries ∅ found).resolve_left fun absent => by cases absent

theorem get?_ofEntries {entries : List (JsString × α)} (distinct : (entries.map Prod.fst).Nodup) :
    (ofEntries entries).get? k = some a ↔ (k, a) ∈ entries := by
  rw [← JsMap.mem_entries, entries_ofEntries distinct]

theorem get?_ofEntries_ownEntries (r : Record α) (k : JsString) :
    (ofEntries r.ownEntries).get? k = r.get? k := by
  have distinct : (r.ownEntries.map Prod.fst).Nodup := r.map_fst_ownEntries ▸ r.ownKeys_nodup
  refine Option.ext fun a => ?_
  rw [get?_ofEntries distinct, mem_ownEntries]

theorem filter_ownKeys_index (r : Record α) : r.ownKeys.filter JsString.isArrayIndex =
    (r.keys.filter JsString.isArrayIndex).insertionSort fun a b => a.digitsValue ≤ b.digitsValue := by
  have none : (r.keys.filter fun k => !k.isArrayIndex).filter JsString.isArrayIndex = [] := by
    refine List.filter_eq_nil_iff.mpr fun k listed => ?_
    simpa using (List.mem_filter.mp listed).2
  rw [ownKeys, List.filter_append, none, List.append_nil, List.filter_eq_self]
  intro k listed
  exact (List.mem_filter.mp ((List.mem_insertionSort _).mp listed)).2

theorem filter_ownKeys_other (r : Record α) :
    (r.ownKeys.filter fun k => !k.isArrayIndex) = r.keys.filter fun k => !k.isArrayIndex := by
  rw [ownKeys, List.filter_append, List.filter_eq_nil_iff.mpr, List.nil_append, List.filter_filter]
  · simp
  · intro k listed
    simpa using (List.mem_filter.mp ((List.mem_insertionSort _).mp listed)).2

/-- What the order of a record's keys is made of. -/
theorem ownKeys_eq_iff {r : Record α} {r' : Record β} :
    r.ownKeys = r'.ownKeys ↔
      (r.keys.filter JsString.isArrayIndex).Perm (r'.keys.filter JsString.isArrayIndex) ∧
        (r.keys.filter fun k => !k.isArrayIndex) = r'.keys.filter fun k => !k.isArrayIndex := by
  constructor
  · intro same
    rw [← filter_ownKeys_other, same, filter_ownKeys_other]
    refine ⟨?_, rfl⟩
    have indices := (filter_ownKeys_index r).symm.trans
      ((congrArg (List.filter JsString.isArrayIndex) same).trans (filter_ownKeys_index r'))
    exact ((List.perm_insertionSort _ _).symm.trans (.of_eq indices)).trans
      (List.perm_insertionSort _ _)
  · rintro ⟨indices, others⟩
    rw [ownKeys, ownKeys, others]
    congr 1
    have sorted :=
      ((List.perm_insertionSort (fun a b : JsString => a.digitsValue ≤ b.digitsValue) _).trans
        indices).trans (List.perm_insertionSort (fun a b => a.digitsValue ≤ b.digitsValue) _).symm
    refine sorted.eq_of_pairwise ?_ (List.pairwise_insertionSort _ _)
      (List.pairwise_insertionSort _ _)
    -- Two array indices with one value are one text.
    intro a b ofLeft ofRight le ge
    have indexA := (List.mem_filter.mp ((List.mem_insertionSort _).mp ofLeft)).2
    have indexB := (List.mem_filter.mp ((List.mem_insertionSort _).mp ofRight)).2
    rw [← JsString.decimal_digitsValue indexA, le_antisymm le ge,
      JsString.decimal_digitsValue indexB]

/-- The keys of a record in their own order stay in it. -/
theorem ownKeys_ofEntries_ownEntries (r : Record α) :
    (ofEntries r.ownEntries).ownKeys = r.ownKeys := by
  have distinct : (r.ownEntries.map Prod.fst).Nodup := r.map_fst_ownEntries ▸ r.ownKeys_nodup
  have keys : (ofEntries r.ownEntries).keys = r.ownKeys := by
    rw [JsMap.keys, entries_ofEntries distinct, map_fst_ownEntries]
  refine ownKeys_eq_iff.mpr ?_
  rw [keys, filter_ownKeys_index, filter_ownKeys_other]
  exact ⟨List.perm_insertionSort _ _, rfl⟩

theorem ownKeys_set {r : Record α} {r' : Record β} (same : r.ownKeys = r'.ownKeys) (k : JsString)
    (a : α) (b : β) : ownKeys (r.set k a) = ownKeys (r'.set k b) := by
  have members : k ∈ r.keys ↔ k ∈ r'.keys := by
    rw [JsMap.mem_keys, ← mem_ownKeys, same, mem_ownKeys, JsMap.mem_keys]
  obtain ⟨indices, others⟩ := ownKeys_eq_iff.mp same
  refine ownKeys_eq_iff.mpr ?_
  by_cases listed : k ∈ r.keys
  · obtain ⟨_, present⟩ := JsMap.mem_keys.mp listed
    obtain ⟨_, present'⟩ := JsMap.mem_keys.mp (members.mp listed)
    rw [JsMap.keys_set_of_present present, JsMap.keys_set_of_present present']
    exact ⟨indices, others⟩
  · have absent : r.get? k = none := JsMap.has_eq_false.mp
      (Bool.not_eq_true _ ▸ fun has => listed (JsMap.mem_keys.mpr (JsMap.has_eq_true.mp has)))
    have absent' : r'.get? k = none := JsMap.has_eq_false.mp
      (Bool.not_eq_true _ ▸ fun has =>
        listed (members.mpr (JsMap.mem_keys.mpr (JsMap.has_eq_true.mp has))))
    rw [JsMap.keys_set_of_absent absent, JsMap.keys_set_of_absent absent']
    simp only [List.filter_append, others]
    exact ⟨indices.append_right _, trivial⟩

theorem ownKeys_delete {r : Record α} {r' : Record β} (same : r.ownKeys = r'.ownKeys)
    (k : JsString) : ownKeys (r.delete k) = ownKeys (r'.delete k) := by
  obtain ⟨indices, others⟩ := ownKeys_eq_iff.mp same
  refine ownKeys_eq_iff.mpr ?_
  rw [JsMap.keys_delete, JsMap.keys_delete]
  have swap (keys : List JsString) (p : JsString → Bool) :
      (keys.filter (· ≠ k)).filter p = (keys.filter p).filter (· ≠ k) := by
    rw [List.filter_filter, List.filter_filter]
    exact List.filter_congr fun _ _ => Bool.and_comm _ _
  rw [swap, swap, swap, swap, others]
  exact ⟨indices.filter _, rfl⟩

/-- A record that is read back has the same entries in the same order. -/
theorem ownEntries_ofEntries_ownEntries (r : Record α) :
    (ofEntries r.ownEntries).ownEntries = r.ownEntries := by
  rw [ownEntries, ownKeys_ofEntries_ownEntries]
  simp only [get?_ofEntries_ownEntries]
  rfl

/-- The record that is read back of one that was written. -/
def canonical (r : Record α) : Record α := ofEntries r.ownEntries

@[simp] theorem get?_canonical : r.canonical.get? k = r.get? k := get?_ofEntries_ownEntries r k

@[simp] theorem ownKeys_canonical : r.canonical.ownKeys = r.ownKeys :=
  ownKeys_ofEntries_ownEntries r

@[simp] theorem ownEntries_canonical : r.canonical.ownEntries = r.ownEntries :=
  ownEntries_ofEntries_ownEntries r

@[simp] theorem canonical_canonical : r.canonical.canonical = r.canonical := by
  unfold canonical
  rw [ownEntries_ofEntries_ownEntries]

theorem canonical_eq_iff {r r' : Record α} :
    r.canonical = r'.canonical ↔ r.ownKeys = r'.ownKeys ∧ ∀ k, r.get? k = r'.get? k := by
  constructor
  · intro same
    refine ⟨?_, fun k => ?_⟩
    · rw [← ownKeys_canonical, same, ownKeys_canonical]
    · rw [← get?_canonical, same, get?_canonical]
  · rintro ⟨keys, values⟩
    unfold canonical ownEntries
    rw [keys]
    simp only [values]

/-- Without array indices the entries stand as they were added. -/
theorem ownEntries_of_plain (plain : ∀ k ∈ r.keys, k.isArrayIndex = false) :
    r.ownEntries = r.entries := by
  have keys : r.ownKeys = r.keys := by
    rw [ownKeys, List.filter_eq_nil_iff.mpr, List.filter_eq_self.mpr]
    · rfl
    · exact fun k listed => by simp [plain k listed]
    · exact fun k listed => by simp [plain k listed]
  rw [ownEntries, keys, JsMap.keys, List.filterMap_map]
  refine (List.filterMap_congr fun e listed => ?_).trans List.filterMap_some
  rw [Function.comp_apply, JsMap.mem_entries.mp listed]
  rfl

theorem canonical_of_plain (plain : ∀ k ∈ r.keys, k.isArrayIndex = false) : r.canonical = r := by
  apply JsMap.ext
  rw [canonical, ownEntries_of_plain plain]
  exact entries_ofEntries r.nodup

theorem keys_map (r : Record α) (f : JsString → α → β) : (JsMap.map r f).keys = r.keys := by
  simp [JsMap.keys, JsMap.map, JsMap.filterMap, List.map_map, Function.comp_def]

@[simp] theorem ownKeys_map (r : Record α) (f : JsString → α → β) :
    ownKeys (JsMap.map r f) = r.ownKeys := by
  unfold ownKeys
  rw [keys_map]

theorem ownEntries_map (r : Record α) (f : JsString → α → β) :
    ownEntries (JsMap.map r f) = r.ownEntries.map fun e => (e.1, f e.1 e.2) := by
  unfold ownEntries
  rw [List.map_filterMap, ownKeys_map]
  refine List.filterMap_congr fun k _ => ?_
  rw [JsMap.get?_map]
  cases r.get? k <;> rfl

end Record

namespace JsonValue

mutual

/-- Equality of JSON values, by recursion. -/
def decEq : (a b : JsonValue) → Decidable (a = b)
  | null, null => isTrue rfl
  | boolean a, boolean b => decidable_of_iff (a = b) ⟨congrArg boolean, boolean.inj⟩
  | number a, number b => decidable_of_iff (a = b) ⟨congrArg number, number.inj⟩
  | string a, string b => decidable_of_iff (a = b) ⟨congrArg string, string.inj⟩
  | array a, array b => match decEqItems a b with
    | isTrue same => isTrue (congrArg array same)
    | isFalse other => isFalse fun same => other (array.inj same)
  | object a, object b => match decEqMembers a b with
    | isTrue same => isTrue (congrArg object same)
    | isFalse other => isFalse fun same => other (object.inj same)
  | null, boolean _ | null, number _ | null, string _ | null, array _ | null, object _
  | boolean _, null | boolean _, number _ | boolean _, string _ | boolean _, array _
  | boolean _, object _
  | number _, null | number _, boolean _ | number _, string _ | number _, array _
  | number _, object _
  | string _, null | string _, boolean _ | string _, number _ | string _, array _
  | string _, object _
  | array _, null | array _, boolean _ | array _, number _ | array _, string _ | array _, object _
  | object _, null | object _, boolean _ | object _, number _ | object _, string _
  | object _, array _ => isFalse fun same => by cases same

def decEqItems : (a b : List JsonValue) → Decidable (a = b)
  | [], [] => isTrue rfl
  | [], _ :: _ | _ :: _, [] => isFalse fun same => by cases same
  | x :: a, y :: b => match decEq x y, decEqItems a b with
    | isTrue head, isTrue tail => isTrue (by rw [head, tail])
    | isFalse other, _ => isFalse fun same => other (List.cons.inj same).1
    | _, isFalse other => isFalse fun same => other (List.cons.inj same).2

def decEqMembers : (a b : List (JsString × JsonValue)) → Decidable (a = b)
  | [], [] => isTrue rfl
  | [], _ :: _ | _ :: _, [] => isFalse fun same => by cases same
  | (k, x) :: a, (l, y) :: b =>
    match decEq x y, decEqMembers a b with
    | isTrue head, isTrue tail =>
      decidable_of_iff (k = l) ⟨fun name => by rw [name, head, tail],
        fun same => congrArg Prod.fst (List.cons.inj same).1⟩
    | isFalse other, _ => isFalse fun same => other (congrArg Prod.snd (List.cons.inj same).1)
    | _, isFalse other => isFalse fun same => other (List.cons.inj same).2

end

instance : DecidableEq JsonValue := decEq

/-- `value[name]`, of a name that arrays and texts do not have. -/
def get (value : JsonValue) (name : JsString) : Option JsonValue :=
  match value with
  | object members => (Record.ofEntries members).get? name
  | _ => none

/-- `Object.entries` of an object, which may be an array. -/
def entries : JsonValue → List (JsString × JsonValue)
  | object members => (Record.ofEntries members).ownEntries
  | array items => items.mapIdx fun i item => (JsString.decimal i, item)
  | _ => []

/-- The entries of a record that was written and read back. -/
theorem entries_object {α : Type} (r : Record α) (f : α → JsonValue) :
    entries (object (r.ownEntries.map fun e => (e.1, f e.2))) =
      r.ownEntries.map fun e => (e.1, f e.2) := by
  rw [← Record.ownEntries_map r fun _ => f]
  exact Record.ownEntries_ofEntries_ownEntries _

/-- An object literal as `JSON.stringify` writes it: members that are undefined are left out. -/
def fields (members : List (JsString × Option JsonValue)) : JsonValue :=
  object (members.filterMap fun m => m.2.map fun value => (m.1, value))

theorem get_fields {members : List (JsString × Option JsonValue)}
    (distinct : (members.map Prod.fst).Nodup) {name : JsString} {value : Option JsonValue}
    (listed : (name, value) ∈ members) : (fields members).get name = value := by
  have names : ((members.filterMap fun m => m.2.map fun value => (m.1, value)).map
      Prod.fst).Sublist (members.map Prod.fst) := by
    clear distinct listed
    induction members with
    | nil => exact .slnil
    | cons m members ih =>
      obtain ⟨name, value⟩ := m
      cases value with
      | none => exact ih.cons name
      | some value => exact ih.cons_cons name
  refine Option.ext fun found => ?_
  rw [fields, get, Record.get?_ofEntries (names.nodup distinct), List.mem_filterMap]
  constructor
  · rintro ⟨⟨name', value'⟩, inside, same⟩
    obtain ⟨written, rfl, same⟩ := Option.map_eq_some_iff.mp same
    cases same
    exact congrArg Prod.snd (List.inj_on_of_nodup_map distinct listed inside rfl)
  · rintro rfl
    exact ⟨_, listed, rfl⟩

/-- `typeof value === "string"`. -/
def asString : JsonValue → Option JsString
  | string value => some value
  | _ => none

/-- `Array.isArray`. -/
def asArray : JsonValue → Option (List JsonValue)
  | array items => some items
  | _ => none

/-- `typeof value === "boolean"`. -/
def asBoolean : JsonValue → Option Bool
  | boolean value => some value
  | _ => none

/-- A number that is finite. -/
def asNumber : JsonValue → Option ℚ
  | number (.finite value) => some value
  | _ => none

/-- An object that is no array. -/
def isRecord : JsonValue → Bool
  | object _ => true
  | _ => false

/-- The number of a rational. -/
def rational (value : ℚ) : JsonValue := number (.finite value)

end JsonValue

end Takode
