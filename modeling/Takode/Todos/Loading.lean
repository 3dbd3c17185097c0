import Takode.Todos.Changes

/-!
# The file of the to-do list

`normalizeLoadedState` reads a state back from its JSON. What is done with a file of schema 1 is a
parameter: the store never writes one.
-/

namespace Takode.Todos

open JsString

def TodoStatus.text : TodoStatus → JsString
  | .todo => js "todo"
  | .doing => js "doing"
  | .done => js "done"

/-- The JSON of a number. -/
def JSON.number (value : ℚ) : JsonValue := .number (.finite value)

def TodoCategory.members (category : TodoCategory) : List (JsString × Option JsonValue) :=
  [(js "id", some (.string category.id)),
    (js "name", some (.string category.name)),
    (js "createdAt", some (JSON.number category.createdAt)),
    (js "updatedAt", some (JSON.number category.updatedAt)),
    (js "archivedAt", category.archivedAt.map JSON.number),
    (js "createdBy", some category.createdBy),
    (js "lastModifiedBy", some category.lastModifiedBy)]

def TodoCategory.json (category : TodoCategory) : JsonValue := .fields category.members

def TodoItem.members (item : TodoItem) : List (JsString × Option JsonValue) :=
  [(js "id", some (.string item.id)),
    (js "markdown", some (.string item.markdown)),
    (js "rank", some (JSON.number item.rank)),
    (js "categoryId", some (.string item.categoryId)),
    (js "status", some (.string item.status.text)),
    (js "createdAt", some (JSON.number item.createdAt)),
    (js "updatedAt", some (JSON.number item.updatedAt)),
    (js "statusChangedAt", some (JSON.number item.statusChangedAt)),
    (js "completedAt", item.completedAt.map JSON.number),
    (js "archivedAt", item.archivedAt.map JSON.number),
    (js "questIds", item.questIds.map fun ids => .array (ids.map .string)),
    (js "due", item.due.map .string),
    (js "createdBy", some item.createdBy),
    (js "lastModifiedBy", some item.lastModifiedBy)]

def TodoItem.json (item : TodoItem) : JsonValue := .fields item.members

def TodoState.members (state : TodoState) : List (JsString × Option JsonValue) :=
  [(js "schemaVersion", some (JSON.number 3)),
    (js "revision", some (JSON.number state.revision)),
    (js "updatedAt", some (JSON.number state.updatedAt)),
    (js "nextItemId", some (JSON.number state.nextItemId)),
    (js "nextCategoryId", some (JSON.number state.nextCategoryId)),
    (js "categories", some (.array (state.categories.map (·.json)))),
    (js "items", some (.array (state.items.map (·.json))))]

/-- `JSON.parse(JSON.stringify(state))`. -/
def TodoState.json (state : TodoState) : JsonValue := .fields state.members

/-- An error that a stored file is wrong. -/
def corrupt {α : Type} (message : JsString) : Except TodoStoreError α :=
  .error ⟨message, .corruptStore⟩

def requireObject (value : JsonValue) (label : JsString) : Except TodoStoreError Unit :=
  match value with
  | .object _ => .ok ()
  | _ => corrupt (label ++ js " must be an object")

def requireArray (value : Option JsonValue) (label : JsString) :
    Except TodoStoreError (List JsonValue) :=
  match value.bind (·.asArray) with
  | some list => .ok list
  | none => corrupt (label ++ js " must be an array")

def finiteNumber : JsonValue → Option ℚ
  | .number (.finite value) => some value
  | _ => none

def requireFiniteNumber (value : Option JsonValue) (label : JsString) :
    Except TodoStoreError ℚ :=
  match value.bind finiteNumber with
  | some number => .ok number
  | none => corrupt (label ++ js " must be a finite number")

/-- A counter of the store, which is a whole number. -/
def requireCounter (value : Option JsonValue) (label : JsString) : Except TodoStoreError Nat :=
  (requireFiniteNumber value label).map fun number => ⌊number⌋.toNat

/-- A member that is there and not null. -/
def present (value : JsonValue) (name : JsString) : Option JsonValue :=
  match value.get name with
  | some .null => none
  | member => member

def requireOptionalNumber (value : JsonValue) (name label : JsString) :
    Except TodoStoreError (Option ℚ) :=
  match present value name with
  | none => .ok none
  | some number => (requireFiniteNumber (some number) label).map some

/-- The text of a member, if it is one that is not empty. -/
def filledText (value : JsonValue) (name : JsString) : Option JsString :=
  given ((value.get name).bind (·.asString))

def requireText (text : Option JsString) (message : JsString) : Except TodoStoreError JsString :=
  match text with
  | some text => .ok text
  | none => corrupt message

/-- What a category of the file has; its `archivedAt` and who changed it are not looked at. -/
def loadCategory (index : Nat) (categoryIds : List JsString) (value : JsonValue) :
    Except TodoStoreError TodoCategory := do
  let label := js "categories[" ++ decimal index ++ js "]"
  requireObject value label
  let id ← requireText ((filledText value (js "id")).filter fun id => !categoryIds.contains id)
    (label ++ js ".id is invalid or duplicated")
  let name ← requireText (filledText value (js "name"))
    (label ++ js ".name must be a non-empty string")
  let createdAt ← requireFiniteNumber (value.get (js "createdAt")) (label ++ js ".createdAt")
  let updatedAt ← requireFiniteNumber (value.get (js "updatedAt")) (label ++ js ".updatedAt")
  return {
    id, name, createdAt, updatedAt
    archivedAt := (value.get (js "archivedAt")).bind finiteNumber
    createdBy := (value.get (js "createdBy")).getD .null
    lastModifiedBy := (value.get (js "lastModifiedBy")).getD .null }

def requireStatus (value : JsonValue) (label : JsString) : Except TodoStoreError TodoStatus :=
  let text := (value.get (js "status")).bind (·.asString)
  match [TodoStatus.todo, .doing, .done].find? fun status => text = some status.text with
  | some status => .ok status
  | none => corrupt (label ++ js ".status is invalid")

def requireDue (value : JsonValue) (label : JsString) : Except TodoStoreError (Option JsString) :=
  match present value (js "due") with
  | none => .ok none
  | some due =>
    match due.asString.filter isValidTodoDue with
    | some due => .ok (some due)
    | none => corrupt (label ++ js ".due is invalid")

/-- The quest ids of a stored item, which are the texts of the list that passed the check. -/
def requireQuestIds (value : JsonValue) (label : JsString) :
    Except TodoStoreError (Option (List JsString)) :=
  match present value (js "questIds") with
  | none => .ok none
  | some questIds =>
    match normalizeQuestIds (some questIds) (label ++ js ".questIds") with
    | .ok _ => .ok ((questIds.asArray).map fun ids => ids.filterMap (·.asString))
    | .error error => corrupt (label ++ js ".questIds is invalid: " ++ error.message)

def loadItem (categoryIds : List JsString) (index : Nat) (itemIds : List JsString)
    (value : JsonValue) : Except TodoStoreError TodoItem := do
  let label := js "items[" ++ decimal index ++ js "]"
  requireObject value label
  let id ← requireText ((filledText value (js "id")).filter fun id => !itemIds.contains id)
    (label ++ js ".id is invalid or duplicated")
  let categoryId ← requireText
    (((value.get (js "categoryId")).bind (·.asString)).filter categoryIds.contains)
    (label ++ js " references an unknown category")
  let status ← requireStatus value label
  let markdown ← normalizeMarkdown (value.get (js "markdown"))
  let rank ← requireFiniteNumber (value.get (js "rank")) (label ++ js ".rank")
  let createdAt ← requireFiniteNumber (value.get (js "createdAt")) (label ++ js ".createdAt")
  let updatedAt ← requireFiniteNumber (value.get (js "updatedAt")) (label ++ js ".updatedAt")
  let statusChangedAt ←
    requireFiniteNumber (value.get (js "statusChangedAt")) (label ++ js ".statusChangedAt")
  let completedAt ← requireOptionalNumber value (js "completedAt") (label ++ js ".completedAt")
  let archivedAt ← requireOptionalNumber value (js "archivedAt") (label ++ js ".archivedAt")
  let due ← requireDue value label
  let questIds ← requireQuestIds value label
  return {
    id, markdown, rank, categoryId, status, createdAt, updatedAt, statusChangedAt, completedAt
    archivedAt, questIds, due
    createdBy := (value.get (js "createdBy")).getD .null
    lastModifiedBy := (value.get (js "lastModifiedBy")).getD .null }

/-- The loop over a list of records, which passes the index and the ids that it has seen. -/
def loadEach {α : Type} (load : Nat → List JsString → JsonValue → Except TodoStoreError α)
    (id : α → JsString) (index : Nat) (seen : List JsString) :
    List JsonValue → Except TodoStoreError (List α)
  | [] => .ok []
  | value :: rest => do
    let loaded ← load index seen value
    let others ← loadEach load id (index + 1) (id loaded :: seen) rest
    return loaded :: others

def normalizeLoadedState (migrateV1State : JsonValue → Except TodoStoreError TodoState)
    (value : JsonValue) : Except TodoStoreError TodoState := do
  requireObject value (js "To-do store")
  let schemaVersion := (value.get (js "schemaVersion")).bind finiteNumber
  if schemaVersion = some 1 then migrateV1State value
  else
    refuse (schemaVersion ≠ some 2 && schemaVersion ≠ some 3) .unsupportedSchema
      (js "Unsupported to-do schema version")
    let revision ← requireCounter (value.get (js "revision")) (js "revision")
    let updatedAt ← requireFiniteNumber (value.get (js "updatedAt")) (js "updatedAt")
    let nextItemId ← requireCounter (value.get (js "nextItemId")) (js "nextItemId")
    let nextCategoryId ← requireCounter (value.get (js "nextCategoryId")) (js "nextCategoryId")
    let rawCategories ← requireArray (value.get (js "categories")) (js "categories")
    let rawItems ← requireArray (value.get (js "items")) (js "items")
    let categories ← loadEach loadCategory (·.id) 0 [] rawCategories
    let categoryIds := categories.map (·.id)
    refuse (!categoryIds.contains INBOX_ID) .corruptStore
      (js "To-do store is missing the Inbox category")
    let items ← loadEach (loadItem categoryIds) (·.id) 0 [] rawItems
    return { revision, updatedAt, nextItemId, nextCategoryId, categories, items }

section RoundTrip

variable {value : JsonValue} {name : JsString}

theorem requireOptionalNumber_get {time : Option ℚ}
    (found : value.get name = time.map JSON.number) (label : JsString) :
    requireOptionalNumber value name label = .ok time := by
  rw [requireOptionalNumber, present, found]
  cases time <;> rfl

theorem requireFiniteNumber_number (value : ℚ) (label : JsString) :
    requireFiniteNumber (some (JSON.number value)) label = .ok value := rfl

theorem requireCounter_number (n : Nat) (label : JsString) :
    requireCounter (some (JSON.number n)) label = .ok n := by
  show Except.ok ⌊(n : ℚ)⌋.toNat = Except.ok n
  rw [Int.floor_natCast, Int.toNat_natCast]

theorem requireStatus_get {status : TodoStatus}
    (found : value.get (js "status") = some (.string status.text)) (label : JsString) :
    requireStatus value label = .ok status := by
  rw [requireStatus, found]
  cases status <;> rfl

theorem requireDue_get {due : Option JsString}
    (found : value.get (js "due") = due.map .string)
    (valid : ∀ text, due = some text → isValidTodoDue text = true) (label : JsString) :
    requireDue value label = .ok due := by
  rw [requireDue, present, found]
  cases due with
  | none => rfl
  | some text =>
    have passed : (some text).filter isValidTodoDue = some text :=
      Option.filter_eq_some_iff.mpr ⟨rfl, valid text rfl⟩
    simp only [Option.map_some, JsonValue.asString, passed]

theorem requireQuestIds_get {questIds : Option (List JsString)}
    (found : value.get (js "questIds") = questIds.map fun ids => .array (ids.map .string))
    (valid : ∀ ids, questIds = some ids → ∀ id ∈ ids, trim id = id ∧ isQuestId id = true)
    (label : JsString) : requireQuestIds value label = .ok questIds := by
  rw [requireQuestIds, present, found]
  cases questIds with
  | none => rfl
  | some ids =>
    have same : (ids.map JsonValue.string).map (fun entry => ((entry.asString).map trim).getD []) =
        ids := by
      rw [List.map_map]
      refine (List.map_congr_left fun id inside => ?_).trans (List.map_id _)
      exact (valid ids rfl id inside).1
    have read : (ids.map JsonValue.string).filterMap (·.asString) = ids := by
      rw [List.filterMap_map]
      exact List.filterMap_some
    have passed : ids.find? (fun id => !isQuestId id) = none := by
      rw [List.find?_eq_none]
      intro id inside
      simp [(valid ids rfl id inside).2]
    simp only [Option.map_some, normalizeQuestIds, same, passed, JsonValue.asArray, read]

/-- An item that the loader takes as it is. -/
structure TodoItem.Stored (categoryIds : List JsString) (item : TodoItem) : Prop where
  id : item.id ≠ []
  category : item.categoryId ∈ categoryIds
  markdown : normalizeMarkdown (some (.string item.markdown)) = .ok item.markdown
  due : ∀ due, item.due = some due → isValidTodoDue due = true
  questIds : ∀ ids, item.questIds = some ids → ∀ id ∈ ids, trim id = id ∧ isQuestId id = true

theorem filledText_get {text : JsString} (found : value.get name = some (.string text))
    (filled : text ≠ []) : filledText value name = some text := by
  rw [filledText, found]
  simp [given, JsonValue.asString, filled]

theorem TodoItem.members_nodup (item : TodoItem) : (item.members.map Prod.fst).Nodup := by
  show [js "id", js "markdown", js "rank", js "categoryId", js "status", js "createdAt",
    js "updatedAt", js "statusChangedAt", js "completedAt", js "archivedAt", js "questIds",
    js "due", js "createdBy", js "lastModifiedBy"].Nodup
  decide +kernel

theorem loadItem_json {categoryIds seen : List JsString} {item : TodoItem}
    (stored : item.Stored categoryIds) (index : Nat) (fresh : item.id ∉ seen) :
    loadItem categoryIds index seen item.json = .ok item := by
  have reads : ∀ m ∈ item.members, item.json.get m.1 = m.2 := fun m listed =>
    JsonValue.get_fields item.members_nodup listed
  simp only [TodoItem.members, List.forall_mem_cons] at reads
  obtain ⟨id, markdown, rank, categoryId, status, createdAt, updatedAt, statusChangedAt,
    completedAt, archivedAt, questIds, due, createdBy, lastModifiedBy, -⟩ := reads
  have object (label : JsString) : requireObject item.json label = .ok () := rfl
  have named : (filledText item.json (js "id")).filter (fun id => !seen.contains id) =
      some item.id := by
    rw [filledText_get id stored.id]
    simp [fresh]
  have known : ((item.json.get (js "categoryId")).bind (·.asString)).filter categoryIds.contains =
      some item.categoryId := by
    rw [categoryId]
    simp [JsonValue.asString, stored.category]
  simp only [loadItem, object, named, known, requireText, requireStatus_get status, markdown,
    stored.markdown, rank, createdAt, updatedAt, statusChangedAt,
    requireOptionalNumber_get completedAt, requireOptionalNumber_get archivedAt,
    requireDue_get due stored.due, requireQuestIds_get questIds stored.questIds, createdBy,
    lastModifiedBy, requireFiniteNumber_number, Option.getD_some, bind, Except.bind, pure,
    Except.pure]

theorem TodoCategory.members_nodup (category : TodoCategory) :
    (category.members.map Prod.fst).Nodup := by
  show [js "id", js "name", js "createdAt", js "updatedAt", js "archivedAt", js "createdBy",
    js "lastModifiedBy"].Nodup
  decide +kernel

theorem loadCategory_json {seen : List JsString} {category : TodoCategory}
    (filled : category.id ≠ [] ∧ category.name ≠ []) (index : Nat) (fresh : category.id ∉ seen) :
    loadCategory index seen category.json = .ok category := by
  have reads : ∀ m ∈ category.members, category.json.get m.1 = m.2 := fun m listed =>
    JsonValue.get_fields category.members_nodup listed
  simp only [TodoCategory.members, List.forall_mem_cons] at reads
  obtain ⟨id, name, createdAt, updatedAt, archivedAt, createdBy, lastModifiedBy, -⟩ := reads
  have object (label : JsString) : requireObject category.json label = .ok () := rfl
  have named : (filledText category.json (js "id")).filter (fun id => !seen.contains id) =
      some category.id := by
    rw [filledText_get id filled.1]
    simp [fresh]
  have archived : (category.archivedAt.map JSON.number).bind finiteNumber =
      category.archivedAt := by
    cases category.archivedAt <;> rfl
  simp only [loadCategory, object, named, filledText_get name filled.2, requireText, createdAt,
    updatedAt, archivedAt, archived, createdBy, lastModifiedBy, requireFiniteNumber_number,
    Option.getD_some, bind, Except.bind, pure, Except.pure]

/-- A list whose ids are distinct is read back, if each of its records is. -/
theorem loadEach_map {α : Type} {id : α → JsString}
    (load : Nat → List JsString → JsonValue → Except TodoStoreError α) (json : α → JsonValue) :
    ∀ (list : List α) (index : Nat) (seen : List JsString), (list.map id ++ seen).Nodup →
      (∀ a ∈ list, ∀ index seen, id a ∉ seen → load index seen (json a) = .ok a) →
      loadEach load id index seen (list.map json) = .ok list
  | [], _, _, _, _ => rfl
  | a :: list, index, seen, distinct, reads => by
    rw [List.map_cons, List.cons_append, List.nodup_cons, List.mem_append, not_or] at distinct
    have rest := loadEach_map load json list (index + 1) (id a :: seen)
      (List.nodup_middle.mpr (List.nodup_cons.mpr
        ⟨List.not_mem_append distinct.1.1 distinct.1.2, distinct.2⟩))
      fun b inside => reads b (List.mem_cons_of_mem _ inside)
    rw [List.map_cons, loadEach, reads a List.mem_cons_self index seen distinct.1.2]
    show (loadEach load id (index + 1) (id a :: seen) (list.map json) >>= _) = _
    rw [rest]
    rfl

theorem TodoState.members_nodup (state : TodoState) : (state.members.map Prod.fst).Nodup := by
  show [js "schemaVersion", js "revision", js "updatedAt", js "nextItemId", js "nextCategoryId",
    js "categories", js "items"].Nodup
  decide +kernel

/-- What the loader checks of a state. -/
structure TodoState.Loadable (state : TodoState) : Prop where
  categoryIds : (state.categories.map (·.id)).Nodup
  categories : ∀ category ∈ state.categories, category.id ≠ [] ∧ category.name ≠ []
  inbox : INBOX_ID ∈ state.categories.map (·.id)
  itemIds : (state.items.map (·.id)).Nodup
  items : ∀ item ∈ state.items, item.Stored (state.categories.map (·.id))

theorem TodoState.Loadable.normalizeLoadedState_json {state : TodoState}
    (loadable : state.Loadable) (migrateV1State : JsonValue → Except TodoStoreError TodoState) :
    normalizeLoadedState migrateV1State state.json = .ok state := by
  have reads : ∀ m ∈ state.members, state.json.get m.1 = m.2 := fun m listed =>
    JsonValue.get_fields state.members_nodup listed
  simp only [TodoState.members, List.forall_mem_cons] at reads
  obtain ⟨schemaVersion, revision, updatedAt, nextItemId, nextCategoryId, categories, items, -⟩ :=
    reads
  have object (label : JsString) : requireObject state.json label = .ok () := rfl
  have version : (some (JSON.number 3)).bind finiteNumber = some 3 := rfl
  have notOne : (some 3 : Option ℚ) ≠ some 1 := by decide
  have current : (decide ((some 3 : Option ℚ) ≠ some 2) && decide ((some 3 : Option ℚ) ≠ some 3)) =
      false := by decide
  have loadedCategories := loadEach_map loadCategory TodoCategory.json
    state.categories 0 [] (by simpa using loadable.categoryIds)
    fun category inside index seen => loadCategory_json (loadable.categories category inside) index
  have loadedItems := loadEach_map (loadItem (state.categories.map (·.id))) TodoItem.json
    state.items 0 [] (by simpa using loadable.itemIds)
    fun item inside index seen => loadItem_json (loadable.items item inside) index
  have inbox : (state.categories.map (·.id)).contains INBOX_ID = true := by
    simpa using loadable.inbox
  simp only [normalizeLoadedState, object, schemaVersion, version, if_neg notOne, current, revision,
    requireCounter_number, updatedAt, nextItemId, nextCategoryId, categories, items, requireArray,
    requireFiniteNumber_number, JsonValue.asArray, Option.bind_some, loadedCategories, inbox,
    loadedItems, refuse, bind, Except.bind, pure, Except.pure, Bool.not_true, Bool.false_eq_true,
    if_false]

end RoundTrip

end Takode.Todos
