import Takode.Todos.Texts

/-!
# The to-do list and its changes

`todo-store.ts`. A change works on a draft of the state: it gives the state that is to be saved,
or fails. The item or category that it returns is the one in that state.
-/

namespace Takode.Todos

open JsString

/-- What the host's locale decides. -/
structure Locale where
  toLocaleLowerCase : JsString → JsString
  localeCompare : JsString → JsString → Ordering

inductive TodoStatus
  | todo
  | doing
  | done
deriving DecidableEq

/-- Who makes a change, and when. -/
structure TodoMutationProvenance where
  actor : JsonValue
  authorization : JsonValue
  at_ : ℚ
  source : Option JsString

def TodoMutationProvenance.json (provenance : TodoMutationProvenance) : JsonValue :=
  .fields [(js "actor", some provenance.actor),
    (js "authorization", some provenance.authorization),
    (js "at", some (.number (.finite provenance.at_))),
    (js "source", provenance.source.map .string)]

structure TodoCategory where
  id : JsString
  name : JsString
  createdAt : ℚ
  updatedAt : ℚ
  archivedAt : Option ℚ
  createdBy : JsonValue
  lastModifiedBy : JsonValue

structure TodoItem where
  id : JsString
  markdown : JsString
  rank : ℚ
  categoryId : JsString
  status : TodoStatus
  createdAt : ℚ
  updatedAt : ℚ
  statusChangedAt : ℚ
  completedAt : Option ℚ
  archivedAt : Option ℚ
  questIds : Option (List JsString)
  due : Option JsString
  createdBy : JsonValue
  lastModifiedBy : JsonValue

structure TodoState where
  revision : Nat
  updatedAt : ℚ
  nextItemId : Nat
  nextCategoryId : Nat
  categories : List TodoCategory
  items : List TodoItem

def INBOX_ID : JsString := js "cat-inbox"
def RANK_STEP : Nat := 1024

def bootstrapProvenance (now : ℚ) : TodoMutationProvenance where
  actor := .fields [(js "kind", some (.string (js "system"))),
    (js "label", some (.string (js "Takode")))]
  authorization := .fields [(js "kind", some (.string (js "bootstrap")))]
  at_ := now
  source := none

def emptyState (now : ℚ) : TodoState where
  revision := 0
  updatedAt := now
  nextItemId := 1
  nextCategoryId := 1
  categories := [⟨INBOX_ID, js "Inbox", now, now, none, (bootstrapProvenance now).json,
    (bootstrapProvenance now).json⟩]
  items := []

/-- `!!time`. -/
def isTime (time : Option ℚ) : Bool := time.any (· ≠ 0)

/-- A text that is there and not empty. -/
def given (text : Option JsString) : Option JsString := text.filter fun s => !s.isEmpty

def normalizeStatus (value : Option JsonValue) : Except TodoStoreError TodoStatus :=
  if isBlank value then .ok .todo
  else
    match value.bind (·.asString) with
    | some text =>
      if text = js "todo" then .ok .todo
      else if text = js "doing" then .ok .doing
      else if text = js "done" then .ok .done
      else .error ⟨js "Status must be todo, doing, or done", .invalid⟩
    | none => .error ⟨js "Status must be todo, doing, or done", .invalid⟩

/-- The list that an item is ordered in, within its category. -/
inductive Place
  | archived
  | done
  | active
deriving DecidableEq

def orderSection (item : TodoItem) : JsString × Place :=
  (item.categoryId,
    if isTime item.archivedAt then .archived else if item.status = .done then .done else .active)

structure TodoRankSnapshot where
  id : JsString
  rank : ℚ
deriving DecidableEq

/-- The `previous` of an undo. Its status is not `done`: `doing` tells which of the others it is. -/
structure PreviousSnapshot where
  doing : Bool
  categoryId : JsString
  rank : ℚ
  sectionRanks : List TodoRankSnapshot
deriving DecidableEq

def PreviousSnapshot.status (previous : PreviousSnapshot) : TodoStatus :=
  if previous.doing then .doing else .todo

structure CompletedSnapshot where
  categoryId : JsString
  rank : ℚ
  updatedAt : ℚ
  completedAt : ℚ
  archivedAt : Option ℚ
  activeSectionRanks : List TodoRankSnapshot
deriving DecidableEq

structure TodoCompletionUndoSnapshot where
  itemId : JsString
  previous : PreviousSnapshot
  completed : CompletedSnapshot
deriving DecidableEq

structure TodoItemCreateInput extends TodoItemEditInput where
  categoryId : Option JsString
  status : Option JsonValue
  due : Option JsonValue
  beforeItemId : Option JsString
  afterItemId : Option JsString

structure TodoItemMoveInput where
  categoryId : Option JsString
  beforeItemId : Option JsString
  afterItemId : Option JsString

namespace TodoState

variable (state : TodoState)

/-- The draft after the item of this id was changed. -/
def updateItem (itemId : JsString) (change : TodoItem → TodoItem) : TodoState :=
  { state with
    items := state.items.map fun item => if item.id = itemId then change item else item }

def updateCategory (categoryId : JsString) (change : TodoCategory → TodoCategory) : TodoState :=
  { state with
    categories := state.categories.map fun category =>
      if category.id = categoryId then change category else category }

def touchState (now : ℚ) : TodoState :=
  { state with revision := state.revision + 1, updatedAt := now }

def recordItemChange (itemId : JsString) (provenance : TodoMutationProvenance) : TodoState :=
  (state.updateItem itemId fun item =>
    { item with updatedAt := provenance.at_, lastModifiedBy := provenance.json }).touchState
      provenance.at_

def categoryById (categoryId : JsString) (allowArchived : Bool) :
    Except TodoStoreError TodoCategory :=
  match state.categories.find? fun category => category.id = categoryId with
  | none => .error ⟨js "Category not found: " ++ categoryId, .notFound⟩
  | some category =>
    if isTime category.archivedAt && !allowArchived then
      .error ⟨js "Category is archived: " ++ categoryId, .conflict⟩
    else .ok category

def itemById (itemId : JsString) : Except TodoStoreError TodoItem :=
  match state.items.find? fun item => item.id = itemId with
  | none => .error ⟨js "To-do item not found: " ++ itemId, .notFound⟩
  | some item => .ok item

/-- The item that a position refers to, if it refers to one. -/
def referenced (referenceId : Option JsString) : Except TodoStoreError (Option TodoItem) :=
  match referenceId with
  | none => .ok none
  | some referenceId => (state.itemById referenceId).map some

/-- Each item of the list gets the rank of its index. -/
def rankItems (ordered : List TodoItem) : TodoState :=
  { state with
    items := state.items.map fun item =>
      match ordered.findIdx? fun listed => listed.id = item.id with
      | some index => { item with rank := ((index + 1) * RANK_STEP : Nat) }
      | none => item }

end TodoState

section Changes

variable (locale : Locale) (state : TodoState)

def ensureUniqueCategoryName (name : JsString) (excludingId : Option JsString) :
    Except TodoStoreError Unit :=
  refuse (state.categories.any fun category => some category.id ≠ excludingId &&
      locale.toLocaleLowerCase category.name = locale.toLocaleLowerCase name) .conflict
    (js "A category named \"" ++ name ++ js "\" already exists")

def compareRank (a b : TodoItem) : Ordering :=
  ((compare a.rank b.rank).then (compare a.createdAt b.createdAt)).then
    (locale.localeCompare a.id b.id)

def sectionItems (place : JsString × Place) : List TodoItem :=
  (state.items.filter fun item => orderSection item = place).insertionSort
    fun a b => (compareRank locale a b).isLE = true

def sectionRanks (place : JsString × Place) : List TodoRankSnapshot :=
  (sectionItems locale state place).map fun item => ⟨item.id, item.rank⟩

def reindexSection (place : JsString × Place) : TodoState :=
  state.rankItems (sectionItems locale state place)

def placeItem (item : TodoItem) (beforeItemId afterItemId : Option JsString) :
    Except TodoStoreError TodoState := do
  let before := given beforeItemId
  let after := given afterItemId
  refuse (before.isSome && after.isSome) .invalid (js "Use beforeItemId or afterItemId, not both")
  refuse ((before.isSome || after.isSome) && (isTime item.archivedAt || item.status = .done))
    .conflict (js "Only active Todo/Doing items can be manually reordered")
  let ordered := (sectionItems locale state (orderSection item)).filter fun candidate =>
    candidate.id ≠ item.id
  match before <|> after with
  | none => return state.rankItems (ordered ++ [item])
  | some referenceId =>
    refuse (referenceId = item.id) .invalid
      (js "An item cannot be positioned relative to itself")
    let reference ← state.itemById referenceId
    refuse (orderSection reference ≠ orderSection item) .conflict
      (js "Ordering references must be active items in the target category")
    match ordered.findIdx? fun candidate => candidate.id = reference.id with
    | none => .error ⟨js "Ordering reference not found: " ++ reference.id, .notFound⟩
    | some referenceIndex =>
      let index := referenceIndex + if after.isSome then 1 else 0
      return state.rankItems (ordered.take index ++ item :: ordered.drop index)

/-- An item that came into another section than it was in before goes to the end of it. -/
def resettle (previous item : TodoItem) : Except TodoStoreError TodoState :=
  if orderSection previous ≠ orderSection item then
    placeItem locale (reindexSection locale state (orderSection previous)) item none none
  else .ok state

/-- The category that `resolveCreateCategory` and `moveItemInState` take. -/
def resolveCategory (categoryId beforeItemId afterItemId : Option JsString) (fallback : JsString) :
    Except TodoStoreError JsString := do
  let before := given beforeItemId
  let after := given afterItemId
  refuse (before.isSome && after.isSome) .invalid (js "Use beforeItemId or afterItemId, not both")
  let reference ← state.referenced (before <|> after)
  let categoryId :=
    (given (categoryId.map trim) <|> given (reference.map (·.categoryId))).getD fallback
  let _ ← state.categoryById categoryId false
  refuse (reference.any fun item => item.categoryId ≠ categoryId) .conflict
    (js "Ordering reference is not in the target category")
  return categoryId

end Changes

end Takode.Todos
