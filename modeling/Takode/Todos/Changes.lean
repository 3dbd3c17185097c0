import Takode.Todos.Store

/-!
# The changes of a to-do list

The operations of `TodoStore` that go through `mutate`, and what they do to a state.
-/

namespace Takode.Todos

open JsString

section Items

variable (locale : Locale) (state : TodoState)

def createItemInState (input : TodoItemCreateInput) (provenance : TodoMutationProvenance) :
    Except TodoStoreError TodoState := do
  let now := provenance.at_
  let categoryId ←
    resolveCategory state input.categoryId input.beforeItemId input.afterItemId INBOX_ID
  let status ← normalizeStatus input.status
  let due ← normalizeDue input.due
  let markdown ← resolveCreateMarkdown input.toTodoItemEditInput
  let item : TodoItem :=
    { id := js "td-" ++ decimal state.nextItemId
      markdown
      rank := 0
      categoryId
      status
      createdAt := now
      updatedAt := now
      statusChangedAt := now
      completedAt := if status = .done then some now else none
      archivedAt := none
      questIds := none
      due
      createdBy := provenance.json
      lastModifiedBy := provenance.json }
  let state :=
    { state with nextItemId := state.nextItemId + 1, items := state.items ++ [item] }
  let state ← placeItem locale state item input.beforeItemId input.afterItemId
  return state.touchState now

def editItemInState (itemId : JsString) (input : TodoItemEditInput)
    (provenance : TodoMutationProvenance) : Except TodoStoreError TodoState := do
  let item ← state.itemById itemId
  let markdown ← resolveEditMarkdown item.markdown input
  if markdown = item.markdown then return state
  return (state.updateItem itemId fun item => { item with markdown }).recordItemChange itemId
    provenance

def linkItemQuestsInState (itemId : JsString) (input : TodoItemLinkInput)
    (provenance : TodoMutationProvenance) : Except TodoStoreError TodoState := do
  let item ← state.itemById itemId
  let (addQuestIds, removeQuestIds) ← normalizeLinkInput input
  let current := item.questIds.getD []
  let next := addQuestIds.foldl (fun next id => if next.contains id then next else next ++ [id])
    (current.filter fun id => !removeQuestIds.contains id)
  if next = current then return state
  let questIds := if next.isEmpty then none else some next
  return (state.updateItem itemId fun item => { item with questIds }).recordItemChange itemId
    provenance

def setItemDue (itemId : JsString) (dueValue : Option JsonValue)
    (provenance : TodoMutationProvenance) : Except TodoStoreError TodoState := do
  let item ← state.itemById itemId
  let due ← normalizeDue dueValue
  if due = item.due then return state
  return (state.updateItem itemId fun item => { item with due }).recordItemChange itemId provenance

def setItemStatusInState (itemId : JsString) (statusValue : Option JsonValue)
    (provenance : TodoMutationProvenance) : Except TodoStoreError TodoState := do
  let previous ← state.itemById itemId
  let status ← normalizeStatus statusValue
  if previous.status = status then return state
  let change (item : TodoItem) : TodoItem :=
    { item with
      status
      statusChangedAt := provenance.at_
      completedAt := if status = .done then some provenance.at_ else none }
  let state ← resettle locale (state.updateItem itemId change) previous (change previous)
  return state.recordItemChange itemId provenance

/-- The new state, and what `undoItemCompletion` needs to take a completion back. -/
def setItemStatusWithCompletionUndo (itemId : JsString) (statusValue : Option JsonValue)
    (provenance : TodoMutationProvenance) :
    Except TodoStoreError (TodoState × Option TodoCompletionUndoSnapshot) := do
  let before ← state.itemById itemId
  let status ← normalizeStatus statusValue
  let canUndoCompletion :=
    status = .done && before.status ≠ .done && !isTime before.archivedAt
  let next ← setItemStatusInState locale state itemId statusValue provenance
  let item ← next.itemById itemId
  match canUndoCompletion, item.completedAt.filter (· ≠ 0) with
  | true, some completedAt =>
    return (next, some
      { itemId
        previous :=
          { doing := before.status = .doing
            categoryId := before.categoryId
            rank := before.rank
            sectionRanks := sectionRanks locale state (orderSection before) }
        completed :=
          { categoryId := item.categoryId
            rank := item.rank
            updatedAt := item.updatedAt
            completedAt
            archivedAt := item.archivedAt.filter (· ≠ 0)
            activeSectionRanks := sectionRanks locale next (orderSection before) } })
  | _, _ => return (next, none)

/-- The loop that gives the items of a section the ranks that they had. -/
def restoreRanks (place : JsString × Place) (state : TodoState) :
    List TodoRankSnapshot → Except TodoStoreError TodoState
  | [] => .ok state
  | previous :: rest => do
    let sectionItem ← state.itemById previous.id
    refuse (orderSection sectionItem ≠ place) .conflict
      (js "The original active ordering changed after completion; refresh before reopening this item")
    restoreRanks place
      (state.updateItem previous.id fun item => { item with rank := previous.rank }) rest

def undoItemCompletion (snapshot : TodoCompletionUndoSnapshot)
    (provenance : TodoMutationProvenance) : Except TodoStoreError TodoState := do
  let item ← state.itemById snapshot.itemId
  let expected := snapshot.completed
  refuse (item.status ≠ .done || item.categoryId ≠ expected.categoryId ||
      item.rank ≠ expected.rank || item.updatedAt ≠ expected.updatedAt ||
      item.completedAt ≠ some expected.completedAt || item.archivedAt ≠ expected.archivedAt)
    .conflict (js "This completion changed after it was created; refresh before reopening it")
  refuse (sectionRanks locale state (snapshot.previous.categoryId, .active) ≠
      expected.activeSectionRanks) .conflict
    (js "The original active ordering changed after completion; refresh before reopening this item")
  let _ ← state.categoryById snapshot.previous.categoryId false
  let change (item : TodoItem) : TodoItem :=
    { item with
      status := snapshot.previous.status
      categoryId := snapshot.previous.categoryId
      statusChangedAt := provenance.at_
      updatedAt := provenance.at_
      lastModifiedBy := provenance.json
      completedAt := none }
  let state ← restoreRanks (orderSection (change item))
    (state.updateItem snapshot.itemId change) snapshot.previous.sectionRanks
  return (state.updateItem snapshot.itemId fun item =>
    { item with rank := snapshot.previous.rank }).touchState provenance.at_

def moveItem (itemId : JsString) (input : TodoItemMoveInput)
    (provenance : TodoMutationProvenance) : Except TodoStoreError TodoState := do
  let previous ← state.itemById itemId
  let categoryId ←
    resolveCategory state input.categoryId input.beforeItemId input.afterItemId previous.categoryId
  let change (item : TodoItem) : TodoItem := { item with categoryId }
  let state := state.updateItem itemId change
  let state :=
    if orderSection previous ≠ orderSection (change previous) then
      reindexSection locale state (orderSection previous)
    else state
  let state ← placeItem locale state (change previous) input.beforeItemId input.afterItemId
  return state.recordItemChange itemId provenance

def setItemArchivedInState (itemId : JsString) (archived : Bool)
    (provenance : TodoMutationProvenance) : Except TodoStoreError TodoState := do
  let previous ← state.itemById itemId
  if archived = isTime previous.archivedAt then return state
  if !archived then
    let _ ← state.categoryById previous.categoryId false
  let change (item : TodoItem) : TodoItem :=
    { item with archivedAt := if archived then some provenance.at_ else none }
  let state ← resettle locale (state.updateItem itemId change) previous (change previous)
  return state.recordItemChange itemId provenance

end Items

section Categories

variable (locale : Locale) (state : TodoState)

def createCategoryInState (name : Option JsonValue) (provenance : TodoMutationProvenance) :
    Except TodoStoreError TodoState := do
  let name ← normalizeCategoryName name
  ensureUniqueCategoryName locale state name none
  let category : TodoCategory :=
    { id := js "cat-" ++ decimal state.nextCategoryId
      name
      createdAt := provenance.at_
      updatedAt := provenance.at_
      archivedAt := none
      createdBy := provenance.json
      lastModifiedBy := provenance.json }
  let state :=
    { state with
      nextCategoryId := state.nextCategoryId + 1
      categories := state.categories ++ [category] }
  return state.touchState provenance.at_

/-- The category of this id is changed, and touched. -/
def changeCategory (categoryId : JsString) (provenance : TodoMutationProvenance)
    (change : TodoCategory → TodoCategory) : TodoState :=
  (state.updateCategory categoryId fun category =>
    { change category with
      updatedAt := provenance.at_
      lastModifiedBy := provenance.json }).touchState provenance.at_

def renameCategory (categoryId : JsString) (nameValue : Option JsonValue)
    (provenance : TodoMutationProvenance) : Except TodoStoreError TodoState := do
  let _ ← state.categoryById categoryId false
  let name ← normalizeCategoryName nameValue
  ensureUniqueCategoryName locale state name (some categoryId)
  return changeCategory state categoryId provenance fun category => { category with name }

def archiveCategory (categoryId : JsString) (provenance : TodoMutationProvenance) :
    Except TodoStoreError TodoState := do
  refuse (categoryId = INBOX_ID) .conflict (js "Inbox cannot be archived")
  let _ ← state.categoryById categoryId false
  refuse (state.items.any fun item => item.categoryId = categoryId && !isTime item.archivedAt)
    .conflict (js "Move or archive active items before archiving this category")
  return changeCategory state categoryId provenance fun category =>
    { category with archivedAt := some provenance.at_ }

def restoreCategory (categoryId : JsString) (provenance : TodoMutationProvenance) :
    Except TodoStoreError TodoState := do
  let category ← state.categoryById categoryId true
  if !isTime category.archivedAt then return state
  return changeCategory state categoryId provenance fun category =>
    { category with archivedAt := none }

end Categories

/-- What a change is asked to do. -/
inductive Change
  | createItem (input : TodoItemCreateInput)
  | editItem (itemId : JsString) (input : TodoItemEditInput)
  | linkItemQuests (itemId : JsString) (input : TodoItemLinkInput)
  | setItemDue (itemId : JsString) (dueValue : Option JsonValue)
  | setItemStatus (itemId : JsString) (statusValue : Option JsonValue)
  | setItemStatusWithCompletionUndo (itemId : JsString) (statusValue : Option JsonValue)
  | undoItemCompletion (snapshot : TodoCompletionUndoSnapshot)
  | moveItem (itemId : JsString) (input : TodoItemMoveInput)
  | setItemArchived (itemId : JsString) (archived : Bool)
  | createCategory (name : Option JsonValue)
  | renameCategory (categoryId : JsString) (nameValue : Option JsonValue)
  | archiveCategory (categoryId : JsString)
  | restoreCategory (categoryId : JsString)

/-- The draft that a change leaves, and the undo that it returns. -/
def Change.apply (locale : Locale) (state : TodoState) (change : Change)
    (provenance : TodoMutationProvenance) :
    Except TodoStoreError (TodoState × Option TodoCompletionUndoSnapshot) :=
  match change with
  | .createItem input => (createItemInState locale state input provenance).map (·, none)
  | .editItem itemId input => (editItemInState state itemId input provenance).map (·, none)
  | .linkItemQuests itemId input =>
    (linkItemQuestsInState state itemId input provenance).map (·, none)
  | .setItemDue itemId dueValue => (Todos.setItemDue state itemId dueValue provenance).map (·, none)
  | .setItemStatus itemId statusValue =>
    (setItemStatusInState locale state itemId statusValue provenance).map (·, none)
  | .setItemStatusWithCompletionUndo itemId statusValue =>
    Todos.setItemStatusWithCompletionUndo locale state itemId statusValue provenance
  | .undoItemCompletion snapshot =>
    (Todos.undoItemCompletion locale state snapshot provenance).map (·, none)
  | .moveItem itemId input => (Todos.moveItem locale state itemId input provenance).map (·, none)
  | .setItemArchived itemId archived =>
    (setItemArchivedInState locale state itemId archived provenance).map (·, none)
  | .createCategory name => (createCategoryInState locale state name provenance).map (·, none)
  | .renameCategory categoryId nameValue =>
    (Todos.renameCategory locale state categoryId nameValue provenance).map (·, none)
  | .archiveCategory categoryId =>
    (Todos.archiveCategory state categoryId provenance).map (·, none)
  | .restoreCategory categoryId =>
    (Todos.restoreCategory state categoryId provenance).map (·, none)

end Takode.Todos
