import Takode.Lib.Json
import Takode.Lib.Machine

/-!
# The groups of the sidebar

`tree-group-store.ts`. An operation runs to its end in one step. The file of the state is
its JSON; what the legacy file holds is an input.
-/

namespace Takode.TreeGroups

open JsString

structure TreeGroup where
  id : JsString
  name : JsString
deriving DecidableEq

/-- The JSON of a group. -/
def TreeGroup.json (g : TreeGroup) : JsonValue :=
  .object [(js "id", .string g.id), (js "name", .string g.name)]

structure TreeGroupState where
  groups : List TreeGroup
  assignments : Record JsString
  nodeOrder : Record (List JsString)

/-- What there is to read of a state, in the order in which it is listed. -/
structure Content where
  groups : List TreeGroup
  assignments : List (JsString × JsString)
  nodeOrder : List (JsString × List JsString)
deriving DecidableEq

def DEFAULT_GROUP : TreeGroup := ⟨js "default", js "Default"⟩

def emptyState : TreeGroupState := ⟨[DEFAULT_GROUP], ∅, ∅⟩

namespace TreeGroupState

variable (state : TreeGroupState)

def hasGroup (groupId : JsString) : Bool := state.groups.any fun g => g.id = groupId

def content : Content :=
  ⟨state.groups, state.assignments.ownEntries, state.nodeOrder.ownEntries⟩

/-- `JSON.parse(JSON.stringify(state))`. -/
def json : JsonValue :=
  .object [
    (js "groups", .array (state.groups.map TreeGroup.json)),
    (js "assignments", .object (state.assignments.ownEntries.map fun e => (e.1, .string e.2))),
    (js "nodeOrder", .object (state.nodeOrder.ownEntries.map fun e =>
      (e.1, .array (e.2.map .string))))]

end TreeGroupState

/-- The loop over the ids of `sanitizeNodeOrder` and `setNodeOrder`, with what it has seen. -/
def normalizeIds (seen : List JsString) : List JsonValue → List JsString
  | [] => []
  | value :: rest =>
    match value.asString with
    | none => normalizeIds seen rest
    | some id =>
      let trimmed := trim id
      if !trimmed.isEmpty && !seen.contains trimmed then
        trimmed :: normalizeIds (trimmed :: seen) rest
      else normalizeIds seen rest

/-- The loop over the groups of `sanitizeState`, with the ids it has seen. -/
def sanitizeGroups (seenIds : List JsString) : List JsonValue → List TreeGroup
  | [] => []
  | g :: rest =>
    let id := (((g.get (js "id")).bind (·.asString)).map trim).getD []
    let name := (((g.get (js "name")).bind (·.asString)).map trim).getD []
    if id.isEmpty || name.isEmpty || seenIds.contains id then sanitizeGroups seenIds rest
    else ⟨id, name⟩ :: sanitizeGroups (id :: seenIds) rest

def sanitizeNodeOrder (input : Option JsonValue) (validGroupIds : List JsString) :
    Record (List JsString) :=
  ((input.map (·.entries)).getD []).foldl
    (fun out e =>
      match e.2.asArray with
      | none => out
      | some order =>
        let ids := normalizeIds [] order
        if validGroupIds.contains e.1 && !ids.isEmpty then out.set e.1 ids else out) ∅

def sanitizeAssignments (input : Option JsonValue) (validGroupIds : List JsString) :
    Record JsString :=
  ((input.map (·.entries)).getD []).foldl
    (fun assignments e =>
      match e.2.asString with
      | none => assignments
      | some groupId =>
        if validGroupIds.contains (trim groupId) then assignments.set (trim e.1) (trim groupId)
        else assignments) ∅

def sanitizeState (input : JsonValue) : TreeGroupState :=
  let groups := sanitizeGroups [] (((input.get (js "groups")).bind (·.asArray)).getD [])
  let groups := if groups.any fun g => g.id = js "default" then groups else DEFAULT_GROUP :: groups
  let validGroupIds := groups.map (·.id)
  { groups
    assignments := sanitizeAssignments (input.get (js "assignments")) validGroupIds
    nodeOrder := sanitizeNodeOrder (input.get (js "nodeOrder")) validGroupIds }

def normalizeSessionGroupId (value : Option JsString) : Option JsString :=
  (value.map trim).filter fun trimmed => !trimmed.isEmpty

def normalizeMemorySessionSpaceSlug (slug : JsString) : JsString :=
  if (trim slug).isEmpty then js "Takode" else trim slug

def removeSessionFromOtherNodeOrders (treeState : TreeGroupState)
    (sessionId assignedGroupId : JsString) : TreeGroupState :=
  { treeState with
    nodeOrder := treeState.nodeOrder.filterMap fun groupId order =>
      if groupId = assignedGroupId then some order
      else
        let filtered := order.filter (· ≠ sessionId)
        if filtered.isEmpty then none else some filtered }

def nodeOrderGroupIdsForSession (treeState : TreeGroupState) (sessionId : JsString) :
    List JsString :=
  (treeState.nodeOrder.ownEntries.filter fun e => e.2.contains sessionId).map Prod.fst

def findSingleNonDefaultGroupForMemorySlug (groups : List TreeGroup)
    (memorySessionSpaceSlug : Option JsString) : Option TreeGroup :=
  match normalizeSessionGroupId memorySessionSpaceSlug with
  | none => none
  | some rawSlug =>
    let normalizedSlug := normalizeMemorySessionSpaceSlug rawSlug
    match groups.filter fun group => group.id ≠ js "default" &&
        normalizeMemorySessionSpaceSlug group.name = normalizedSlug with
    | [group] => some group
    | _ => none

def setState (next : JsonValue) : TreeGroupState := sanitizeState next

/-- `createGroup`, with the id that `randomUUID` gives. -/
def createGroup (state : TreeGroupState) (uuid name : JsString) : TreeGroupState :=
  { state with
    groups := state.groups ++ [⟨uuid, if (trim name).isEmpty then js "Untitled" else trim name⟩] }

def renameGroup (state : TreeGroupState) (id name : JsString) : TreeGroupState × Bool :=
  match state.groups.findIdx? fun g => g.id = id with
  | none => (state, false)
  | some index =>
    if id = js "default" then (state, false)
    else
      ({ state with
        groups := state.groups.modify index fun group =>
          { group with name := if (trim name).isEmpty then group.name else trim name } }, true)

def deleteGroup (state : TreeGroupState) (id : JsString) : TreeGroupState × Bool :=
  if id = js "default" then (state, false)
  else
    match state.groups.findIdx? fun g => g.id = id with
    | none => (state, false)
    | some idx =>
      ({ state with
        groups := state.groups.eraseIdx idx
        assignments := state.assignments.map fun _ groupId =>
          if groupId = id then js "default" else groupId }, true)

def assignSession (state : TreeGroupState) (sessionId groupId : JsString) : TreeGroupState :=
  if state.hasGroup groupId then
    removeSessionFromOtherNodeOrders
      { state with assignments := state.assignments.set sessionId groupId } sessionId groupId
  else state

def removeSession (state : TreeGroupState) (sessionId : JsString) : TreeGroupState :=
  { state with
    assignments := state.assignments.delete sessionId
    nodeOrder := state.nodeOrder.map fun _ order => order.erase sessionId }

def setNodeOrder (state : TreeGroupState) (groupId : JsString) (orderedIds : List JsonValue) :
    TreeGroupState :=
  if state.hasGroup groupId then
    let normalized := normalizeIds [] orderedIds
    { state with
      nodeOrder :=
        if normalized.isEmpty then state.nodeOrder.delete groupId
        else state.nodeOrder.set groupId normalized }
  else state

end Takode.TreeGroups
