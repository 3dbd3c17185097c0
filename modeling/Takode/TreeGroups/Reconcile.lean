import Takode.TreeGroups.Store

/-!
# Reconciling sessions with their groups

`reconcileSessionTreeGroups`: the sessions are put into groups one after another, in a
copy of the state that is sanitized at the end.
-/

namespace Takode.TreeGroups

open JsString

structure SessionTreeGroupSnapshot where
  sessionId : JsString
  treeGroupId : Option JsString := none
  memorySessionSpaceSlug : Option JsString := none
deriving DecidableEq

inductive UpdateSource
  | metadata
  | scopedAssignment
  | legacyAssignment
  | default
  | staleDefaultConflict
deriving DecidableEq

inductive ConflictAction
  | autoReconciledStaleDefault
  | preservedDivergence
deriving DecidableEq

/-- The reason of a conflict goes with its action. -/
def ConflictAction.reason : ConflictAction → JsString
  | .autoReconciledStaleDefault =>
    js "default_tree_location_conflicts_with_matching_memory_slug_and_node_order"
  | .preservedDivergence =>
    js "default_tree_location_conflicts_with_memory_slug_without_node_order_evidence"

structure Conflict where
  sessionId : JsString
  metadataGroup : Option JsString
  scopedAssignment : Option JsString
  legacyAssignment : Option JsString
  memorySessionSpaceSlug : Option JsString
  matchingMemoryGroupId : JsString
  nodeOrderGroupIds : List JsString
  resolvedGroup : JsString
  action : ConflictAction
deriving DecidableEq

structure SessionMetadataUpdate where
  sessionId : JsString
  treeGroupId : JsString
  source : UpdateSource
deriving DecidableEq

structure ReconcileSessionTreeGroupsResult where
  changed : Bool
  importedLegacyGroups : List JsString
  importedLegacyAssignments : List JsString
  resolvedGroups : Record JsString
  conflicts : List Conflict
  sessionMetadataUpdates : List SessionMetadataUpdate

/-- The variables of the loop over the sessions. -/
structure Reconciling where
  nextState : TreeGroupState
  processedSessionIds : List JsString := []
  importedLegacyGroups : JsSet JsString := ∅
  importedLegacyAssignments : JsSet JsString := ∅
  resolvedGroups : Record JsString := ∅
  conflicts : List Conflict := []
  sessionMetadataUpdates : List SessionMetadataUpdate := []

/-- `ensureGroupExists`. -/
def Reconciling.ensureGroupExists (r : Reconciling) (legacyState : Option TreeGroupState)
    (groupId : JsString) : Reconciling × Bool :=
  if r.nextState.hasGroup groupId then (r, true)
  else
    match (legacyState.map (·.groups)).getD [] |>.find? fun group => group.id = groupId with
    | none => (r, false)
    | some legacyGroup =>
      ({ r with
        nextState := { r.nextState with groups := r.nextState.groups ++ [legacyGroup] }
        importedLegacyGroups := r.importedLegacyGroups.add groupId }, true)

/-- What the groups of a session say, and the group that its memory slug names. -/
structure Evidence where
  metadataGroup : Option JsString
  scopedAssignment : Option JsString
  legacyAssignment : Option JsString
  memorySessionSpaceSlug : Option JsString
  matchingMemoryGroup : Option TreeGroup
  nodeOrderGroupIds : List JsString

namespace Evidence

variable (e : Evidence)

def defaultEvidence : Bool :=
  e.metadataGroup = some (js "default") || e.scopedAssignment = some (js "default")

/-- The group that the session's own records lead to, its source, and the conflict to report. -/
def resolve (sessionId : JsString) : Option JsString × UpdateSource × List Conflict :=
  match e.matchingMemoryGroup with
  | none => (e.metadataGroup, .metadata, [])
  | some matching =>
    if e.defaultEvidence then
      let conflict (resolvedGroup : JsString) (action : ConflictAction) : Conflict :=
        ⟨sessionId, e.metadataGroup, e.scopedAssignment, e.legacyAssignment,
          e.memorySessionSpaceSlug, matching.id, e.nodeOrderGroupIds, resolvedGroup, action⟩
      if e.nodeOrderGroupIds.contains matching.id then
        (some matching.id, .staleDefaultConflict,
          [conflict matching.id .autoReconciledStaleDefault])
      else if e.memorySessionSpaceSlug.isSome then
        (e.metadataGroup, .metadata,
          [conflict (e.metadataGroup.getD (js "default")) .preservedDivergence])
      else (e.metadataGroup, .metadata, [])
    else (e.metadataGroup, .metadata, [])

/-- Without a group of its own the session goes where it was assigned. -/
def fallback : JsString × UpdateSource :=
  match e.scopedAssignment, e.legacyAssignment with
  | some scopedAssignment, _ => (scopedAssignment, .scopedAssignment)
  | none, some legacyAssignment => (legacyAssignment, .legacyAssignment)
  | none, none => (js "default", .default)

end Evidence

/-- The legacy order of a group that a session was imported to. -/
def importOrder (legacyState : Option TreeGroupState) (localSessionIds : List JsString)
    (nextState : TreeGroupState) (resolvedGroup : JsString) : TreeGroupState :=
  match legacyState.bind fun legacy => legacy.nodeOrder.get? resolvedGroup with
  | none => nextState
  | some legacyOrder =>
    let filtered := legacyOrder.filter localSessionIds.contains
    if nextState.nodeOrder.has resolvedGroup || filtered.isEmpty then nextState
    else { nextState with nodeOrder := nextState.nodeOrder.set resolvedGroup filtered }

/-- One turn of the loop over the sessions. -/
def Reconciling.reconcile (scopedState : TreeGroupState) (legacyState : Option TreeGroupState)
    (localSessionIds : List JsString) (r : Reconciling) (candidate : SessionTreeGroupSnapshot) :
    Reconciling :=
  let sessionId := trim candidate.sessionId
  if sessionId.isEmpty || r.processedSessionIds.contains sessionId then r
  else
    let rawMemorySlug := normalizeSessionGroupId candidate.memorySessionSpaceSlug
    let evidence : Evidence :=
      { metadataGroup := normalizeSessionGroupId candidate.treeGroupId
        scopedAssignment := normalizeSessionGroupId (scopedState.assignments.get? sessionId)
        legacyAssignment :=
          normalizeSessionGroupId (legacyState.bind fun legacy => legacy.assignments.get? sessionId)
        memorySessionSpaceSlug := rawMemorySlug.map normalizeMemorySessionSpaceSlug
        matchingMemoryGroup :=
          findSingleNonDefaultGroupForMemorySlug r.nextState.groups rawMemorySlug
        nodeOrderGroupIds := nodeOrderGroupIdsForSession scopedState sessionId }
    let (resolved, source, conflicts) := evidence.resolve sessionId
    let (resolvedGroup, source) :=
      match resolved with
      | some resolvedGroup => (resolvedGroup, source)
      | none => evidence.fallback
    let (r, exists') := r.ensureGroupExists legacyState resolvedGroup
    let (resolvedGroup, source) :=
      if exists' then (resolvedGroup, source) else (js "default", .default)
    let imported := source = .legacyAssignment
    let nextState :=
      if imported then importOrder legacyState localSessionIds r.nextState resolvedGroup
      else r.nextState
    { nextState := removeSessionFromOtherNodeOrders
        { nextState with assignments := nextState.assignments.set sessionId resolvedGroup }
        sessionId resolvedGroup
      processedSessionIds := sessionId :: r.processedSessionIds
      importedLegacyGroups := r.importedLegacyGroups
      importedLegacyAssignments :=
        if imported then r.importedLegacyAssignments.add sessionId
        else r.importedLegacyAssignments
      resolvedGroups := r.resolvedGroups.set sessionId resolvedGroup
      conflicts := r.conflicts ++ conflicts
      sessionMetadataUpdates :=
        if evidence.metadataGroup ≠ some resolvedGroup then
          r.sessionMetadataUpdates ++ [⟨sessionId, resolvedGroup, source⟩]
        else r.sessionMetadataUpdates }

/-- `reconcileSessionTreeGroups`, with what the legacy file holds if it can be read. -/
def reconcileSessionTreeGroups (state : TreeGroupState) (legacy : Option JsonValue)
    (sessions : List SessionTreeGroupSnapshot) :
    TreeGroupState × ReconcileSessionTreeGroupsResult :=
  let legacyState := legacy.map sanitizeState
  let localSessionIds := (sessions.map fun candidate => trim candidate.sessionId).filter
    fun sessionId => !sessionId.isEmpty
  let r := sessions.foldl (Reconciling.reconcile state legacyState localSessionIds)
    { nextState := state }
  let sanitizedNextState := sanitizeState r.nextState.json
  let changed := state.content ≠ sanitizedNextState.content
  (if changed then sanitizedNextState else state,
    { changed
      importedLegacyGroups := r.importedLegacyGroups.keys
      importedLegacyAssignments := r.importedLegacyAssignments.keys
      resolvedGroups := r.resolvedGroups
      conflicts := r.conflicts
      sessionMetadataUpdates := r.sessionMetadataUpdates })

end Takode.TreeGroups
