import Takode.SyncedProjection.Runtime

/-!
# Synced projections in a browser

The cache of projection values a browser keeps (`store-synced-projections.ts`)
and what a snapshot or an update does to it.
-/

namespace Takode.SyncedProjection

/-- `isValidSyncedProjectionRevision` (`synced-projection.ts`). -/
def isValidSyncedProjectionRevision (revision : Nat) : Bool := 1 ≤ revision && revision < 2 ^ 53

/-- `AnySyncedProjectionDescriptor` (`synced-projection-registry.ts`), what the cache reads of it. -/
structure Descriptor (V P : Type) where
  maxValueBytes : Nat
  isValue : V → Bool
  equal : V → V → Bool
  reconcile : V → V → V
  applyPatch : Option (V → P → Option V) := none

/-- The registry of descriptors, and what the cache reads of a session-attention value. -/
structure Registry (V P A : Type) where
  getSyncedProjectionDescriptor : JsString → Option (Descriptor V P)
  attentionReason : V → A

/-- `SESSION_ATTENTION_PROJECTION`. -/
def sessionAttentionProjection : JsString :=
  "session-attention".toList.map fun c => c.val.toUInt16

/-- `SyncedProjectionApplyResult`. -/
structure ApplyResult where
  applied : Bool
  accepted : Bool
  requestResync : Bool
  deriving DecidableEq

inductive SnapshotSource where
  | live
  | rest
  deriving DecidableEq

/-- `SyncedProjectionSnapshotApplyOptions`; an update has its last field only. -/
structure ApplyOptions where
  acceptSameRevisionConflict : Bool := false
  source : Option SnapshotSource := none
  activeRequestSequence : Option Nat := none

/-- `SyncedProjectionOrderingState`. -/
structure OrderingState where
  latestRestRequestSequence : Option Nat := none
  liveRequestSequenceBarrier : Option Nat := none
  subscriptionRejected : Bool := false
  deriving DecidableEq

/-- `SyncedProjectionCacheState`. -/
structure CacheState (V A : Type) where
  values : JsMap EntryId V := ∅
  versions : JsMap EntryId Version := ∅
  keys : JsSet EntryId := ∅
  orderings : JsMap EntryId OrderingState := ∅
  sessionAttention : JsMap JsString A := ∅

def invalidResult : ApplyResult := ⟨false, false, false⟩
def staleResult : ApplyResult := ⟨false, false, false⟩
def unchangedResult : ApplyResult := ⟨false, true, false⟩
def resyncResult : ApplyResult := ⟨false, false, true⟩

variable {V P A : Type} [JsonSized V] [JsonSized P] [DecidableEq A]

/-- The header checks of `parseKnownEnvelope` and `parseKnownPatch`. -/
def knownDescriptor (registry : Registry V P A) (id : EntryId) (version : Version) :
    Option (Descriptor V P) :=
  if isValidSyncedProjectionIdentity id.1 && isValidSyncedProjectionIdentity id.2 &&
      isValidSyncedProjectionIdentity version.generation &&
      isValidSyncedProjectionRevision version.revision then
    registry.getSyncedProjectionDescriptor id.1
  else none

/-- `parseKnownEnvelope` (`:107-127`): the descriptor, unless the envelope is malformed. -/
def parseKnownEnvelope (registry : Registry V P A) (e : Envelope V) : Option (Descriptor V P) :=
  (knownDescriptor registry e.id ⟨e.generation, e.revision⟩).filter fun descriptor =>
    descriptor.isValue e.value &&
      (jsonUtf8ByteLength e.value).any fun bytes => bytes ≤ descriptor.maxValueBytes

/-- `parseKnownPatch` (`:129-145`). -/
def parseKnownPatch (registry : Registry V P A) (e : PatchEnvelope P) : Option (Descriptor V P) :=
  (knownDescriptor registry (e.projection, e.key) ⟨e.generation, e.revision⟩).filter
    fun descriptor => descriptor.applyPatch.isSome &&
      (jsonUtf8ByteLength e.patch).any fun bytes => bytes ≤ descriptor.maxValueBytes

/-- `applyOrderingMetadata` (`:178-227`): the cache, and whether a snapshot is rejected. -/
def applyOrderingMetadata (state : CacheState V A) (id : EntryId) (generation : JsString)
    (options : ApplyOptions) : CacheState V A × Bool :=
  let current := state.orderings.get? id
  let ordering := current.getD {}
  let withOrdering (next : OrderingState) : CacheState V A :=
    { state with orderings := state.orderings.set id next }
  match options.source with
  | none => (state, false)
  | some .live =>
    let barrier := options.activeRequestSequence.getD 0
    if ordering.subscriptionRejected || ordering.liveRequestSequenceBarrier.all (· < barrier) then
      (withOrdering { ordering with
        liveRequestSequenceBarrier := some barrier, subscriptionRejected := false }, false)
    else (state, false)
  | some .rest =>
    if ordering.subscriptionRejected then (state, true)
    else
      match options.activeRequestSequence with
      | some sequence =>
        if ordering.latestRestRequestSequence.any (sequence < ·) then (state, true)
        else
          let next := if ordering.latestRestRequestSequence = some sequence then state
            else withOrdering { ordering with latestRestRequestSequence := some sequence }
          (next, ordering.liveRequestSequenceBarrier.any (sequence ≤ ·) &&
            !(state.keys.has id &&
              (state.versions.get? id).any fun v => v.generation = generation))
      | none =>
        (state, ordering.liveRequestSequenceBarrier.isSome &&
          !(state.keys.has id &&
            (state.versions.get? id).any fun v => v.generation = generation))

/-- `commitEnvelope` (`:243-312`). -/
def commitEnvelope (registry : Registry V P A) (state : CacheState V A) (id : EntryId)
    (version : Version) (value : V) (descriptor : Descriptor V P) (requestResync : Bool) :
    CacheState V A × ApplyResult :=
  let hadAuthority := state.keys.has id
  let current := if hadAuthority then state.values.get? id else none
  let nextValue := (current.map fun old => descriptor.reconcile old value).getD value
  let valueEqual := current.any fun old => descriptor.equal old nextValue
  let sameVersion := state.versions.get? id = some version
  let attention := registry.attentionReason value
  let sameAttention := id.1 ≠ sessionAttentionProjection ||
    state.sessionAttention.get? id.2 = some attention
  ({ values := if valueEqual then state.values else state.values.set id nextValue
     versions := if sameVersion then state.versions else state.versions.set id version
     keys := if hadAuthority then state.keys else state.keys.add id
     orderings := state.orderings
     sessionAttention := if sameAttention then state.sessionAttention
       else state.sessionAttention.set id.2 attention },
    { applied := !valueEqual || !sameVersion || !hadAuthority || !sameAttention
      accepted := true
      requestResync := requestResync })

/-- `applySyncedProjectionSnapshotToCache` (`:315-352`). -/
def applySyncedProjectionSnapshotToCache (registry : Registry V P A) (state : CacheState V A)
    (e : Envelope V) (options : ApplyOptions) : CacheState V A × ApplyResult :=
  match parseKnownEnvelope registry e with
  | none => (state, invalidResult)
  | some descriptor =>
    let (ordered, rejectSnapshot) := applyOrderingMetadata state e.id e.generation options
    let commit :=
      commitEnvelope registry ordered e.id ⟨e.generation, e.revision⟩ e.value descriptor false
    if rejectSnapshot then (ordered, staleResult)
    else
      match (ordered.versions.get? e.id).filter fun v =>
          ordered.keys.has e.id && v.generation = e.generation with
      | none => commit
      | some current =>
        if e.revision < current.revision then (ordered, staleResult)
        else if e.revision = current.revision then
          if (ordered.values.get? e.id).any fun value => descriptor.equal value e.value then
            (ordered, unchangedResult)
          else if options.acceptSameRevisionConflict then commit
          else (ordered, resyncResult)
        else commit

/-- The descriptor an update is for (`:360-363`), unless it is malformed. -/
def parseKnownUpdate (registry : Registry V P A) : Update V P → Option (Descriptor V P)
  | .full e => parseKnownEnvelope registry e
  | .patch e => parseKnownPatch registry e

/-- The value an update leads to from a value (`:386`). -/
def nextValue (descriptor : Descriptor V P) (current : V) : Update V P → Option V
  | .full e => some e.value
  | .patch e => descriptor.applyPatch.bind fun applyPatch => applyPatch current e.patch

/-- Whether an update is a patch. -/
def Update.isPatch : Update V P → Bool
  | .full _ => false
  | .patch _ => true

/-- `applySyncedProjectionUpdateToCache` (`:355-412`). -/
def applySyncedProjectionUpdateToCache (registry : Registry V P A) (state : CacheState V A)
    (update : Update V P) (options : ApplyOptions) : CacheState V A × ApplyResult :=
  match parseKnownUpdate registry update with
  | none => (state, invalidResult)
  | some descriptor =>
    let id := update.id
    let ordered :=
      if state.keys.has id then
        (applyOrderingMetadata state id update.version.generation
          { source := some .live, activeRequestSequence := options.activeRequestSequence }).1
      else state
    match (ordered.versions.get? id).filter fun v =>
        ordered.keys.has id && v.generation = update.version.generation with
    -- A live update cannot establish or switch generation authority.
    | none => (ordered, resyncResult)
    | some current =>
      if update.version.revision < current.revision then (ordered, staleResult)
      else
        match ordered.values.get? id with
        | none => (ordered, resyncResult)
        | some currentValue =>
          match (nextValue descriptor currentValue update).filter descriptor.isValue with
          | none => (ordered, resyncResult)
          | some next =>
            if update.version.revision = current.revision then
              (ordered, if descriptor.equal currentValue next then unchangedResult
                else resyncResult)
            else
              let isContiguous := update.version.revision = current.revision + 1
              if update.isPatch && !isContiguous then (ordered, resyncResult)
              else commitEnvelope registry ordered id update.version next descriptor !isContiguous

/-- What a browser does with a message of its carrier. -/
def receive (registry : Registry V P A) (options : ApplyOptions) (state : CacheState V A) :
    Message V P → CacheState V A × ApplyResult
  | .snapshot e => applySyncedProjectionSnapshotToCache registry state e options
  | .resynced e =>
    applySyncedProjectionSnapshotToCache registry state e
      { options with acceptSameRevisionConflict := true }
  | .update u => applySyncedProjectionUpdateToCache registry state u options

end Takode.SyncedProjection
