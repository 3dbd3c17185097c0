import Takode.Lib.JsMap
import Takode.Lib.JsString
import Takode.Lib.Machine

/-!
# Synced projection runtime

`SyncedProjectionRuntime` (`synced-projection-runtime.ts`): cached values with
revisions, invalidation in batches, and delivery to subscribers. What the
definitions read of the server is their source, which changes between calls;
callbacks do not call back into the runtime. Of the metrics only the two error
counters are kept, and error reports are left out. A call returns the runtime after it, what it delivered, and its result.
-/

namespace Takode.SyncedProjection

/-- `isValidSyncedProjectionIdentity` (`synced-projection.ts`). -/
def isValidSyncedProjectionIdentity (value : JsString) : Bool :=
  0 < value.length && value.length ≤ 160 && !value.contains 0

/-- `syncedProjectionEntryId`, as the pair that its text `projection\0key` determines. -/
abbrev EntryId := JsString × JsString

/-- The text of an entry id. -/
def EntryId.text (id : EntryId) : JsString := id.1 ++ 0 :: id.2

/-- `SyncedProjectionVersion`. -/
structure Version where
  generation : JsString
  revision : Nat
  deriving DecidableEq

/-- `SyncedProjectionEnvelope`. -/
structure Envelope (V : Type) where
  projection : JsString
  key : JsString
  generation : JsString
  revision : Nat
  value : V
  deriving DecidableEq

/-- `SyncedProjectionPatchEnvelope`. -/
structure PatchEnvelope (P : Type) where
  projection : JsString
  key : JsString
  generation : JsString
  revision : Nat
  patch : P
  deriving DecidableEq

/-- `SyncedProjectionUpdateEnvelope`. -/
inductive Update (V P : Type) where
  | full (envelope : Envelope V)
  | patch (envelope : PatchEnvelope P)
  deriving DecidableEq

/-- The entry an envelope is for. -/
def Envelope.id {V : Type} (e : Envelope V) : EntryId := (e.projection, e.key)

/-- The entry an update is for. -/
def Update.id {V P : Type} : Update V P → EntryId
  | .full e => e.id
  | .patch e => (e.projection, e.key)

/-- The version an update leads to. -/
def Update.version {V P : Type} : Update V P → Version
  | .full e => ⟨e.generation, e.revision⟩
  | .patch e => ⟨e.generation, e.revision⟩

/-- `jsonUtf8ByteLength` (`synced-projection-codec.ts`): `none` when not serializable. -/
class JsonSized (α : Type) where
  jsonUtf8ByteLength : α → Option Nat

export JsonSized (jsonUtf8ByteLength)

/-- A call that may throw. -/
abbrev Try (α : Type) := Except Unit α

/-- `SyncedProjectionDefinition`. `resolveSource` is in `Outside`: it is what changes. -/
structure Definition (S D V P Sub : Type) where
  projection : JsString
  dependencies : List JsString
  selectDependencies : S → JsString → Try D
  dependenciesEqual : D → D → Bool
  derive : S → JsString → D → Try V
  valueEqual : V → V → Bool
  authorizeSubscription : Sub → JsString → S → Bool
  maxValueBytes : Option Nat := none
  createPatch : Option (V → V → Try (Option P)) := none

/-- `createDirectSyncedProjectionDefinition`: the selected value is the value. -/
def createDirectSyncedProjectionDefinition {S V P Sub : Type} (projection : JsString)
    (dependencies : List JsString) (equal : V → V → Bool) (maxValueBytes : Nat)
    (selectValue : S → JsString → Try V) (authorizeSubscription : Sub → JsString → S → Bool)
    (createPatch : Option (V → V → Try (Option P))) : Definition S V V P Sub where
  projection := projection
  dependencies := dependencies
  selectDependencies := selectValue
  dependenciesEqual := equal
  derive := fun _ _ value => .ok value
  valueEqual := equal
  authorizeSubscription := authorizeSubscription
  maxValueBytes := some maxValueBytes
  createPatch := createPatch

/-- What lies outside the runtime: the source each definition finds for a key, and the
subscribers whose `deliver` does not throw. -/
structure Outside (S Sub : Type) where
  resolveSource : EntryId → Option S
  sendable : Sub → Bool

/-- `CacheEntry`. -/
structure CacheEntry (D V : Type) where
  dependencies : D
  value : V
  revision : Nat

/-- `SyncedProjectionRuntime`. `dropped` is history: how often each entry left the cache. -/
structure Runtime (S D V P Sub : Type) where
  generation : JsString
  maxValueBytes : Nat := 32 * 1024
  maxSubscriptionsPerSubscriber : Nat := 2000
  definitions : JsMap JsString (Definition S D V P Sub) := ∅
  cache : JsMap EntryId (CacheEntry D V) := ∅
  /-- Keys whose source changed and must be recomputed before the next snapshot or publication. -/
  dirty : JsSet EntryId := ∅
  /-- Dirty keys queued for publication because at least one subscriber exists. -/
  pending : JsSet EntryId := ∅
  subscribers : JsMap Sub (JsSet EntryId) := ∅
  transactionDepth : Nat := 0
  flushScheduled : Bool := false
  flushing : Bool := false
  derivationErrors : Nat := 0
  deliveryErrors : Nat := 0
  dropped : EntryId → Nat := fun _ => 0

/-- An envelope delivered to a subscriber. `value` is history: what the envelope stands for. -/
structure Delivery (V P Sub : Type) where
  subscriber : Sub
  update : Update V P
  value : V

/-- What a call comes to. -/
structure Outcome (S D V P Sub α : Type) where
  runtime : Runtime S D V P Sub
  delivered : List (Delivery V P Sub) := []
  result : α

/-- An entry of a subscription request; a malformed one is `none` in a request. -/
structure Subscription where
  projection : JsString
  key : JsString
  known : Option Version := none

/-- `SyncedProjectionSubscriptionReplacement`. -/
structure Replacement (V : Type) where
  snapshots : List (Envelope V)
  acceptedSubscriptions : List EntryId
  currentSubscriptions : List (EntryId × Version)

namespace Runtime

variable {S D V P Sub : Type} [DecidableEq Sub] [JsonSized V] [JsonSized P]
variable (rt : Runtime S D V P Sub) (outside : Outside S Sub)

/-- `register` (`:184-201`); `none` when it throws. -/
def register (definition : Definition S D V P Sub) : Option (Runtime S D V P Sub) :=
  if !isValidSyncedProjectionIdentity definition.projection then none
  else if rt.definitions.has definition.projection then none
  else if definition.dependencies.isEmpty ||
      definition.dependencies.any (fun name => !isValidSyncedProjectionIdentity name) then none
  else some { rt with definitions := rt.definitions.set definition.projection definition }

/-- `hasSubscribersForEntryId` (`:406-411`). -/
def hasSubscribersForEntryId (id : EntryId) : Bool := rt.subscribers.values.any fun ids => ids.has id

/-- `scheduleFlush` (`:400-404`). -/
def scheduleFlush : Runtime S D V P Sub :=
  if 0 < rt.transactionDepth || rt.flushing || rt.pending.entries.isEmpty || rt.flushScheduled then
    rt
  else { rt with flushScheduled := true }

/-- `invalidate` (`:203-212`). -/
def invalidate (projection key : JsString) : Runtime S D V P Sub :=
  if !rt.definitions.has projection || !isValidSyncedProjectionIdentity key then rt
  else
    let id : EntryId := (projection, key)
    scheduleFlush { rt with
      dirty := rt.dirty.add id
      pending := if rt.hasSubscribersForEntryId id then rt.pending.add id else rt.pending }

/-- `transaction` (`:214-222`) up to the operation. -/
def beginTransaction : Runtime S D V P Sub :=
  { rt with transactionDepth := rt.transactionDepth + 1 }

/-- `transaction` (`:218-221`) after the operation, also one that throws. -/
def endTransaction : Runtime S D V P Sub :=
  scheduleFlush { rt with transactionDepth := rt.transactionDepth - 1 }

/-- `envelope` (`:542-554`). -/
def envelope (id : EntryId) (entry : CacheEntry D V) : Envelope V :=
  ⟨id.1, id.2, rt.generation, entry.revision, entry.value⟩

/-- The cache entry leaves the cache. -/
def drop (id : EntryId) : Runtime S D V P Sub :=
  { rt with
    cache := rt.cache.delete id
    dropped := if rt.cache.has id then Function.update rt.dropped id (rt.dropped id + 1)
      else rt.dropped }

/-- The `try` of `recompute` (`:431-463`) up to the cache: the entry, and whether it is new. -/
def renewed (definition : Definition S D V P Sub) (prior : Option (CacheEntry D V)) (source : S)
    (key : JsString) : Try (CacheEntry D V × Bool) := do
  let dependencies ← definition.selectDependencies source key
  match prior.filter fun p => definition.dependenciesEqual p.dependencies dependencies with
  | some p => return (p, false)
  | none =>
    let value ← definition.derive source key dependencies
    match prior.filter fun p => definition.valueEqual p.value value with
    | some p => return ({ p with dependencies := dependencies }, false)
    | none =>
      match jsonUtf8ByteLength value with
      | none => throw ()
      | some valueBytes =>
        if min (definition.maxValueBytes.getD rt.maxValueBytes) rt.maxValueBytes < valueBytes then
          throw ()
        else return (⟨dependencies, value, (prior.map CacheEntry.revision).getD 0 + 1⟩, true)

/-- The envelope `publish` (`:494-498`) delivers. -/
def updateFor (definition : Definition S D V P Sub) (id : EntryId) (entry : CacheEntry D V)
    (prior : Option (CacheEntry D V)) : Try (Update V P) := do
  let patch ← match prior, definition.createPatch with
    | some p, some createPatch => createPatch p.value entry.value
    | _, _ => .ok none
  match patch with
  | none => return .full (rt.envelope id entry)
  | some patch => return .patch ⟨id.1, id.2, rt.generation, entry.revision, patch⟩

/-- The bytes of an update. -/
def updateBytes : Update V P → Option Nat
  | .full envelope => jsonUtf8ByteLength envelope.value
  | .patch envelope => jsonUtf8ByteLength envelope.patch

/-- The subscription of one subscriber after `publish` (`:512-531`) came to it. -/
def keptBy (definition : Definition S D V P Sub) (id : EntryId) (subscriber : Sub)
    (ids : JsSet EntryId) : Option (JsSet EntryId) :=
  if !ids.has id then some ids
  else if !(outside.resolveSource id).any (definition.authorizeSubscription subscriber id.2) then
    some (ids.delete id)
  else if outside.sendable subscriber then some ids
  else none

/-- `publish` (`:486-540`). -/
def publish (definition : Definition S D V P Sub) (id : EntryId) (entry : CacheEntry D V)
    (prior : Option (CacheEntry D V)) : Try (Outcome S D V P Sub Unit) := do
  let update ← rt.updateFor definition id entry prior
  match updateBytes update with
  | none =>
    return { runtime := { rt with deliveryErrors := rt.deliveryErrors + 1 }, result := () }
  | some _ =>
    let audience := rt.subscribers.entries.filter fun (subscriber, ids) =>
      ids.has id && (outside.resolveSource id).any
        (definition.authorizeSubscription subscriber id.2)
    return {
      runtime := { rt with
        subscribers := rt.subscribers.filterMap (keptBy outside definition id)
        deliveryErrors := rt.deliveryErrors + audience.countP fun m => !outside.sendable m.1 }
      delivered := (audience.filter fun m => outside.sendable m.1).map fun m =>
        ⟨m.1, update, entry.value⟩
      result := () }

/-- `recompute` (`:413-484`). -/
def recompute (id : EntryId) (publishing : Bool) :
    Outcome S D V P Sub (Option (CacheEntry D V)) :=
  match rt.definitions.get? id.1 with
  | none => { runtime := rt, result := none }
  | some definition =>
    let clean : Runtime S D V P Sub := { rt with dirty := rt.dirty.delete id }
    match outside.resolveSource id with
    | none => { runtime := clean.drop id, result := none }
    | some source =>
      match rt.renewed definition (rt.cache.get? id) source id.2 with
      | .error _ =>
        { runtime := { rt with derivationErrors := rt.derivationErrors + 1 }
          result := rt.cache.get? id }
      | .ok (entry, isNew) =>
        let stored : Runtime S D V P Sub := { clean with cache := rt.cache.set id entry }
        if isNew && publishing then
          match stored.publish outside definition id entry (rt.cache.get? id) with
          | .ok published => { published with result := some entry }
          -- The entry stays; the key is dirty again if it was.
          | .error _ =>
            { runtime := { stored with
                dirty := rt.dirty, derivationErrors := rt.derivationErrors + 1 }
              result := some entry }
        else { runtime := stored, result := some entry }

/-- `getSnapshot` (`:224-237`). -/
def getSnapshot (id : EntryId) : Outcome S D V P Sub (Option (Envelope V)) :=
  if !isValidSyncedProjectionIdentity id.1 || !isValidSyncedProjectionIdentity id.2 then
    { runtime := rt, result := none }
  else if rt.dirty.has id || !rt.cache.has id then
    let publishing := rt.pending.has id || rt.hasSubscribersForEntryId id
    let computed := { rt with pending := rt.pending.delete id }.recompute outside id publishing
    { computed with result := computed.result.map (rt.envelope id) }
  else { runtime := rt, result := (rt.cache.get? id).map (rt.envelope id) }

/-- The loop over the requests in `replaceSubscriptions` (`:249-269`). -/
def accept (subscriber : Sub) (seen : List EntryId) :
    List (Option Subscription) → List (EntryId × Option Version)
  | [] => []
  | none :: rest => accept subscriber seen rest
  | some request :: rest =>
    let id : EntryId := (request.projection, request.key)
    match rt.definitions.get? request.projection with
    | none => accept subscriber seen rest
    | some definition =>
      if !isValidSyncedProjectionIdentity request.key || id ∈ seen then accept subscriber seen rest
      else if (outside.resolveSource id).any
          (definition.authorizeSubscription subscriber request.key) then
        (id, request.known) :: accept subscriber (id :: seen) rest
      else accept subscriber seen rest

/-- The snapshots of the accepted subscriptions (`:280-290`), each with whether it is known. -/
def resolve (rt : Runtime S D V P Sub) :
    List (EntryId × Option Version) → Outcome S D V P Sub (List (Envelope V × Bool))
  | [] => { runtime := rt, result := [] }
  | (id, known) :: rest =>
    let first := rt.getSnapshot outside id
    let others := resolve first.runtime rest
    { runtime := others.runtime
      delivered := first.delivered ++ others.delivered
      result := match first.result with
        | none => others.result
        | some snapshot =>
          (snapshot, known = some ⟨snapshot.generation, snapshot.revision⟩) :: others.result }

/-- `replaceSubscriptions` (`:239-308`). -/
def replaceSubscriptions (subscriber : Sub) (requested : List (Option Subscription)) :
    Outcome S D V P Sub (Replacement V) :=
  let accepted := rt.accept outside subscriber []
    (requested.take rt.maxSubscriptionsPerSubscriber)
  -- The subscriber is detached: what it accepts comes through the returned snapshots.
  let resolved := resolve outside { rt with subscribers := rt.subscribers.delete subscriber } accepted
  let ids := JsSet.ofList (resolved.result.map fun r => r.1.id)
  { runtime := { resolved.runtime with
      subscribers := resolved.runtime.subscribers.set subscriber ids }
    delivered := resolved.delivered
    result :=
      { snapshots := (resolved.result.filter fun r => !r.2).map Prod.fst
        acceptedSubscriptions := resolved.result.map fun r => r.1.id
        currentSubscriptions := (resolved.result.filter Prod.snd).map fun r =>
          (r.1.id, ⟨r.1.generation, r.1.revision⟩) } }

/-- `resync` (`:310-329`). -/
def resync (subscriber : Sub) (id : EntryId) : Outcome S D V P Sub (Option (Envelope V)) :=
  if !isValidSyncedProjectionIdentity id.1 || !isValidSyncedProjectionIdentity id.2 then
    { runtime := rt, result := none }
  else
    match rt.subscribers.get? subscriber with
    | none => { runtime := rt, result := none }
    | some ids =>
      if !ids.has id then { runtime := rt, result := none }
      else
        match rt.definitions.get? id.1 with
        | some definition =>
          if (outside.resolveSource id).any (definition.authorizeSubscription subscriber id.2) then
            rt.getSnapshot outside id
          else
            { runtime := { rt with subscribers := rt.subscribers.set subscriber (ids.delete id) }
              result := none }
        | none =>
          { runtime := { rt with subscribers := rt.subscribers.set subscriber (ids.delete id) }
            result := none }

/-- `removeSubscriber` (`:331-333`). -/
def removeSubscriber (subscriber : Sub) : Runtime S D V P Sub :=
  { rt with subscribers := rt.subscribers.delete subscriber }

/-- `removeKey` (`:345-358`). -/
def removeKey (id : EntryId) : Runtime S D V P Sub :=
  if !isValidSyncedProjectionIdentity id.1 || !isValidSyncedProjectionIdentity id.2 then rt
  else
    drop { rt with
      dirty := rt.dirty.delete id
      pending := rt.pending.delete id
      subscribers := rt.subscribers.map fun _ ids => ids.delete id } id

/-- The recomputations of a `flush` (`:371`). -/
def recomputeAll (rt : Runtime S D V P Sub) : List EntryId → Outcome S D V P Sub Unit
  | [] => { runtime := rt, result := () }
  | id :: rest =>
    let first := rt.recompute outside id true
    let others := recomputeAll first.runtime rest
    { runtime := others.runtime
      delivered := first.delivered ++ others.delivered
      result := () }

/-- `flush` (`:360-376`). -/
def flush : Outcome S D V P Sub Unit :=
  let awake : Runtime S D V P Sub := { rt with flushScheduled := false }
  if rt.flushing || 0 < rt.transactionDepth || rt.pending.entries.isEmpty then
    { runtime := awake, result := () }
  else
    let batch := rt.pending.keys.filter rt.hasSubscribersForEntryId
    let taken : Runtime S D V P Sub := { awake with pending := ∅ }
    if batch.isEmpty then { runtime := taken, result := () }
    else
      let done := recomputeAll outside { taken with flushing := true } batch
      { done with runtime := { done.runtime with flushing := false }.scheduleFlush }

end Runtime

/-! ## Runs -/

/-- How an envelope reached someone. -/
inductive Message (V P : Type) where
  | snapshot (envelope : Envelope V)
  /-- The answer to a `resync`. -/
  | resynced (envelope : Envelope V)
  | update (update : Update V P)
  deriving DecidableEq

namespace Message

variable {V P : Type}

/-- The update with the same contents. -/
def contents : Message V P → Update V P
  | snapshot e | resynced e => .full e
  | update u => u

def id (m : Message V P) : EntryId := m.contents.id

def version (m : Message V P) : Version := m.contents.version

end Message

/-- An envelope that was delivered, or returned to a subscriber or another caller. `value` is
what it stands for, `dropped` how often its entry had left the cache by then. -/
structure Issued (V P Sub : Type) where
  recipient : Option Sub
  message : Message V P
  value : V
  dropped : Nat

/-- A runtime, what lies outside of it, and every envelope it has issued, oldest first. `since`
is history: the sources each key had since its last invalidation, or since the start. -/
structure System (S D V P Sub : Type) where
  runtime : Runtime S D V P Sub
  outside : Outside S Sub
  issued : List (Issued V P Sub) := []
  since : EntryId → List S

/-- A call of the runtime, or a change outside of it. -/
inductive Call (S D V P Sub : Type) where
  | change (outside : Outside S Sub)
  | register (definition : Definition S D V P Sub)
  | invalidate (projection key : JsString)
  | beginTransaction
  | endTransaction
  | getSnapshot (id : EntryId)
  | replaceSubscriptions (subscriber : Sub) (requested : List (Option Subscription))
  | resync (subscriber : Sub) (id : EntryId)
  | removeSubscriber (subscriber : Sub)
  | removeKey (id : EntryId)
  | flush

namespace System

variable {S D V P Sub : Type} [DecidableEq Sub] [JsonSized V] [JsonSized P]
variable (s : System S D V P Sub)

/-- The system after a call that delivered and returned envelopes. -/
def issue (runtime : Runtime S D V P Sub) (delivered : List (Delivery V P Sub))
    (recipient : Option Sub) (kind : Envelope V → Message V P) (returned : List (Envelope V)) :
    System S D V P Sub where
  runtime := runtime
  outside := s.outside
  since := s.since
  issued := s.issued ++
    (delivered.map fun d =>
      ⟨some d.subscriber, .update d.update, d.value, runtime.dropped d.update.id⟩) ++
    returned.map fun e => ⟨recipient, kind e, e.value, runtime.dropped e.id⟩

/-- One step. -/
def step : Call S D V P Sub → Option (System S D V P Sub)
  | .change outside =>
    some { s with
      outside := outside
      since := fun id => s.since id ++ (outside.resolveSource id).toList }
  | .register definition =>
    (s.runtime.register definition).map fun runtime => { s with runtime := runtime }
  | .invalidate projection key =>
    some { s with
      runtime := s.runtime.invalidate projection key
      since := Function.update s.since (projection, key)
        (s.outside.resolveSource (projection, key)).toList }
  | .beginTransaction => some { s with runtime := s.runtime.beginTransaction }
  | .endTransaction =>
    if 0 < s.runtime.transactionDepth then some { s with runtime := s.runtime.endTransaction }
    else none
  | .getSnapshot id =>
    let called := s.runtime.getSnapshot s.outside id
    some (s.issue called.runtime called.delivered none .snapshot called.result.toList)
  | .replaceSubscriptions subscriber requested =>
    let called := s.runtime.replaceSubscriptions s.outside subscriber requested
    some (s.issue called.runtime called.delivered (some subscriber) .snapshot
      called.result.snapshots)
  | .resync subscriber id =>
    let called := s.runtime.resync s.outside subscriber id
    some (s.issue called.runtime called.delivered (some subscriber) .resynced
      called.result.toList)
  | .removeSubscriber subscriber =>
    some { s with runtime := s.runtime.removeSubscriber subscriber }
  | .removeKey id => some { s with runtime := s.runtime.removeKey id }
  | .flush =>
    let called := s.runtime.flush s.outside
    some (s.issue called.runtime called.delivered none .snapshot [])

end System

/-- The runs of a runtime that was just constructed. -/
def runtimeRuns (S D V P Sub : Type) [DecidableEq Sub] [JsonSized V] [JsonSized P]
    (generation : JsString) (maxValueBytes maxSubscriptions : Nat) (outside : Outside S Sub) :
    Machine (System S D V P Sub) (Call S D V P Sub) where
  start :=
    { runtime :=
        { generation := generation
          maxValueBytes := maxValueBytes
          maxSubscriptionsPerSubscriber := maxSubscriptions }
      outside := outside
      since := fun id => (outside.resolveSource id).toList }
  step := System.step

end Takode.SyncedProjection
