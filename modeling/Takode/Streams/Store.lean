import Takode.Lib.JsMap
import Takode.Streams.Records

/-!
# What the operations on streams compute

`createStream`, `updateStream`, `archiveStream` and `migrateSessionGroupStreams`, each
from what it has loaded to what it saves and returns. A reading of the clock is the next
one of a list.
-/

namespace Takode.Streams

open JsString

/-- `loadScopeFile`, of what is stored at the path of the scope. -/
def loadScopeFile (scope path : JsString) (stored : Option StreamScopeFile) :
    Except JsString StreamScopeFile :=
  match stored with
  | none => .ok (emptyScopeFile scope)
  | some data =>
    match data.streams.mapM (normalizeStoredStream scope) with
    | .ok streams => .ok ⟨scope, if data.nextId > 0 then data.nextId else streams.length + 1, streams⟩
    | .error detail =>
      .error (js "Failed to load stream scope " ++ scope ++ js " from " ++ path ++ js ": " ++ detail)

def streamScopeForSessionGroup (groupId : JsString) (serverId : Option JsString) : JsString :=
  let server := (truthy (serverId.map trim)).getD (js "local")
  let group := if (trim groupId).isEmpty then js "default" else trim groupId
  server ++ js ":session-group:" ++ group

structure StreamCreateInput where
  title : JsString
  description : Option JsString := none
  tags : Option (List JsString) := none
  scope : JsString
  status : Option JsString := none
  summary : Option JsString := none
  health : Option JsString := none
  parent : Option JsString := none
  links : Option (List StreamLink) := none
  owners : Option (List StreamOwner) := none
  pinnedFacts : Option (List JsString) := none
deriving DecidableEq

/-- The first line of `createStream`. -/
def StreamCreateInput.check (input : StreamCreateInput) : Except JsString Unit :=
  if (trim input.title).isEmpty then .error (js "Stream title is required") else .ok ()

/-- `createStream` between its load and its save. -/
def createStream (data : StreamScopeFile) (input : StreamCreateInput) (clock : List Nat) :
    Except JsString (StreamScopeFile × StreamRecord) := do
  let now := clock.headD 0
  let status ← normalizeStatus input.status (js "active")
  let stream : StreamRecord :=
    { id := js "s-" ++ decimal data.nextId
      slug := uniqueSlug input.title data.streams none
      title := trim input.title
      description := truthy (input.description.map trim)
      tags := input.tags.map fun tags => (tags.map trim).filter fun tag => !tag.isEmpty
      scope := data.scope
      status
      createdAt := now
      updatedAt := now
      parentId := truthy (input.parent.map trim)
      current := { summary := (input.summary.map trim).getD [], health := normalizeText input.health }
      links := normalizeLinks input.links
      owners := mergeOwners none input.owners }
  let (stream, _) := addPinnedFacts stream (input.pinnedFacts.getD []) none clock.tail
  return ({ data with streams := data.streams ++ [stream], nextId := data.nextId + 1 }, stream)

structure StreamUpdateInput where
  streamRef : JsString
  scope : JsString
  type : JsString
  text : JsString
  authorSessionId : Option JsString := none
  source : Option JsString := none
  confidence : Option JsString := none
  status : Option JsString := none
  statePatch : Option StreamStatePatch := none
  links : Option (List StreamLink) := none
  artifacts : Option (List JsString) := none
  pins : Option (List JsString) := none
  staleFacts : Option (List JsString) := none
  supersedes : Option (List JsString) := none
  owners : Option (List StreamOwner) := none
deriving DecidableEq

/-- What `updateStream` makes of the stream that it has found. -/
def StreamRecord.update (stream : StreamRecord) (input : StreamUpdateInput) (clock : List Nat) :
    Except JsString StreamRecord := do
  let now := clock.headD 0
  let type ← normalizeEntryType input.type
  let statePatch := normalizeStatePatch input.statePatch
  let links := normalizeLinks input.links
  let (stream, pins) := addPinnedFacts stream (input.pins.getD []) input.source clock.tail
  let stream := markStaleFacts stream input.staleFacts input.supersedes
  let stream := { stream with current := (statePatch.map stream.current.patched).getD stream.current }
  let status ← normalizeStatus input.status stream.status
  let archived := (truthy input.status).isSome && status = js "archived"
  return { stream with
    status
    archivedAt := if archived then some now else stream.archivedAt
    links := mergeLinks stream.links links
    owners := mergeOwners stream.owners input.owners
    timeline := stream.timeline ++ [
      { id := js "e-" ++ decimal (stream.timeline.length + 1)
        type
        text := trim input.text
        ts := now
        authorSessionId := truthy input.authorSessionId
        source := truthy input.source
        confidence := truthy input.confidence
        links
        artifacts := nonEmpty (input.artifacts.getD [])
        pins := nonEmpty pins
        staleFacts := nonEmpty (input.staleFacts.getD [])
        supersedes := nonEmpty (input.supersedes.getD [])
        statePatch }]
    updatedAt := now }

/-- `updateStream` between its load and its save, or `null`. -/
def updateStream (data : StreamScopeFile) (input : StreamUpdateInput) (clock : List Nat) :
    Except JsString (Option (StreamScopeFile × StreamRecord)) :=
  match data.streams.findIdx? fun stream => streamMatchesRef stream input.streamRef with
  | none => .ok none
  | some index =>
    match data.streams[index]? with
    | none => .ok none
    | some stream => do
      let stream ← stream.update input clock
      return some ({ data with streams := data.streams.set index stream }, stream)

/-- The input that `archiveStream` gives to `updateStream`. -/
def archiveStream (ref scope : JsString) (reason : Option JsString) : StreamUpdateInput :=
  { streamRef := ref, scope, type := js "state-change",
    text := (truthy (reason.map trim)).getD (js "Archived stream"), status := some (js "archived") }

/-- `serverId` is the one of the environment if the input has none. -/
structure SessionGroupStreamMigrationInput where
  sourceGroupId : JsString
  destinationGroupId : JsString
  sourceGroupName : Option JsString := none
  serverId : Option JsString := none
deriving DecidableEq

namespace SessionGroupStreamMigrationInput

variable (input : SessionGroupStreamMigrationInput)

def sourceScope : JsString := streamScopeForSessionGroup input.sourceGroupId input.serverId
def destinationScope : JsString := streamScopeForSessionGroup input.destinationGroupId input.serverId

/-- `sourceGroupName` of `migrateSessionGroupStreams`. -/
def groupName : JsString :=
  (normalizeText input.sourceGroupName).getD
    ((normalizeText (some input.sourceGroupId)).getD (js "default"))

end SessionGroupStreamMigrationInput

structure SessionGroupStreamMigrationResult where
  sourceScope : JsString
  destinationScope : JsString
  migratedCount : Nat
  renamedCount : Nat
deriving DecidableEq

/-- The variables of the loop of `migrateSessionGroupStreams`. -/
structure Migration where
  nextId : Nat
  existingTitles : List JsString
  idMap : JsMap JsString JsString := {}
  slugMap : JsMap JsString JsString := {}
  migratedStreams : List StreamRecord := []
  renamedCount : Nat := 0

/-- One turn of the loop. -/
def Migration.migrate (destination : StreamScopeFile) (sourceGroupName : JsString) (m : Migration)
    (sourceStream : StreamRecord) : Migration :=
  let (title, existingTitles) :=
    uniqueMigratedTitle sourceStream.title m.existingTitles sourceGroupName
  let migrated : StreamRecord :=
    { sourceStream with
      id := js "s-" ++ decimal m.nextId
      title
      scope := destination.scope
      slug := uniqueSlug title (destination.streams ++ m.migratedStreams) none }
  { nextId := m.nextId + 1
    existingTitles
    idMap := m.idMap.set sourceStream.id migrated.id
    slugMap := m.slugMap.set sourceStream.slug migrated.slug
    migratedStreams := m.migratedStreams ++ [migrated]
    renamedCount := if title ≠ sourceStream.title then m.renamedCount + 1 else m.renamedCount }

/-- `remapStreamRef`. -/
def Migration.remapStreamRef (m : Migration) (ref : JsString) : JsString :=
  if ref.isEmpty then ref
  else (truthy (m.idMap.get? ref)).getD ((truthy (m.slugMap.get? ref)).getD ref)

def Migration.remapLinks (m : Migration) (links : Option (List StreamLink)) :
    Option (List StreamLink) :=
  links.map fun links => links.map fun link =>
    if link.type = js "stream" then { link with ref := m.remapStreamRef link.ref } else link

/-- The references of a migrated stream are led to the new ids and slugs. -/
def Migration.remap (m : Migration) (migrated : StreamRecord) : StreamRecord :=
  { migrated with
    parentId := migrated.parentId.map m.remapStreamRef
    childIds := migrated.childIds.map fun ids => ids.map m.remapStreamRef
    links := m.remapLinks migrated.links
    timeline := migrated.timeline.map fun entry => { entry with links := m.remapLinks entry.links } }

/-- `migrateSessionGroupStreams` between its loads and its saves: what it saves of the destination
and of the source, and its result. -/
def migrateSessionGroupStreams (source destination : StreamScopeFile)
    (input : SessionGroupStreamMigrationInput) :
    StreamScopeFile × StreamScopeFile × SessionGroupStreamMigrationResult :=
  let m := source.streams.foldl (Migration.migrate destination input.groupName)
    { nextId := destination.nextId, existingTitles := destination.streams.map (·.title) }
  ({ destination with
      nextId := m.nextId, streams := destination.streams ++ m.migratedStreams.map m.remap },
    { source with streams := [] },
    ⟨input.sourceScope, input.destinationScope, m.migratedStreams.length, m.renamedCount⟩)

end Takode.Streams
