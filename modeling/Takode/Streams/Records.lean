import Takode.Lib.FreshNames

/-!
# Streams and the files of their scopes

The records of `stream-types.ts`, and what `stream-store.ts` does to their fields before
it stores them. A type that is a union of texts is a text, as it is when it is checked.
-/

namespace Takode.Streams

open JsString

structure StreamLink where
  type : JsString
  ref : JsString
  label : Option JsString := none
deriving DecidableEq

structure StreamOwner where
  ref : JsString
  role : Option JsString := none
  steeringMode : Option JsString := none
deriving DecidableEq

structure StreamPinnedFact where
  id : JsString
  text : JsString
  status : Option JsString
  source : Option JsString := none
  createdAt : Nat
  lastVerifiedAt : Option JsString := none
  supersededBy : Option JsString := none
deriving DecidableEq

/-- `Partial<StreamCurrentState>`. -/
structure StreamStatePatch where
  summary : Option JsString := none
  health : Option JsString := none
  operationalStatus : Option JsString := none
  paperworkStatus : Option JsString := none
  blockedOn : Option JsString := none
  nextCheckAt : Option JsString := none
  lastVerifiedAt : Option JsString := none
  openDecisions : Option (List JsString) := none
  knownStaleFacts : Option (List JsString) := none
  activeTimers : Option (List JsString) := none
deriving DecidableEq

structure StreamCurrentState where
  summary : JsString
  health : Option JsString := none
  operationalStatus : Option JsString := none
  paperworkStatus : Option JsString := none
  blockedOn : Option JsString := none
  nextCheckAt : Option JsString := none
  lastVerifiedAt : Option JsString := none
  openDecisions : Option (List JsString) := none
  knownStaleFacts : Option (List JsString) := none
  activeTimers : Option (List JsString) := none
deriving DecidableEq

structure StreamTimelineEntry where
  id : JsString
  type : JsString
  text : JsString
  ts : Nat
  authorSessionId : Option JsString := none
  source : Option JsString := none
  confidence : Option JsString := none
  links : Option (List StreamLink) := none
  artifacts : Option (List JsString) := none
  pins : Option (List JsString) := none
  staleFacts : Option (List JsString) := none
  supersedes : Option (List JsString) := none
  statePatch : Option StreamStatePatch := none
deriving DecidableEq

structure StreamRecord where
  id : JsString
  slug : JsString
  title : JsString
  description : Option JsString := none
  tags : Option (List JsString) := none
  scope : JsString
  status : JsString
  createdAt : Nat
  updatedAt : Nat
  archivedAt : Option Nat := none
  parentId : Option JsString := none
  childIds : Option (List JsString) := none
  current : StreamCurrentState
  links : Option (List StreamLink) := none
  owners : Option (List StreamOwner) := none
  pinnedFacts : Option (List StreamPinnedFact) := none
  timeline : List StreamTimelineEntry := []
deriving DecidableEq

structure StreamScopeFile where
  scope : JsString
  nextId : Nat
  streams : List StreamRecord
deriving DecidableEq

def emptyScopeFile (scope : JsString) : StreamScopeFile := ⟨scope, 1, []⟩

def VALID_STATUSES : List JsString :=
  [js "active", js "paused", js "blocked", js "archived", js "superseded"]

def VALID_ENTRY_TYPES : List JsString :=
  [js "state-change", js "decision", js "artifact", js "metric", js "alert", js "contradiction",
    js "supersession", js "handoff", js "ownership", js "verification", js "note"]

/-- `value || undefined`. -/
def truthy (value : Option JsString) : Option JsString := value.filter fun s => !s.isEmpty

/-- `result.length ? result : undefined`. -/
def nonEmpty {α : Type} (result : List α) : Option (List α) :=
  if result.isEmpty then none else some result

/-- `text.toLowerCase()`, as far as what is left of it in a slug goes: the other letters stay outside
of `a-z`. -/
def lower (text : JsString) : JsString :=
  text.flatMap fun c =>
    if 65 ≤ c && c ≤ 90 then [c + 32]
    else if c = 0x130 then [105, 0x307]
    else if c = 0x212a then [107]
    else [c]

def isSlugChar (c : UInt16) : Bool := (97 ≤ c && c ≤ 122) || isDigit c

/-- `replace(/[^a-z0-9]+/g, "-")`; `inside` says that the run of other characters has begun. -/
def dashed : Bool → JsString → JsString
  | _, [] => []
  | inside, c :: rest =>
    if isSlugChar c then c :: dashed false rest
    else if inside then dashed true rest
    else 45 :: dashed true rest

/-- `replace(/^-+|-+$/g, "")`. -/
def stripDashes (text : JsString) : JsString :=
  ((text.dropWhile (· = 45)).reverse.dropWhile (· = 45)).reverse

def normalizeSlug (text : JsString) : JsString :=
  let slug := (stripDashes (dashed false (lower text))).take 64
  if slug.isEmpty then js "stream" else slug

theorem normalizeSlug_ne_nil (text : JsString) : normalizeSlug text ≠ [] := by
  unfold normalizeSlug
  simp only
  split
  · decide
  · rename_i filled
    simpa using filled

def uniqueSlug (title : JsString) (streams : List StreamRecord) (ignoreId : Option JsString) :
    JsString :=
  firstFree (fun slug => streams.any fun stream => some stream.id ≠ ignoreId && stream.slug = slug)
    (normalizeSlug title) streams.length

/-- The title, and the titles that exist with it. -/
def uniqueMigratedTitle (title : JsString) (existingTitles : List JsString)
    (sourceGroupName : JsString) : JsString × List JsString :=
  let normalizedTitle := if (trim title).isEmpty then js "Stream" else trim title
  if existingTitles.contains normalizedTitle then
    let group := if (trim sourceGroupName).isEmpty then js "default" else trim sourceGroupName
    let candidate := firstFree existingTitles.contains (group ++ js "-" ++ normalizedTitle)
      existingTitles.length
    (candidate, candidate :: existingTitles)
  else (normalizedTitle, normalizedTitle :: existingTitles)

def streamMatchesRef (stream : StreamRecord) (ref : JsString) : Bool :=
  stream.id = ref || stream.slug = ref || stream.title = ref

def normalizeStatus (status : Option JsString) (fallback : JsString) : Except JsString JsString :=
  match truthy status with
  | none => .ok fallback
  | some status =>
    if VALID_STATUSES.contains status then .ok status
    else .error (js "Invalid stream status: " ++ status)

def normalizeEntryType (type : JsString) : Except JsString JsString :=
  if VALID_ENTRY_TYPES.contains type then .ok type
  else .error (js "Invalid stream update type: " ++ type)

def normalizeLinks (links : Option (List StreamLink)) : Option (List StreamLink) :=
  nonEmpty (((links.getD []).map fun link =>
    { link with ref := trim link.ref, label := truthy (link.label.map trim) }).filter
      fun link => !link.ref.isEmpty)

/-- The loop of `mergeLinks`, with the keys that it has seen. -/
def unseenLinks (seen : List JsString) : List StreamLink → List StreamLink
  | [] => []
  | link :: rest =>
    let key := link.type ++ [0] ++ link.ref
    if seen.contains key then unseenLinks seen rest
    else link :: unseenLinks (key :: seen) rest

def mergeLinks (existing incoming : Option (List StreamLink)) : Option (List StreamLink) :=
  nonEmpty (unseenLinks [] (existing.getD [] ++ incoming.getD []))

/-- One turn of the loop of `mergeOwners`. -/
def mergeOwner (result : List StreamOwner) (owner : StreamOwner) : List StreamOwner :=
  let ref := trim owner.ref
  if ref.isEmpty then result
  else
    let normalized : StreamOwner := ⟨ref, truthy (owner.role.map trim), owner.steeringMode⟩
    match result.findIdx? fun item => item.ref = ref with
    | none => result ++ [normalized]
    | some index => result.set index normalized

def mergeOwners (existing incoming : Option (List StreamOwner)) : Option (List StreamOwner) :=
  nonEmpty ((incoming.getD []).foldl mergeOwner (existing.getD []))

/-- The number of a fact's id `pf-<number>`. -/
def pinnedFactNumber (id : JsString) : Option Nat :=
  let digits := id.drop 3
  if startsWith id (js "pf-") && !digits.isEmpty && digits.all isDigit then some (digitsValue digits)
  else none

def nextPinnedFactId (stream : StreamRecord) : JsString :=
  js "pf-" ++ decimal (((stream.pinnedFacts.getD []).foldl
    (fun acc fact => ((pinnedFactNumber fact.id).map (max acc)).getD acc) 0) + 1)

/-- The facts are added one after another, each at its reading of the clock. -/
def addPinnedFacts (stream : StreamRecord) : List JsString → Option JsString → List Nat →
    StreamRecord × List JsString
  | [], _, _ => (stream, [])
  | raw :: texts, source, clock =>
    let text := trim raw
    if text.isEmpty then addPinnedFacts stream texts source clock
    else
      let fact : StreamPinnedFact :=
        { id := nextPinnedFactId stream, text, status := some (js "active"),
          createdAt := clock.headD 0, source := truthy source }
      let (stream, pins) := addPinnedFacts
        { stream with pinnedFacts := some (stream.pinnedFacts.getD [] ++ [fact]) } texts source
        clock.tail
      (stream, fact.id :: pins)

def markStaleFacts (stream : StreamRecord) (staleFacts supersedes : Option (List JsString)) :
    StreamRecord :=
  { stream with
    pinnedFacts := stream.pinnedFacts.map fun facts => facts.map fun fact =>
      if (staleFacts.getD []).contains fact.id || (staleFacts.getD []).contains fact.text then
        { fact with
          status := some (js "superseded"), supersededBy := supersedes.bind (·.head?) }
      else fact }

def normalizeTexts (values : Option (List JsString)) : Option (List JsString) :=
  values.bind fun values => nonEmpty ((values.map trim).filter fun s => !s.isEmpty)

def normalizeText (value : Option JsString) : Option JsString := truthy (value.map trim)

/-- The values of the patch, each for itself. -/
def StreamStatePatch.normalized (patch : StreamStatePatch) : StreamStatePatch where
  summary := normalizeText patch.summary
  health := normalizeText patch.health
  operationalStatus := normalizeText patch.operationalStatus
  paperworkStatus := normalizeText patch.paperworkStatus
  blockedOn := normalizeText patch.blockedOn
  nextCheckAt := normalizeText patch.nextCheckAt
  lastVerifiedAt := normalizeText patch.lastVerifiedAt
  openDecisions := normalizeTexts patch.openDecisions
  knownStaleFacts := normalizeTexts patch.knownStaleFacts
  activeTimers := normalizeTexts patch.activeTimers

def normalizeStatePatch (patch : Option StreamStatePatch) : Option StreamStatePatch :=
  (patch.map (·.normalized)).filter fun result => result ≠ {}

/-- `{ ...stream.current, ...statePatch }`. -/
def StreamCurrentState.patched (current : StreamCurrentState) (patch : StreamStatePatch) :
    StreamCurrentState where
  summary := patch.summary.getD current.summary
  health := patch.health.or current.health
  operationalStatus := patch.operationalStatus.or current.operationalStatus
  paperworkStatus := patch.paperworkStatus.or current.paperworkStatus
  blockedOn := patch.blockedOn.or current.blockedOn
  nextCheckAt := patch.nextCheckAt.or current.nextCheckAt
  lastVerifiedAt := patch.lastVerifiedAt.or current.lastVerifiedAt
  openDecisions := patch.openDecisions.or current.openDecisions
  knownStaleFacts := patch.knownStaleFacts.or current.knownStaleFacts
  activeTimers := patch.activeTimers.or current.activeTimers

def normalizeFactStatus (status : Option JsString) : JsString :=
  match status with
  | some status =>
    if [js "active", js "superseded", js "disputed", js "needs-verification"].contains status then
      status
    else js "active"
  | none => js "active"

def normalizePinnedFacts (facts : Option (List StreamPinnedFact)) :
    Option (List StreamPinnedFact) :=
  nonEmpty (((facts.getD []).map fun fact =>
    { fact with text := trim fact.text, status := some (normalizeFactStatus fact.status) }).filter
      fun fact => !fact.text.isEmpty)

def normalizeStoredStream (scope : JsString) (raw : StreamRecord) : Except JsString StreamRecord := do
  let status ← normalizeStatus (some raw.status) (js "active")
  return { raw with
    scope, status,
    slug := if raw.slug.isEmpty then normalizeSlug raw.title else raw.slug
    current := { raw.current with summary := trim raw.current.summary }
    links := normalizeLinks raw.links
    owners := mergeOwners none raw.owners
    pinnedFacts := normalizePinnedFacts raw.pinnedFacts }

end Takode.Streams
