import Takode.Lib.JsValue
import Takode.Lib.Machine

/-!
# Resource leases

`ResourceLeaseManager` (`resource-lease-manager.ts`): pools of slots that
sessions lease, with a queue for each pool. Calls run one at a time. A call is
given what `Date.now()` answers in it and whether its saves succeed; a save that
fails rejects the call but undoes nothing. Left out are the file on disk, the
text of messages, and the navigation rows that are published again.
-/

namespace Takode.Leases

/-- `ResourceLease`. -/
structure ResourceLease where
  resourceKey : JsString
  slot : Nat
  ownerSessionId : JsString
  questId : Option JsString
  purpose : JsString
  metadata : Record JsString
  acquiredAt : Nat
  heartbeatAt : Nat
  ttlMs : Nat
  expiresAt : Nat
  deriving DecidableEq

/-- `ResourceLeaseWaiter`. `id` is the number in the text of its id. -/
structure ResourceLeaseWaiter where
  id : Nat
  resourceKey : JsString
  waiterSessionId : JsString
  questId : Option JsString
  purpose : JsString
  metadata : Record JsString
  queuedAt : Nat
  ttlMs : Nat
  deriving DecidableEq

/-- `ResourceLeaseAcquireInput`. -/
structure AcquireInput where
  resourceKey : JsString
  callerSessionId : JsString
  questId : Option JsString := none
  purpose : JsString
  metadata : Option (Record JsString) := none
  ttlMs : Option JsNumber := none
  waitIfUnavailable : Bool := false

/-- What `normalizeAcquireInput` returns. -/
structure NormalizedInput where
  resourceKey : JsString
  callerSessionId : JsString
  questId : Option JsString
  purpose : JsString
  metadata : Record JsString
  ttlMs : Nat
  waitIfUnavailable : Bool

inductive ErrorCode where
  | invalid
  | notFound
  | forbidden
  | conflict
  deriving DecidableEq

/-- How a call fails: a `ResourceLeaseError`, or a save that failed. -/
inductive Failure where
  | error (code : ErrorCode) (message : JsString)
  | store
  deriving DecidableEq

/-! ## Inputs -/

def MAX_PURPOSE_LENGTH : Nat := 300
def MAX_RESOURCE_KEY_LENGTH : Nat := 120
def MIN_TTL_MS : Nat := 5000
def MAX_TTL_MS : Nat := 24 * 60 * 60000
def DEFAULT_RESOURCE_LEASE_TTL_MS : Nat := 30 * 60000

def invalid (message : String) : Failure := .error .invalid (js message)

/-- The first character of a key, or of a host name in it. -/
def isKeyStart (c : UInt16) : Bool := (97 ≤ c && c ≤ 122) || (48 ≤ c && c ≤ 57)

/-- The other characters of a key. -/
def isKeyPart (c : UInt16) : Bool := isKeyStart c || c ∈ js "._:/-"

/-- The other characters of a host name. -/
def isHostPart (c : UInt16) : Bool := isKeyStart c || c ∈ js "._-"

/-- The pattern of `normalizeResourceKey` (`:527`): a key, and a host name after an `@`. -/
def isResourceKey (key : JsString) : Bool :=
  (key.head?.any isKeyStart) &&
    match key.dropWhile isKeyPart with
    | [] => true
    | [_] => false
    | sign :: c :: rest => sign == 64 && isKeyStart c && rest.all isHostPart

section Normalize

-- `String.prototype.toLowerCase`, whatever it does.
variable (toLowerCase : JsString → JsString)

def normalizeResourceKey (resourceKey : JsString) : Except Failure JsString :=
  let key := toLowerCase resourceKey.trim
  if key.isEmpty then .error (invalid "resource key is required")
  else if MAX_RESOURCE_KEY_LENGTH < key.length then
    .error (invalid "resource key must be 120 characters or less")
  else if !isResourceKey key then
    .error (invalid ("resource key must use letters, numbers, dot, underscore, colon, slash, " ++
      "or hyphen, optionally followed by @<host>"))
  else .ok key

def normalizeSessionId (sessionId : JsString) : Except Failure JsString :=
  if sessionId.trim.isEmpty then .error (invalid "session id is required") else .ok sessionId.trim

def normalizeQuestId (questId : Option JsString) : Except Failure (Option JsString) :=
  let normalized := questId.map fun id => toLowerCase id.trim
  match normalized.filter (!·.isEmpty) with
  | none => .ok none
  | some id =>
    if id.take 2 == js "q-" && id.length > 2 && (id.drop 2).all JsString.isDigit then .ok (some id)
    else .error (invalid "questId must match q-N")

def normalizeTtlMs (ttlMs : Option JsNumber) : Except Failure (Option Nat) :=
  match ttlMs with
  | none => .ok none
  | some ttl =>
    if ttl = .notFinite || ttl.lt MIN_TTL_MS || ttl.gt MAX_TTL_MS then
      .error (invalid "ttlMs must be between 5000 and 86400000 milliseconds")
    else .ok (some ttl.floor)

def normalizeMetadata (metadata : Option (Record JsString)) : Record JsString :=
  match metadata with
  | none => ∅
  | some record =>
    let entries := record.ownKeys.filterMap fun key =>
      (record.get? key).map fun value => (key.trim, value.trim)
    ((entries.filter fun (key, value) => !key.isEmpty && !value.isEmpty).take 20).foldl
      (fun r (key, value) => r.set key value) ∅

def normalizeAcquireInput (input : AcquireInput) : Except Failure NormalizedInput := do
  let purpose := input.purpose.trim
  if purpose.isEmpty then throw (invalid "purpose is required")
  if MAX_PURPOSE_LENGTH < purpose.length then
    throw (invalid "purpose must be 300 characters or less")
  let questId ← normalizeQuestId toLowerCase input.questId
  let resourceKey ← normalizeResourceKey toLowerCase input.resourceKey
  let callerSessionId ← normalizeSessionId input.callerSessionId
  let ttlMs ← normalizeTtlMs input.ttlMs
  return {
    resourceKey := resourceKey
    callerSessionId := callerSessionId
    questId := questId
    purpose := purpose
    metadata := normalizeMetadata input.metadata
    ttlMs := ttlMs.getD DEFAULT_RESOURCE_LEASE_TTL_MS
    waitIfUnavailable := input.waitIfUnavailable }

end Normalize

/-! ## The manager -/

/-- One promotion and the one notification it makes: to the component whose prefix the owner has,
else to the session. -/
structure Notification where
  lease : ResourceLease
  queuedAt : Nat
  systemOwner : Option JsString
  deriving DecidableEq

/-- `ResourceLeaseManager` with its `ResourceLeaseFile`. The last three fields are history: every
waiter that joined a queue, the ids of those that withdrew, and who was promoted to what. -/
structure ResourceLeaseManager where
  capacities : Record Nat := ∅
  nextWaiterId : Nat := 1
  leases : List ResourceLease := []
  waiters : Record (List ResourceLeaseWaiter) := ∅
  systemOwners : JsMap JsString Unit := ∅
  notified : List Notification := []
  joined : List ResourceLeaseWaiter := []
  withdrawn : List Nat := []
  promoted : List (ResourceLeaseWaiter × ResourceLease) := []
  deriving DecidableEq

/-- `ResourceLeaseStatus`. -/
structure ResourceLeaseStatus where
  resourceKey : JsString
  capacity : Nat
  leases : List ResourceLease
  waiters : List ResourceLeaseWaiter
  available : Bool
  deriving DecidableEq

/-- `ResourceLeaseAcquireResult`. -/
inductive AcquireResult where
  | acquired (capacity : Nat) (lease : ResourceLease) (waiters : List ResourceLeaseWaiter)
  | alreadyOwned (capacity : Nat) (lease : ResourceLease) (waiters : List ResourceLeaseWaiter)
  | queued (pool : ResourceLeaseStatus) (waiter : ResourceLeaseWaiter) (position : Nat)
  | unavailable (pool : ResourceLeaseStatus)
  deriving DecidableEq

/-- `ResourceLeaseReleaseResult`. -/
structure ReleaseResult where
  released : ResourceLease
  promoted : Option ResourceLease
  waiters : List ResourceLeaseWaiter
  deriving DecidableEq

/-- What a call comes to. -/
structure Outcome (α : Type) where
  manager : ResourceLeaseManager
  result : Except Failure α

namespace ResourceLeaseManager

variable (m : ResourceLeaseManager)

def registerSystemOwner (start : JsString) : ResourceLeaseManager :=
  { m with systemOwners := m.systemOwners.set start () }

def getCapacity (resourceKey : JsString) : Nat := (m.capacities.get? resourceKey).getD 1

def getLeases (resourceKey : JsString) : List ResourceLease :=
  (m.leases.filter fun lease => lease.resourceKey = resourceKey).insertionSort
    fun a b => a.slot ≤ b.slot

def getWaiters (resourceKey : JsString) : List ResourceLeaseWaiter :=
  (m.waiters.get? resourceKey).getD []

def lowestFreeSlot (resourceKey : JsString) : Option Nat :=
  let occupied := (m.getLeases resourceKey).map ResourceLease.slot
  ((List.range (m.getCapacity resourceKey)).map (· + 1)).find? fun slot => !occupied.contains slot

def setWaiters (resourceKey : JsString) (waiters : List ResourceLeaseWaiter) :
    ResourceLeaseManager :=
  { m with waiters :=
      if waiters.isEmpty then m.waiters.delete resourceKey else m.waiters.set resourceKey waiters }

def buildStatus (resourceKey : JsString) : ResourceLeaseStatus :=
  let capacity := m.getCapacity resourceKey
  let leases := m.getLeases resourceKey
  let waiters := m.getWaiters resourceKey
  ⟨resourceKey, capacity, leases, waiters, leases.length < capacity && waiters.isEmpty⟩

/-- `notifyPromotedWaiter` (`:321-345`). -/
def notifyPromotedWaiter (lease : ResourceLease) (queuedAt : Nat) : ResourceLeaseManager :=
  { m with notified := m.notified ++
      [⟨lease, queuedAt, m.systemOwners.keys.find? lease.ownerSessionId.startsWith⟩] }

/-- The lease `createLease` makes of a waiter. -/
def leaseOfWaiter (waiter : ResourceLeaseWaiter) (slot now : Nat) : ResourceLease where
  resourceKey := waiter.resourceKey
  slot := slot
  ownerSessionId := waiter.waiterSessionId
  questId := waiter.questId
  purpose := waiter.purpose
  metadata := waiter.metadata
  acquiredAt := now
  heartbeatAt := now
  ttlMs := waiter.ttlMs
  expiresAt := now + waiter.ttlMs

/-- `createLease` of an input. -/
def createLease (input : NormalizedInput) (slot now : Nat) : ResourceLease where
  resourceKey := input.resourceKey
  slot := slot
  ownerSessionId := input.callerSessionId
  questId := input.questId
  purpose := input.purpose
  metadata := input.metadata
  acquiredAt := now
  heartbeatAt := now
  ttlMs := input.ttlMs
  expiresAt := now + input.ttlMs

/-- The loop of `promoteWaiters` (`:299-319`): what is left of the queue, and the new leases. -/
def promoteLoop (m : ResourceLeaseManager) (resourceKey : JsString) (now : Nat) :
    List ResourceLeaseWaiter → ResourceLeaseManager × List ResourceLeaseWaiter × List ResourceLease
  | [] => (m, [], [])
  | waiter :: rest =>
    match m.lowestFreeSlot resourceKey with
    | none => (m, waiter :: rest, [])
    | some slot =>
      let lease := leaseOfWaiter waiter slot now
      let taken : ResourceLeaseManager := { m with
        leases := m.leases ++ [lease], promoted := m.promoted ++ [(waiter, lease)] }
      let (after, left, leases) :=
        promoteLoop (taken.notifyPromotedWaiter lease waiter.queuedAt) resourceKey now rest
      (after, left, lease :: leases)

def promoteWaiters (resourceKey : JsString) (now : Nat) :
    ResourceLeaseManager × List ResourceLease :=
  let (after, left, leases) := m.promoteLoop resourceKey now (m.getWaiters resourceKey)
  (after.setWaiters resourceKey left, leases)

/-- The promotions of `expireDueLeases`, and whether there were any. -/
def promoteAll (m : ResourceLeaseManager) (now : Nat) : List JsString → ResourceLeaseManager × Bool
  | [] => (m, false)
  | resourceKey :: rest =>
    let (after, promoted) := m.promoteWaiters resourceKey now
    let (last, changed) := promoteAll after now rest
    (last, !promoted.isEmpty || changed)

/-- `expireDueLeases` (`:282-296`). -/
def expireDueLeases (now : Nat) : ResourceLeaseManager × Bool :=
  let expired := m.leases.filter fun lease => lease.expiresAt ≤ now
  let kept : ResourceLeaseManager :=
    { m with leases := m.leases.filter fun lease => now < lease.expiresAt }
  let (after, changed) := kept.promoteAll now m.waiters.ownKeys
  (after, !expired.isEmpty || changed)

/-- `addWaiter` (`:366-389`). -/
def addWaiter (input : NormalizedInput) (now : Nat) : ResourceLeaseManager × ResourceLeaseWaiter :=
  match (m.getWaiters input.resourceKey).find? fun w => w.waiterSessionId = input.callerSessionId with
  | some existing => (m, existing)
  | none =>
    let waiter : ResourceLeaseWaiter :=
      { id := m.nextWaiterId
        resourceKey := input.resourceKey
        waiterSessionId := input.callerSessionId
        questId := input.questId
        purpose := input.purpose
        metadata := input.metadata
        queuedAt := now
        ttlMs := input.ttlMs }
    let numbered : ResourceLeaseManager :=
      { m with nextWaiterId := m.nextWaiterId + 1, joined := m.joined ++ [waiter] }
    (numbered.setWaiters input.resourceKey (m.getWaiters input.resourceKey ++ [waiter]), waiter)

/-- `acquireLoaded` (`:256-280`). -/
def acquireLoaded (input : NormalizedInput) (now : Nat) : ResourceLeaseManager × AcquireResult :=
  let capacity := m.getCapacity input.resourceKey
  match (m.getLeases input.resourceKey).find? fun lease =>
      lease.ownerSessionId = input.callerSessionId with
  | some existing => (m, .alreadyOwned capacity existing (m.getWaiters input.resourceKey))
  | none =>
    match m.lowestFreeSlot input.resourceKey with
    | some slot =>
      let lease := createLease input slot now
      let after : ResourceLeaseManager := { m with leases := m.leases ++ [lease] }
      (after, .acquired capacity lease (after.getWaiters input.resourceKey))
    | none =>
      if !input.waitIfUnavailable then (m, .unavailable (m.buildStatus input.resourceKey))
      else
        let (after, waiter) := m.addWaiter input now
        let pool := after.buildStatus input.resourceKey
        (after, .queued pool waiter (pool.waiters.findIdx (·.id = waiter.id) + 1))

/-- `validateSlot` (`:413-418`). -/
def validateSlot (resourceKey : JsString) (slot : Option JsNumber) :
    Except Failure (Option Nat) :=
  match slot with
  | none => .ok none
  | some n =>
    if !n.isSafeInteger || n.lt 1 || n.gt (m.getCapacity resourceKey) then
      .error (invalid s!"slot must be between 1 and {m.getCapacity resourceKey}")
    else .ok (some n.floor)

/-- `selectLease` (`:420-445`). -/
def selectLease (resourceKey caller : JsString) (slot : Option Nat) (action : String)
    (force : Bool) : Except Failure ResourceLease :=
  let leases := m.getLeases resourceKey
  let lease : Option ResourceLease := match slot with
    | none => leases.find? fun entry => entry.ownerSessionId = caller
    | some slot => leases.find? fun entry => entry.slot = slot
  match lease with
  | none =>
    if slot.isSome || leases.isEmpty then
      .error (.error .notFound (js "No active lease for " ++ resourceKey ++
        (slot.map fun n => js s!" slot {n}").getD []))
    else
      let owner := match leases with
        | [only] => only.ownerSessionId
        | _ => js "the slot owner"
      .error (.error .forbidden (js "Only " ++ owner ++ js s!" can {action} " ++ resourceKey))
  | some lease =>
    if !force && lease.ownerSessionId ≠ caller then
      .error (.error .forbidden
        (js "Only " ++ lease.ownerSessionId ++ js s!" can {action} " ++ resourceKey))
    else .ok lease

section Calls

variable (toLowerCase : JsString → JsString)

/-- `acquire` (`:78-87`); `saved` is whether its save succeeds. -/
def acquire (input : AcquireInput) (now now' : Nat) (saved : Bool) : Outcome AcquireResult :=
  match normalizeAcquireInput toLowerCase input with
  | .error failure => ⟨m, .error failure⟩
  | .ok normalized =>
    let (expired, changed) := m.expireDueLeases now
    let (after, result) := expired.acquireLoaded normalized now'
    let save := changed || match result with
      | .acquired .. | .queued .. => true
      | .alreadyOwned .. | .unavailable .. => false
    if save && !saved then ⟨after, .error .store⟩ else ⟨after, .ok result⟩

/-- `wait` (`:89-91`). -/
def wait (input : AcquireInput) (now now' : Nat) (saved : Bool) : Outcome AcquireResult :=
  m.acquire toLowerCase { input with waitIfUnavailable := true } now now' saved

/-- `configure` (`:93-119`). -/
def configure (resourceKeyInput : JsString) (capacity : JsNumber) (now now' : Nat)
    (saved saved' : Bool) : Outcome ResourceLeaseStatus :=
  match normalizeResourceKey toLowerCase resourceKeyInput with
  | .error failure => ⟨m, .error failure⟩
  | .ok resourceKey =>
    if !capacity.isSafeInteger || capacity.lt 1 then
      ⟨m, .error (invalid "capacity must be a positive safe integer")⟩
    else
      let (expired, changed) := m.expireDueLeases now
      if changed && !saved then ⟨expired, .error .store⟩
      else
        let highestHeld := ((expired.getLeases resourceKey).map ResourceLease.slot).foldl max 0
        if capacity.floor < highestHeld then
          ⟨expired, .error (.error .conflict (js
            s!"Capacity cannot drop below held slot {highestHeld}; lower it after that slot is released"))⟩
        else if expired.capacities.get? resourceKey = some capacity.floor then
          ⟨expired, .ok (expired.buildStatus resourceKey)⟩
        else
          let resized : ResourceLeaseManager :=
            { expired with capacities := expired.capacities.set resourceKey capacity.floor }
          let (after, _) := resized.promoteWaiters resourceKey now'
          if saved' then ⟨after, .ok (after.buildStatus resourceKey)⟩ else ⟨after, .error .store⟩

/-- `renew` (`:121-137`). -/
def renew (resourceKeyInput callerSessionIdInput : JsString) (slotInput ttlInput : Option JsNumber)
    (now now' : Nat) (saved saved' : Bool) : Outcome ResourceLease :=
  let inputs : Except Failure (JsString × JsString × Option Nat × Option Nat) := do
    let resourceKey ← normalizeResourceKey toLowerCase resourceKeyInput
    let callerSessionId ← normalizeSessionId callerSessionIdInput
    let slot ← m.validateSlot resourceKey slotInput
    let ttlMs ← normalizeTtlMs ttlInput
    return (resourceKey, callerSessionId, slot, ttlMs)
  match inputs with
  | .error failure => ⟨m, .error failure⟩
  | .ok (resourceKey, callerSessionId, slot, ttlMs) =>
    let (expired, changed) := m.expireDueLeases now
    if changed && !saved then ⟨expired, .error .store⟩
    else
      match expired.selectLease resourceKey callerSessionId slot "renew" false with
      | .error failure => ⟨expired, .error failure⟩
      | .ok lease =>
        let ttl := ttlMs.getD lease.ttlMs
        let renewed := { lease with heartbeatAt := now', ttlMs := ttl, expiresAt := now' + ttl }
        let after : ResourceLeaseManager := { expired with
          leases := expired.leases.map fun l => if l = lease then renewed else l }
        if saved' then ⟨after, .ok renewed⟩ else ⟨after, .error .store⟩

/-- `release` (`:139-162`). -/
def release (resourceKeyInput callerSessionIdInput : JsString) (force : Bool)
    (slotInput : Option JsNumber) (now now' : Nat) (saved saved' : Bool) : Outcome ReleaseResult :=
  let inputs : Except Failure (JsString × JsString × Option Nat) := do
    let resourceKey ← normalizeResourceKey toLowerCase resourceKeyInput
    let callerSessionId ← normalizeSessionId callerSessionIdInput
    let slot ← m.validateSlot resourceKey slotInput
    if force && slot.isNone && 1 < m.getCapacity resourceKey then
      throw (invalid "Force release requires --slot for a multi-slot pool")
    return (resourceKey, callerSessionId, slot)
  match inputs with
  | .error failure => ⟨m, .error failure⟩
  | .ok (resourceKey, callerSessionId, slot) =>
    let (expired, changed) := if force then (m, false) else m.expireDueLeases now
    if changed && !saved then ⟨expired, .error .store⟩
    else
      match expired.selectLease resourceKey callerSessionId
          (if force then some (slot.getD 1) else slot) "release" force with
      | .error failure => ⟨expired, .error failure⟩
      | .ok lease =>
        let freed : ResourceLeaseManager := { expired with leases := expired.leases.erase lease }
        let (after, promoted) := freed.promoteWaiters resourceKey now'
        if saved' then ⟨after, .ok ⟨lease, promoted.head?, after.getWaiters resourceKey⟩⟩
        else ⟨after, .error .store⟩

/-- `withdraw` (`:168-179`). -/
def withdraw (resourceKeyInput callerSessionIdInput : JsString) (saved : Bool) : Outcome Bool :=
  let inputs : Except Failure (JsString × JsString) := do
    let resourceKey ← normalizeResourceKey toLowerCase resourceKeyInput
    let callerSessionId ← normalizeSessionId callerSessionIdInput
    return (resourceKey, callerSessionId)
  match inputs with
  | .error failure => ⟨m, .error failure⟩
  | .ok (resourceKey, callerSessionId) =>
    let waiters := m.getWaiters resourceKey
    let remaining := waiters.filter fun w => w.waiterSessionId ≠ callerSessionId
    if remaining.length = waiters.length then ⟨m, .ok false⟩
    else
      let left := waiters.filter fun w => w.waiterSessionId = callerSessionId
      let recorded : ResourceLeaseManager :=
        { m with withdrawn := m.withdrawn ++ left.map ResourceLeaseWaiter.id }
      let after := recorded.setWaiters resourceKey remaining
      if saved then ⟨after, .ok true⟩ else ⟨after, .error .store⟩

/-- `getStatus` (`:200-207`). -/
def getStatus (resourceKeyInput : JsString) (now : Nat) (saved : Bool) :
    Outcome ResourceLeaseStatus :=
  match normalizeResourceKey toLowerCase resourceKeyInput with
  | .error failure => ⟨m, .error failure⟩
  | .ok resourceKey =>
    let (expired, changed) := m.expireDueLeases now
    if changed && !saved then ⟨expired, .error .store⟩
    else ⟨expired, .ok (expired.buildStatus resourceKey)⟩

/-- `sweepExpiredNow` (`:248-254`), whose outcome nobody reads. -/
def sweepExpiredNow (now : Nat) : ResourceLeaseManager := (m.expireDueLeases now).1

end Calls

end ResourceLeaseManager

/-! ## Runs -/

/-- A call of the manager with what it is given. -/
inductive Operation where
  | registerSystemOwner (start : JsString)
  | acquire (input : AcquireInput) (now now' : Nat) (saved : Bool)
  | wait (input : AcquireInput) (now now' : Nat) (saved : Bool)
  | configure (resourceKey : JsString) (capacity : JsNumber) (now now' : Nat) (saved saved' : Bool)
  | renew (resourceKey callerSessionId : JsString) (slot ttlMs : Option JsNumber) (now now' : Nat)
      (saved saved' : Bool)
  | release (resourceKey callerSessionId : JsString) (force : Bool) (slot : Option JsNumber)
      (now now' : Nat) (saved saved' : Bool)
  | withdraw (resourceKey callerSessionId : JsString) (saved : Bool)
  | getStatus (resourceKey : JsString) (now : Nat) (saved : Bool)
  | sweepExpiredNow (now : Nat)

/-- The manager after an operation. -/
def ResourceLeaseManager.perform (toLowerCase : JsString → JsString) (m : ResourceLeaseManager) :
    Operation → ResourceLeaseManager
  | .registerSystemOwner start => m.registerSystemOwner start
  | .acquire input now now' saved => (m.acquire toLowerCase input now now' saved).manager
  | .wait input now now' saved => (m.wait toLowerCase input now now' saved).manager
  | .configure resourceKey capacity now now' saved saved' =>
    (m.configure toLowerCase resourceKey capacity now now' saved saved').manager
  | .renew resourceKey callerSessionId slot ttlMs now now' saved saved' =>
    (m.renew toLowerCase resourceKey callerSessionId slot ttlMs now now' saved saved').manager
  | .release resourceKey callerSessionId force slot now now' saved saved' =>
    (m.release toLowerCase resourceKey callerSessionId force slot now now' saved saved').manager
  | .withdraw resourceKey callerSessionId saved =>
    (m.withdraw toLowerCase resourceKey callerSessionId saved).manager
  | .getStatus resourceKey now saved => (m.getStatus toLowerCase resourceKey now saved).manager
  | .sweepExpiredNow now => m.sweepExpiredNow now

/-- The runs of a manager from the empty file, at any times. -/
def leaseRuns (toLowerCase : JsString → JsString) : Machine ResourceLeaseManager Operation where
  start := {}
  step := fun m operation => some (m.perform toLowerCase operation)

end Takode.Leases
