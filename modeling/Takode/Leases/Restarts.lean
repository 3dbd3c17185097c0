import Takode.Leases.Alike

/-!
# Restarts

The manager with its file. A call saves the data where `persistIfNeeded` is told of a change, and
a restart loads the file. While no save has failed, nobody can tell that there was a restart. The
sweep that a start makes is a call of its own.
-/

namespace Takode.Leases

open JsString ResourceLeaseStore

/-! ## Loading -/

/-- A number of the file as a time of the manager, which are whole. -/
def wholeNumber (value : ℚ) : Option Nat :=
  if value.den = 1 && decide (0 ≤ value.num) then some value.num.toNat else none

/-- The number in the id of a waiter, as `addWaiter` numbers them. -/
def waiterNumber : JsString → Option Nat
  | 119 :: digits => if decimal (digitsValue digits) = digits then some (digitsValue digits) else none
  | _ => none

def StoredLease.lease? (lease : StoredLease) : Option ResourceLease := do
  let acquiredAt ← wholeNumber lease.acquiredAt
  let heartbeatAt ← wholeNumber lease.heartbeatAt
  let ttlMs ← wholeNumber lease.ttlMs
  let expiresAt ← wholeNumber lease.expiresAt
  return {
    resourceKey := lease.resourceKey
    slot := lease.slot
    ownerSessionId := lease.ownerSessionId
    questId := lease.questId
    purpose := lease.purpose
    metadata := lease.metadata
    acquiredAt, heartbeatAt, ttlMs, expiresAt }

def StoredWaiter.waiter? (waiter : StoredWaiter) : Option ResourceLeaseWaiter := do
  let id ← waiterNumber waiter.id
  let queuedAt ← wholeNumber waiter.queuedAt
  let ttlMs ← wholeNumber waiter.ttlMs
  return {
    id
    resourceKey := waiter.resourceKey
    waiterSessionId := waiter.waiterSessionId
    questId := waiter.questId
    purpose := waiter.purpose
    metadata := waiter.metadata
    queuedAt, ttlMs }

/-- The manager that loads a file which a manager wrote. The components of the server register
again when they are built, and what happened before the restart has happened. -/
def ResourceLeaseFile.manager (file : ResourceLeaseFile) (m : ResourceLeaseManager) :
    ResourceLeaseManager :=
  { m with
    capacities := file.capacities
    nextWaiterId := file.nextWaiterId
    leases := file.leases.filterMap StoredLease.lease?
    waiters := file.waiters.map fun _ queue => queue.filterMap StoredWaiter.waiter? }

/-! ## Saving -/

namespace ResourceLeaseManager

variable (m : ResourceLeaseManager) (toLowerCase : JsString → JsString)

/-- The save of `persistIfNeeded(this.expireDueLeases(now))`: what it is given, and whether it
succeeds. -/
def expirySaves (now : Nat) (saved : Bool) : List (ResourceLeaseManager × Bool) :=
  if (m.expireDueLeases now).2 then [((m.expireDueLeases now).1, saved)] else []

/-- The saves of `acquire`. -/
def acquireSaves (input : AcquireInput) (now now' : Nat) (saved : Bool) :
    List (ResourceLeaseManager × Bool) :=
  match normalizeAcquireInput toLowerCase input with
  | .error _ => []
  | .ok normalized =>
    let (expired, changed) := m.expireDueLeases now
    let (after, result) := expired.acquireLoaded normalized now'
    let save := changed || match result with
      | .acquired .. | .queued .. => true
      | .alreadyOwned .. | .unavailable .. => false
    if save then [(after, saved)] else []

/-- The saves of `configure`. -/
def configureSaves (resourceKeyInput : JsString) (capacity : JsNumber) (now now' : Nat)
    (saved saved' : Bool) : List (ResourceLeaseManager × Bool) :=
  match normalizeResourceKey toLowerCase resourceKeyInput with
  | .error _ => []
  | .ok resourceKey =>
    if !capacity.isSafeInteger || capacity.lt 1 then []
    else
      let (expired, changed) := m.expireDueLeases now
      if changed && !saved then m.expirySaves now saved
      else
        let highestHeld := ((expired.getLeases resourceKey).map ResourceLease.slot).foldl max 0
        if capacity.floor < highestHeld then m.expirySaves now saved
        else if expired.capacities.get? resourceKey = some capacity.floor then
          m.expirySaves now saved
        else
          let resized : ResourceLeaseManager :=
            { expired with capacities := expired.capacities.set resourceKey capacity.floor }
          m.expirySaves now saved ++ [((resized.promoteWaiters resourceKey now').1, saved')]

/-- The saves of `renew`. -/
def renewSaves (resourceKeyInput callerSessionIdInput : JsString)
    (slotInput ttlInput : Option JsNumber) (now now' : Nat) (saved saved' : Bool) :
    List (ResourceLeaseManager × Bool) :=
  let inputs : Except Failure (JsString × JsString × Option Nat × Option Nat) := do
    let resourceKey ← normalizeResourceKey toLowerCase resourceKeyInput
    let callerSessionId ← normalizeSessionId callerSessionIdInput
    let slot ← m.validateSlot resourceKey slotInput
    let ttlMs ← normalizeTtlMs ttlInput
    return (resourceKey, callerSessionId, slot, ttlMs)
  match inputs with
  | .error _ => []
  | .ok (resourceKey, callerSessionId, slot, _) =>
    let (expired, changed) := m.expireDueLeases now
    if changed && !saved then m.expirySaves now saved
    else
      match expired.selectLease resourceKey callerSessionId slot "renew" false with
      | .error _ => m.expirySaves now saved
      | .ok _ =>
        m.expirySaves now saved ++
          [((m.renew toLowerCase resourceKeyInput callerSessionIdInput slotInput ttlInput now now'
            saved saved').manager, saved')]

/-- The saves of `release`. -/
def releaseSaves (resourceKeyInput callerSessionIdInput : JsString) (force : Bool)
    (slotInput : Option JsNumber) (now now' : Nat) (saved saved' : Bool) :
    List (ResourceLeaseManager × Bool) :=
  let inputs : Except Failure (JsString × JsString × Option Nat) := do
    let resourceKey ← normalizeResourceKey toLowerCase resourceKeyInput
    let callerSessionId ← normalizeSessionId callerSessionIdInput
    let slot ← m.validateSlot resourceKey slotInput
    if force && slot.isNone && 1 < m.getCapacity resourceKey then
      throw (invalid "Force release requires --slot for a multi-slot pool")
    return (resourceKey, callerSessionId, slot)
  match inputs with
  | .error _ => []
  | .ok (resourceKey, callerSessionId, slot) =>
    let (expired, changed) := if force then (m, false) else m.expireDueLeases now
    let first := if force then [] else m.expirySaves now saved
    if changed && !saved then first
    else
      match expired.selectLease resourceKey callerSessionId
          (if force then some (slot.getD 1) else slot) "release" force with
      | .error _ => first
      | .ok _ =>
        first ++ [((m.release toLowerCase resourceKeyInput callerSessionIdInput force slotInput now
          now' saved saved').manager, saved')]

/-- The save of `withdraw`. -/
def withdrawSaves (resourceKeyInput callerSessionIdInput : JsString) (saved : Bool) :
    List (ResourceLeaseManager × Bool) :=
  let inputs : Except Failure (JsString × JsString) := do
    let resourceKey ← normalizeResourceKey toLowerCase resourceKeyInput
    let callerSessionId ← normalizeSessionId callerSessionIdInput
    return (resourceKey, callerSessionId)
  match inputs with
  | .error _ => []
  | .ok (resourceKey, callerSessionId) =>
    let waiters := m.getWaiters resourceKey
    let remaining := waiters.filter fun w => w.waiterSessionId ≠ callerSessionId
    if remaining.length = waiters.length then []
    else
      [((m.withdraw toLowerCase resourceKeyInput callerSessionIdInput saved).manager, saved)]

/-- The save of `getStatus`. -/
def getStatusSaves (resourceKeyInput : JsString) (now : Nat) (saved : Bool) :
    List (ResourceLeaseManager × Bool) :=
  match normalizeResourceKey toLowerCase resourceKeyInput with
  | .error _ => []
  | .ok _ => m.expirySaves now saved

/-- The saves of an operation. `swept` is whether the save of a sweep succeeds. -/
def saves (swept : Bool) : Operation → List (ResourceLeaseManager × Bool)
  | .registerSystemOwner _ => []
  | .acquire input now now' saved => m.acquireSaves toLowerCase input now now' saved
  | .wait input now now' saved =>
    m.acquireSaves toLowerCase { input with waitIfUnavailable := true } now now' saved
  | .configure resourceKey capacity now now' saved saved' =>
    m.configureSaves toLowerCase resourceKey capacity now now' saved saved'
  | .renew resourceKey callerSessionId slot ttlMs now now' saved saved' =>
    m.renewSaves toLowerCase resourceKey callerSessionId slot ttlMs now now' saved saved'
  | .release resourceKey callerSessionId force slot now now' saved saved' =>
    m.releaseSaves toLowerCase resourceKey callerSessionId force slot now now' saved saved'
  | .withdraw resourceKey callerSessionId saved =>
    m.withdrawSaves toLowerCase resourceKey callerSessionId saved
  | .getStatus resourceKey now saved => m.getStatusSaves toLowerCase resourceKey now saved
  | .sweepExpiredNow now => m.expirySaves now swept

end ResourceLeaseManager

/-! ## Answers -/

/-- What a call returns or how it fails, as its JSON lists it. -/
inductive Result where
  | none
  | acquire (result : Except Failure AcquireResult)
  | status (result : Except Failure ResourceLeaseStatus)
  | lease (result : Except Failure ResourceLease)
  | release (result : Except Failure ReleaseResult)
  | withdraw (result : Except Failure Bool)
  deriving DecidableEq

/-- What an operation lets the outside see. -/
structure Answer where
  result : Result
  notices : List Notification
  deriving DecidableEq

def ResourceLeaseManager.result (toLowerCase : JsString → JsString) (m : ResourceLeaseManager) :
    Operation → Result
  | .registerSystemOwner _ | .sweepExpiredNow _ => .none
  | .acquire input now now' saved =>
    .acquire ((m.acquire toLowerCase input now now' saved).result.map AcquireResult.canonical)
  | .wait input now now' saved =>
    .acquire ((m.wait toLowerCase input now now' saved).result.map AcquireResult.canonical)
  | .configure resourceKey capacity now now' saved saved' =>
    .status ((m.configure toLowerCase resourceKey capacity now now' saved saved').result.map
      ResourceLeaseStatus.canonical)
  | .renew resourceKey callerSessionId slot ttlMs now now' saved saved' =>
    .lease ((m.renew toLowerCase resourceKey callerSessionId slot ttlMs now now' saved
      saved').result.map ResourceLease.canonical)
  | .release resourceKey callerSessionId force slot now now' saved saved' =>
    .release ((m.release toLowerCase resourceKey callerSessionId force slot now now' saved
      saved').result.map ReleaseResult.canonical)
  | .withdraw resourceKey callerSessionId saved =>
    .withdraw (m.withdraw toLowerCase resourceKey callerSessionId saved).result
  | .getStatus resourceKey now saved =>
    .status ((m.getStatus toLowerCase resourceKey now saved).result.map
      ResourceLeaseStatus.canonical)

def ResourceLeaseManager.answer (toLowerCase : JsString → JsString) (m : ResourceLeaseManager)
    (operation : Operation) : Answer where
  result := m.result toLowerCase operation
  notices := ((m.perform toLowerCase operation).notified.drop m.notified.length).map
    Notification.canonical

/-! ## The server -/

structure Server where
  manager : ResourceLeaseManager
  disk : Option JsonValue

inductive Event where
  | call (operation : Operation) (swept : Bool)
  | restart

/-- The clock shows a time after 1970. -/
def Event.Timely : Event → Prop
  | .call operation _ => operation.Timely
  | .restart => True

section Server

variable (toText : JsonValue → JsString) (toLowerCase : JsString → JsString)

/-- The file after a save. One that fails leaves it as it was. -/
def writeFile (disk : Option JsonValue) (written : ResourceLeaseManager × Bool) :
    Option JsonValue :=
  if written.2 then some (save toText written.1.file) else disk

def Server.step (s : Server) : Event → Server
  | .call operation swept =>
    ⟨s.manager.perform toLowerCase operation,
      (s.manager.saves toLowerCase swept operation).foldl (writeFile toText) s.disk⟩
  | .restart => ⟨(load toText s.disk).manager s.manager, s.disk⟩

/-- The runs of a server from its first start. -/
def serverRuns (start : Server) : Machine Server Event where
  start := start
  step := fun s event => some (s.step toText toLowerCase event)

/-- The answers of the calls among the events. -/
def Server.answers (s : Server) : List Event → List Answer
  | [] => []
  | .call operation swept :: rest =>
    s.manager.answer toLowerCase operation ::
      Server.answers (s.step toText toLowerCase (.call operation swept)) rest
  | .restart :: rest => Server.answers (s.step toText toLowerCase .restart) rest

/-- No save of an event fails. -/
def Server.Saved (s : Server) : Event → Prop
  | .call operation swept =>
    ∀ written ∈ s.manager.saves toLowerCase swept operation, written.2 = true
  | .restart => True

end Server

end Takode.Leases
