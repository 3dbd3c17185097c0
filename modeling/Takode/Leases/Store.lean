import Takode.Leases.Manager
import Takode.Lib.Json

/-!
# The file of the leases

`ResourceLeaseStore` (`resource-lease-store.ts`). The reader drops what it cannot use, and
the writer runs the same reader first. A file is the JSON value it holds.
-/

namespace Takode.Leases

open JsString

/-- `ResourceLease`, as a file may have it. -/
structure StoredLease where
  resourceKey : JsString
  slot : Nat
  ownerSessionId : JsString
  questId : Option JsString
  purpose : JsString
  metadata : Record JsString
  acquiredAt : ℚ
  heartbeatAt : ℚ
  ttlMs : ℚ
  expiresAt : ℚ
  deriving DecidableEq

/-- `ResourceLeaseWaiter`, as a file may have it. -/
structure StoredWaiter where
  id : JsString
  resourceKey : JsString
  waiterSessionId : JsString
  questId : Option JsString
  purpose : JsString
  metadata : Record JsString
  queuedAt : ℚ
  ttlMs : ℚ
  deriving DecidableEq

/-- `ResourceLeaseFile`. Its `version` is 2. -/
@[ext] structure ResourceLeaseFile where
  capacities : Record Nat
  nextWaiterId : Nat
  leases : List StoredLease
  waiters : Record (List StoredWaiter)
  deriving DecidableEq

namespace ResourceLeaseStore

def emptyResourceLeaseFile : ResourceLeaseFile := ⟨∅, 1, [], ∅⟩

/-! ## Writing -/

def number (value : ℚ) : JsonValue := .number (.finite value)

def metadataJson (metadata : Record JsString) : JsonValue :=
  .object (metadata.ownEntries.map fun e => (e.1, .string e.2))

def leaseMembers (lease : StoredLease) : List (JsString × Option JsonValue) := [
  (js "resourceKey", some (.string lease.resourceKey)),
  (js "slot", some (number lease.slot)),
  (js "ownerSessionId", some (.string lease.ownerSessionId)),
  (js "questId", lease.questId.map .string),
  (js "purpose", some (.string lease.purpose)),
  (js "metadata", some (metadataJson lease.metadata)),
  (js "acquiredAt", some (number lease.acquiredAt)),
  (js "heartbeatAt", some (number lease.heartbeatAt)),
  (js "ttlMs", some (number lease.ttlMs)),
  (js "expiresAt", some (number lease.expiresAt))]

def waiterMembers (waiter : StoredWaiter) : List (JsString × Option JsonValue) := [
  (js "id", some (.string waiter.id)),
  (js "resourceKey", some (.string waiter.resourceKey)),
  (js "waiterSessionId", some (.string waiter.waiterSessionId)),
  (js "questId", waiter.questId.map .string),
  (js "purpose", some (.string waiter.purpose)),
  (js "metadata", some (metadataJson waiter.metadata)),
  (js "queuedAt", some (number waiter.queuedAt)),
  (js "ttlMs", some (number waiter.ttlMs))]

def leaseJson (lease : StoredLease) : JsonValue := .fields (leaseMembers lease)

def waiterJson (waiter : StoredWaiter) : JsonValue := .fields (waiterMembers waiter)

def fileMembers (file : ResourceLeaseFile) : List (JsString × Option JsonValue) := [
  (js "version", some (number 2)),
  (js "capacities", some (.object (file.capacities.ownEntries.map fun e => (e.1, number e.2)))),
  (js "nextWaiterId", some (number file.nextWaiterId)),
  (js "leases", some (.array (file.leases.map leaseJson))),
  (js "waiters", some (.object (file.waiters.ownEntries.map fun e =>
    (e.1, .array (e.2.map waiterJson)))))]

/-- `JSON.parse(JSON.stringify(file))`. -/
def fileJson (file : ResourceLeaseFile) : JsonValue := .fields (fileMembers file)

/-! ## Reading -/

/-- A text that is not blank. -/
def filledText : Option JsonValue → Option JsString
  | some (.string text) => if (trim text).isEmpty then none else some text
  | _ => none

/-- A text that is not empty. -/
def optionalText : Option JsonValue → Option JsString
  | some (.string text) => if text.isEmpty then none else some text
  | _ => none

/-- A number for which `isFinitePositive` holds. -/
def finitePositive : Option JsonValue → Option ℚ
  | some (.number (.finite value)) => if 0 < value then some value else none
  | _ => none

/-- A safe integer above zero. -/
def positiveSafeInteger : Option JsonValue → Option Nat
  | some (.number n) => if n.isSafeInteger && n.gt 0 then some n.floor else none
  | _ => none

/-- An integer above zero. -/
def positiveInteger : Option JsonValue → Option Nat
  | some (.number (.finite value)) =>
    if value.den = 1 && decide (0 < value) then some value.num.toNat else none
  | _ => none

section Reading

-- `String(value)` of a value that is neither a string nor `null`, whatever it is.
variable (toText : JsonValue → JsString)

/-- `String(value ?? "")`. -/
def metadataText : JsonValue → JsString
  | .null => []
  | .string text => text
  | value => toText value

def normalizeMetadata (raw : Option JsonValue) : Record JsString :=
  match raw with
  | some (.object members) =>
    Record.ofEntries (((JsonValue.object members).entries.map fun e =>
      (trim e.1, trim (metadataText toText e.2))).filter fun e => !e.1.isEmpty && !e.2.isEmpty)
  | _ => ∅

def normalizeLease (counted : Bool) (raw : JsonValue) : Option StoredLease := do
  let resourceKey ← filledText (raw.get (js "resourceKey"))
  let ownerSessionId ← filledText (raw.get (js "ownerSessionId"))
  let purpose ← filledText (raw.get (js "purpose"))
  let acquiredAt ← finitePositive (raw.get (js "acquiredAt"))
  let heartbeatAt ← finitePositive (raw.get (js "heartbeatAt"))
  let ttlMs ← finitePositive (raw.get (js "ttlMs"))
  let expiresAt ← finitePositive (raw.get (js "expiresAt"))
  return {
    resourceKey
    slot := if counted then (positiveSafeInteger (raw.get (js "slot"))).getD 1 else 1
    ownerSessionId
    questId := optionalText (raw.get (js "questId"))
    purpose
    metadata := normalizeMetadata toText (raw.get (js "metadata"))
    acquiredAt
    heartbeatAt
    ttlMs
    expiresAt }

def normalizeWaiter (resourceKey : JsString) (raw : JsonValue) : Option StoredWaiter := do
  let id ← filledText (raw.get (js "id"))
  let waiterSessionId ← filledText (raw.get (js "waiterSessionId"))
  let purpose ← filledText (raw.get (js "purpose"))
  let queuedAt ← finitePositive (raw.get (js "queuedAt"))
  return {
    id
    resourceKey
    waiterSessionId
    questId := optionalText (raw.get (js "questId"))
    purpose
    metadata := normalizeMetadata toText (raw.get (js "metadata"))
    queuedAt
    ttlMs := (finitePositive (raw.get (js "ttlMs"))).getD (30 * 60000) }

def normalizeWaiters (raw : Option JsonValue) : Record (List StoredWaiter) :=
  match raw with
  | some (.object members) =>
    (JsonValue.object members).entries.foldl (fun normalized e =>
      match e.2.asArray with
      | none => normalized
      | some waiters =>
        let entries := waiters.filterMap (normalizeWaiter toText e.1)
        -- To assign `__proto__` adds no property.
        if entries.isEmpty || e.1 = js "__proto__" then normalized
        else normalized.set e.1 entries) ∅
  | _ => ∅

def normalizeResourceLeaseFile (raw : JsonValue) : ResourceLeaseFile :=
  let counted := raw.get (js "version") = some (number 2)
  { capacities :=
      if counted then
        Record.ofEntries ((((raw.get (js "capacities")).map (·.entries)).getD []).filterMap
          fun e => (positiveSafeInteger (some e.2)).map fun capacity => (e.1, capacity))
      else ∅
    nextWaiterId := (positiveInteger (raw.get (js "nextWaiterId"))).getD 1
    leases := (((raw.get (js "leases")).bind (·.asArray)).getD []).filterMap
      (normalizeLease toText counted)
    waiters := normalizeWaiters toText (raw.get (js "waiters")) }

/-- What `save` writes of the data it is given. -/
def save (data : ResourceLeaseFile) : JsonValue :=
  fileJson (normalizeResourceLeaseFile toText (fileJson data))

/-- `load`, of a file that is not there or does not parse (`none`), or of what it holds. -/
def load (disk : Option JsonValue) : ResourceLeaseFile :=
  (disk.map (normalizeResourceLeaseFile toText)).getD emptyResourceLeaseFile

end Reading

end ResourceLeaseStore

end Takode.Leases
