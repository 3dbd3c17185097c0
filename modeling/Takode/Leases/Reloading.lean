import Takode.Leases.Store

/-!
# What is saved is read back

Of a file whose records the reader has no reason to drop, the writer writes every record, and
the reader gives the file back. The properties of a record come back in the order in which
`Object.entries` lists them.
-/

namespace Takode.Leases

open JsString

/-! ## Records that are kept -/

/-- Metadata that is trimmed, with nothing empty in it. -/
def Trimmed (metadata : Record JsString) : Prop :=
  ∀ k v, metadata.get? k = some v → (trim k = k ∧ k ≠ []) ∧ (trim v = v ∧ v ≠ [])

/-- What the reader checks of a lease. -/
structure StoredLease.Keepable (lease : StoredLease) : Prop where
  resourceKey : trim lease.resourceKey ≠ []
  slot : 1 ≤ lease.slot ∧ lease.slot ≤ 2 ^ 53 - 1
  ownerSessionId : trim lease.ownerSessionId ≠ []
  questId : lease.questId ≠ some []
  purpose : trim lease.purpose ≠ []
  metadata : Trimmed lease.metadata
  acquiredAt : 0 < lease.acquiredAt
  heartbeatAt : 0 < lease.heartbeatAt
  ttlMs : 0 < lease.ttlMs
  expiresAt : 0 < lease.expiresAt

/-- What the reader checks of a waiter in the queue of a pool. -/
structure StoredWaiter.Keepable (resourceKey : JsString) (waiter : StoredWaiter) : Prop where
  id : trim waiter.id ≠ []
  resourceKey : waiter.resourceKey = resourceKey
  waiterSessionId : trim waiter.waiterSessionId ≠ []
  questId : waiter.questId ≠ some []
  purpose : trim waiter.purpose ≠ []
  metadata : Trimmed waiter.metadata
  queuedAt : 0 < waiter.queuedAt
  ttlMs : 0 < waiter.ttlMs

/-- What the reader checks of a file. -/
structure ResourceLeaseFile.Keepable (file : ResourceLeaseFile) : Prop where
  capacities : ∀ k n, file.capacities.get? k = some n → 1 ≤ n ∧ n ≤ 2 ^ 53 - 1
  nextWaiterId : 1 ≤ file.nextWaiterId
  leases : ∀ lease ∈ file.leases, lease.Keepable
  waiters : ∀ k queue, file.waiters.get? k = some queue →
    k ≠ js "__proto__" ∧ queue ≠ [] ∧ ∀ waiter ∈ queue, waiter.Keepable k

/-- The lease with its metadata in the order in which it is listed. -/
def StoredLease.canonical (lease : StoredLease) : StoredLease :=
  { lease with metadata := lease.metadata.canonical }

def StoredWaiter.canonical (waiter : StoredWaiter) : StoredWaiter :=
  { waiter with metadata := waiter.metadata.canonical }

/-- The file with every record in the order in which it is listed. -/
def ResourceLeaseFile.canonical (file : ResourceLeaseFile) : ResourceLeaseFile where
  capacities := file.capacities.canonical
  nextWaiterId := file.nextWaiterId
  leases := file.leases.map StoredLease.canonical
  waiters := Record.canonical (file.waiters.map fun _ queue => queue.map StoredWaiter.canonical)

namespace ResourceLeaseStore

variable {toText : JsonValue → JsString} {lease : StoredLease} {waiter : StoredWaiter}
  {file : ResourceLeaseFile} {k : JsString}

/-! ## Single fields -/

theorem filledText_string {text : JsString} (filled : trim text ≠ []) :
    filledText (some (.string text)) = some text := by
  simp [filledText, filled]

theorem optionalText_map {text : Option JsString} (filled : text ≠ some []) :
    optionalText (text.map .string) = text := by
  cases text with
  | none => rfl
  | some text =>
    have filled : text ≠ [] := fun empty => filled (congrArg some empty)
    simp [optionalText, filled]

theorem finitePositive_number {value : ℚ} (positive : 0 < value) :
    finitePositive (some (number value)) = some value := if_pos positive

theorem positiveSafeInteger_number {n : Nat} (safe : 1 ≤ n ∧ n ≤ 2 ^ 53 - 1) :
    positiveSafeInteger (some (number n)) = some n := by
  have positive : (0 : ℚ) < n := Nat.cast_pos.mpr safe.1
  have small : -(2 ^ 53 - 1) ≤ (n : ℤ) ∧ (n : ℤ) ≤ 2 ^ 53 - 1 := by omega
  have guard : ((JsNumber.finite n).isSafeInteger && (JsNumber.finite n).gt 0) = true := by
    simp only [JsNumber.isSafeInteger, Rat.den_natCast, Rat.num_natCast, small, JsNumber.gt,
      positive, decide_true, and_self, Bool.and_self]
  show (if _ then _ else _) = _
  rw [if_pos guard]
  simp [JsNumber.floor]

theorem positiveInteger_number {n : Nat} (positive : 1 ≤ n) :
    positiveInteger (some (number n)) = some n := by
  have positive : (0 : ℚ) < n := Nat.cast_pos.mpr positive
  simp only [positiveInteger, number, Rat.den_natCast, decide_true, positive, Bool.and_self,
    if_true, Rat.num_natCast, Int.toNat_natCast]

theorem normalizeMetadata_json {metadata : Record JsString} (trimmed : Trimmed metadata) :
    normalizeMetadata toText (some (metadataJson metadata)) = metadata.canonical := by
  show Record.ofEntries (List.filter _ (List.map _ (JsonValue.entries (.object _)))) = _
  rw [JsonValue.entries_object metadata .string, List.map_map]
  have same : metadata.ownEntries.map ((fun e : JsString × JsonValue =>
      (trim e.1, trim (metadataText toText e.2))) ∘ fun e => (e.1, .string e.2)) =
      metadata.ownEntries := by
    refine (List.map_congr_left fun e listed => ?_).trans (List.map_id _)
    obtain ⟨⟨key, -⟩, value, -⟩ := trimmed e.1 e.2 (Record.mem_ownEntries.mp listed)
    exact Prod.ext key value
  rw [same, List.filter_eq_self.mpr]
  · rfl
  · intro e listed
    obtain ⟨⟨-, key⟩, -, value⟩ := trimmed e.1 e.2 (Record.mem_ownEntries.mp listed)
    simp [key, value]

/-! ## Records -/

theorem leaseMembers_nodup (lease : StoredLease) : ((leaseMembers lease).map Prod.fst).Nodup := by
  show [js "resourceKey", js "slot", js "ownerSessionId", js "questId", js "purpose",
    js "metadata", js "acquiredAt", js "heartbeatAt", js "ttlMs", js "expiresAt"].Nodup
  decide +kernel

theorem waiterMembers_nodup (waiter : StoredWaiter) :
    ((waiterMembers waiter).map Prod.fst).Nodup := by
  show [js "id", js "resourceKey", js "waiterSessionId", js "questId", js "purpose",
    js "metadata", js "queuedAt", js "ttlMs"].Nodup
  decide +kernel

theorem fileMembers_nodup (file : ResourceLeaseFile) :
    ((fileMembers file).map Prod.fst).Nodup := by
  show [js "version", js "capacities", js "nextWaiterId", js "leases", js "waiters"].Nodup
  decide +kernel

theorem normalizeLease_json (keepable : lease.Keepable) :
    normalizeLease toText true (leaseJson lease) = some lease.canonical := by
  have reads : ∀ m ∈ leaseMembers lease, (leaseJson lease).get m.1 = m.2 := fun m listed =>
    JsonValue.get_fields (leaseMembers_nodup lease) listed
  simp only [leaseMembers, List.forall_mem_cons] at reads
  obtain ⟨resourceKey, slot, ownerSessionId, questId, purpose, metadata, acquiredAt, heartbeatAt,
    ttlMs, expiresAt, -⟩ := reads
  simp only [normalizeLease, resourceKey, filledText_string keepable.resourceKey, slot,
    positiveSafeInteger_number keepable.slot, ownerSessionId,
    filledText_string keepable.ownerSessionId, questId, optionalText_map keepable.questId, purpose,
    filledText_string keepable.purpose, metadata, normalizeMetadata_json keepable.metadata,
    acquiredAt, finitePositive_number keepable.acquiredAt, heartbeatAt,
    finitePositive_number keepable.heartbeatAt, ttlMs, finitePositive_number keepable.ttlMs,
    expiresAt, finitePositive_number keepable.expiresAt, Option.bind_eq_bind, Option.bind_some,
    Option.getD_some, if_true]
  rfl

theorem normalizeWaiter_json (keepable : waiter.Keepable k) :
    normalizeWaiter toText k (waiterJson waiter) = some waiter.canonical := by
  have reads : ∀ m ∈ waiterMembers waiter, (waiterJson waiter).get m.1 = m.2 := fun m listed =>
    JsonValue.get_fields (waiterMembers_nodup waiter) listed
  simp only [waiterMembers, List.forall_mem_cons] at reads
  obtain ⟨id, -, waiterSessionId, questId, purpose, metadata, queuedAt, ttlMs, -⟩ := reads
  simp only [normalizeWaiter, id, filledText_string keepable.id, waiterSessionId,
    filledText_string keepable.waiterSessionId, questId, optionalText_map keepable.questId, purpose,
    filledText_string keepable.purpose, metadata, normalizeMetadata_json keepable.metadata,
    queuedAt, finitePositive_number keepable.queuedAt, ttlMs, finitePositive_number keepable.ttlMs,
    Option.bind_eq_bind, Option.bind_some, Option.getD_some]
  rw [← keepable.resourceKey]
  rfl

theorem filterMap_json {α : Type} {read : JsonValue → Option α} {write : α → JsonValue}
    {canonical : α → α} {items : List α}
    (kept : ∀ a ∈ items, read (write a) = some (canonical a)) :
    (items.map write).filterMap read = items.map canonical := by
  rw [List.filterMap_map, ← List.filterMap_eq_map]
  exact List.filterMap_congr kept

theorem normalizeWaiters_json (keepable : file.Keepable) :
    normalizeWaiters toText (some (.object (file.waiters.ownEntries.map fun e =>
      (e.1, .array (e.2.map waiterJson))))) = file.canonical.waiters := by
  have entries := JsonValue.entries_object file.waiters fun queue => .array (queue.map waiterJson)
  show List.foldl _ _ (JsonValue.entries (.object _)) = _
  rw [entries]
  show _ = Record.ofEntries (Record.ownEntries _)
  rw [Record.ownEntries_map, Record.ofEntries, List.foldl_map, List.foldl_map]
  refine List.foldl_ext _ _ _ fun normalized e listed => ?_
  obtain ⟨plain, filled, kept⟩ := keepable.waiters e.1 e.2 (Record.mem_ownEntries.mp listed)
  have read : (e.2.map waiterJson).filterMap (normalizeWaiter toText e.1) =
      e.2.map StoredWaiter.canonical :=
    filterMap_json fun waiter inside => normalizeWaiter_json (kept waiter inside)
  have used : ((e.2.map StoredWaiter.canonical).isEmpty || decide (e.1 = js "__proto__")) = false := by
    simp [filled, plain]
  simp only [JsonValue.asArray, read, used, Bool.false_eq_true, if_false]

/-! ## Files -/

theorem normalizeResourceLeaseFile_json (keepable : file.Keepable) :
    normalizeResourceLeaseFile toText (fileJson file) = file.canonical := by
  have reads : ∀ m ∈ fileMembers file, (fileJson file).get m.1 = m.2 := fun m listed =>
    JsonValue.get_fields (fileMembers_nodup file) listed
  simp only [fileMembers, List.forall_mem_cons] at reads
  obtain ⟨version, capacities, nextWaiterId, leases, waiters, -⟩ := reads
  have sizes : (file.capacities.ownEntries.map fun e => (e.1, number e.2)).filterMap
      (fun e => (positiveSafeInteger (some e.2)).map fun capacity => (e.1, capacity)) =
        file.capacities.ownEntries := by
    rw [List.filterMap_map]
    refine (List.filterMap_congr fun e listed => ?_).trans List.filterMap_some
    have safe := keepable.capacities e.1 e.2 (Record.mem_ownEntries.mp listed)
    show (positiveSafeInteger (some (number e.2))).map _ = _
    rw [positiveSafeInteger_number safe]
    rfl
  have kept : (file.leases.map leaseJson).filterMap (normalizeLease toText true) =
      file.leases.map StoredLease.canonical :=
    filterMap_json fun lease listed => normalizeLease_json (keepable.leases lease listed)
  simp only [normalizeResourceLeaseFile, version, capacities, nextWaiterId, leases, waiters,
    decide_true, if_true, Option.map_some, Option.getD_some, Option.bind_some, JsonValue.asArray,
    JsonValue.entries_object file.capacities fun n : Nat => number n, sizes,
    positiveInteger_number keepable.nextWaiterId, kept, normalizeWaiters_json keepable]
  rfl

theorem metadataJson_canonical (metadata : Record JsString) :
    metadataJson metadata.canonical = metadataJson metadata := by
  rw [metadataJson, Record.ownEntries_canonical]
  rfl

theorem leaseJson_canonical (lease : StoredLease) : leaseJson lease.canonical = leaseJson lease := by
  simp only [leaseJson, leaseMembers, StoredLease.canonical, metadataJson_canonical]

theorem waiterJson_canonical (waiter : StoredWaiter) :
    waiterJson waiter.canonical = waiterJson waiter := by
  simp only [waiterJson, waiterMembers, StoredWaiter.canonical, metadataJson_canonical]

theorem fileJson_canonical (file : ResourceLeaseFile) : fileJson file.canonical = fileJson file := by
  have leases : file.canonical.leases.map leaseJson = file.leases.map leaseJson := by
    rw [ResourceLeaseFile.canonical, List.map_map]
    exact List.map_congr_left fun lease _ => leaseJson_canonical lease
  have queue (waiters : List StoredWaiter) :
      (waiters.map StoredWaiter.canonical).map waiterJson = waiters.map waiterJson := by
    rw [List.map_map]
    exact List.map_congr_left fun waiter _ => waiterJson_canonical waiter
  have waiters : (file.canonical.waiters.ownEntries.map fun e =>
      (e.1, JsonValue.array (e.2.map waiterJson))) =
        file.waiters.ownEntries.map fun e => (e.1, .array (e.2.map waiterJson)) := by
    rw [ResourceLeaseFile.canonical, Record.ownEntries_canonical, Record.ownEntries_map,
      List.map_map]
    exact List.map_congr_left fun e _ => Prod.ext rfl (congrArg JsonValue.array (queue e.2))
  have capacities : file.canonical.capacities.ownEntries = file.capacities.ownEntries :=
    Record.ownEntries_canonical
  simp only [fileJson, fileMembers, leases, waiters, capacities]
  rfl

theorem save_eq (keepable : file.Keepable) : save toText file = fileJson file := by
  rw [save, normalizeResourceLeaseFile_json keepable, fileJson_canonical]

theorem load_save (keepable : file.Keepable) :
    load toText (some (save toText file)) = file.canonical := by
  rw [save_eq keepable]
  exact normalizeResourceLeaseFile_json keepable

end ResourceLeaseStore

end Takode.Leases
