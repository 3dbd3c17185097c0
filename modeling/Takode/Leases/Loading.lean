import Takode.Leases.Restarts

/-!
# Managers that load a file

A manager that loads the file of another one is alike to it, and managers that are alike have
the same file.
-/

namespace Takode.Leases

open JsString ResourceLeaseStore

variable {m m' : ResourceLeaseManager} {file : ResourceLeaseFile} {k : JsString} {now : Nat}

/-! ## Loading a file of its own -/

theorem wholeNumber_natCast (n : Nat) : wholeNumber n = some n := by
  simp only [wholeNumber, Rat.den_natCast, Rat.num_natCast, decide_true, Bool.true_and,
    Int.natCast_nonneg, if_true, Int.toNat_natCast]

theorem waiterNumber_decimal (n : Nat) : waiterNumber (js "w" ++ decimal n) = some n := by
  show (if decimal (digitsValue (decimal n)) = decimal n then some (digitsValue (decimal n))
    else none) = some n
  rw [digitsValue_decimal, if_pos rfl]

theorem lease?_stored (lease : ResourceLease) : lease.stored.lease? = some lease := by
  simp only [StoredLease.lease?, ResourceLease.stored, wholeNumber_natCast, Option.bind_eq_bind,
    Option.bind_some]
  rfl

theorem waiter?_stored (waiter : ResourceLeaseWaiter) : waiter.stored.waiter? = some waiter := by
  simp only [StoredWaiter.waiter?, ResourceLeaseWaiter.stored, waiterNumber_decimal,
    wholeNumber_natCast, Option.bind_eq_bind, Option.bind_some]
  rfl

theorem lease?_canonical (lease : StoredLease) :
    lease.canonical.lease? = lease.lease?.map ResourceLease.canonical := by
  simp only [StoredLease.lease?, StoredLease.canonical, Option.bind_eq_bind]
  cases wholeNumber lease.acquiredAt <;> try rfl
  cases wholeNumber lease.heartbeatAt <;> try rfl
  cases wholeNumber lease.ttlMs <;> try rfl
  cases wholeNumber lease.expiresAt <;> rfl

theorem waiter?_canonical (waiter : StoredWaiter) :
    waiter.canonical.waiter? = waiter.waiter?.map ResourceLeaseWaiter.canonical := by
  simp only [StoredWaiter.waiter?, StoredWaiter.canonical, Option.bind_eq_bind]
  cases waiterNumber waiter.id <;> try rfl
  cases wholeNumber waiter.queuedAt <;> try rfl
  cases wholeNumber waiter.ttlMs <;> rfl

theorem filterMap_decode {α β : Type} {decode : β → Option α} {encode : α → β}
    {canonicalA : α → α} {canonicalB : β → β} (decoded : ∀ a, decode (encode a) = some a)
    (moved : ∀ b, decode (canonicalB b) = (decode b).map canonicalA) {items : List α}
    {stored : List β} (same : stored.map canonicalB = (items.map encode).map canonicalB) :
    (stored.filterMap decode).map canonicalA = items.map canonicalA := by
  have turned (stored : List β) :
      (stored.map canonicalB).filterMap decode = (stored.filterMap decode).map canonicalA := by
    rw [List.filterMap_map, List.map_filterMap]
    exact List.filterMap_congr fun b _ => moved b
  rw [← turned, same, turned, List.filterMap_map]
  congr 1
  exact (List.filterMap_congr fun a _ => decoded a).trans List.filterMap_some

theorem ownKeys_canonical_waiters (file : ResourceLeaseFile) :
    file.canonical.waiters.ownKeys = file.waiters.ownKeys := by
  rw [ResourceLeaseFile.canonical, Record.ownKeys_canonical, Record.ownKeys_map]

theorem get?_canonical_waiters (file : ResourceLeaseFile) (k : JsString) :
    file.canonical.waiters.get? k =
      (file.waiters.get? k).map fun queue => queue.map StoredWaiter.canonical := by
  rw [ResourceLeaseFile.canonical, Record.get?_canonical, JsMap.get?_map]

theorem manager_alike (same : file.canonical = m.file.canonical) : (file.manager m).Alike m := by
  have capacities : file.capacities.canonical = m.capacities.canonical :=
    congrArg ResourceLeaseFile.capacities same
  have waiters : file.canonical.waiters = m.file.canonical.waiters :=
    congrArg ResourceLeaseFile.waiters same
  obtain ⟨sizes, values⟩ := Record.canonical_eq_iff.mp capacities
  refine ⟨sizes, values, congrArg ResourceLeaseFile.nextWaiterId same,
    filterMap_decode lease?_stored lease?_canonical (congrArg ResourceLeaseFile.leases same),
    ?_, fun k => ?_, rfl, rfl⟩
  · have keys := congrArg Record.ownKeys waiters
    rw [ownKeys_canonical_waiters, ownKeys_canonical_waiters] at keys
    show Record.ownKeys (JsMap.map _ _) = _
    rw [Record.ownKeys_map, keys]
    exact Record.ownKeys_map m.waiters _
  · have queues := congrArg (JsMap.get? · k) waiters
    simp only [get?_canonical_waiters] at queues
    unfold ResourceLeaseManager.getWaiters ResourceLeaseFile.manager
    dsimp only
    rw [JsMap.get?_map]
    have stored : m.file.waiters.get? k =
        (m.waiters.get? k).map fun queue => queue.map ResourceLeaseWaiter.stored :=
      JsMap.get?_map
    rw [stored] at queues
    cases one : file.waiters.get? k with
    | none =>
      cases other : m.waiters.get? k with
      | none => rfl
      | some queue =>
        rw [one, other] at queues
        cases queues
    | some queue =>
      cases other : m.waiters.get? k with
      | none =>
        rw [one, other] at queues
        cases queues
      | some queue' =>
        rw [one, other] at queues
        exact filterMap_decode waiter?_stored waiter?_canonical (Option.some.inj queues)

/-! ## Managers that are alike -/

theorem trimmed_canonical {metadata : Record JsString} :
    Trimmed metadata.canonical ↔ Trimmed metadata := by
  simp only [Trimmed, Record.get?_canonical]

theorem keepable_canonical {lease : ResourceLease} :
    lease.canonical.stored.Keepable ↔ lease.stored.Keepable :=
  ⟨fun kept => ⟨kept.resourceKey, kept.slot, kept.ownerSessionId, kept.questId, kept.purpose,
      trimmed_canonical.mp kept.metadata, kept.acquiredAt, kept.heartbeatAt, kept.ttlMs,
      kept.expiresAt⟩,
    fun kept => ⟨kept.resourceKey, kept.slot, kept.ownerSessionId, kept.questId, kept.purpose,
      trimmed_canonical.mpr kept.metadata, kept.acquiredAt, kept.heartbeatAt, kept.ttlMs,
      kept.expiresAt⟩⟩

theorem waiter_keepable_canonical {waiter : ResourceLeaseWaiter} :
    waiter.canonical.stored.Keepable k ↔ waiter.stored.Keepable k :=
  ⟨fun kept => ⟨kept.id, kept.resourceKey, kept.waiterSessionId, kept.questId, kept.purpose,
      trimmed_canonical.mp kept.metadata, kept.queuedAt, kept.ttlMs⟩,
    fun kept => ⟨kept.id, kept.resourceKey, kept.waiterSessionId, kept.questId, kept.purpose,
      trimmed_canonical.mpr kept.metadata, kept.queuedAt, kept.ttlMs⟩⟩

theorem Outcome.Alike.both {α : Type} {canonical : α → α} {one other : Outcome α}
    (same : one.Alike canonical other) (listed : Except Failure α → Result) :
    one.manager.Alike other.manager ∧
      listed (one.result.map canonical) = listed (other.result.map canonical) :=
  ⟨same.manager, congrArg listed same.result⟩

namespace ResourceLeaseManager

theorem Alike.get?_waiters (alike : m.Alike m') (k : JsString) :
    (m.waiters.get? k).map (List.map ResourceLeaseWaiter.canonical) =
      (m'.waiters.get? k).map (List.map ResourceLeaseWaiter.canonical) := by
  have listed : (∃ queue, m.waiters.get? k = some queue) ↔ ∃ queue, m'.waiters.get? k = some queue := by
    rw [← Record.mem_ownKeys, alike.queueKeys, Record.mem_ownKeys]
  have queues := alike.queues k
  unfold getWaiters at queues
  cases one : m.waiters.get? k with
  | none =>
    cases other : m'.waiters.get? k with
    | none => rfl
    | some queue' =>
      obtain ⟨_, found⟩ := listed.mpr ⟨queue', other⟩
      rw [one] at found
      cases found
  | some queue =>
    obtain ⟨queue', other⟩ := listed.mp ⟨queue, one⟩
    rw [one, other] at queues
    rw [other]
    exact congrArg some queues

theorem Alike.storable (alike : m.Alike m') (storable : m.Storable) : m'.Storable := by
  refine ⟨fun k n found => storable.capacities k n (alike.capacities k ▸ found),
    alike.nextWaiterId ▸ storable.nextWaiterId, fun lease held => ?_, fun k queue found => ?_, ?_⟩
  · have listed : lease.canonical ∈ m.leases.map ResourceLease.canonical :=
      alike.leases ▸ List.mem_map_of_mem held
    obtain ⟨other, held, same⟩ := List.mem_map.mp listed
    exact keepable_canonical.mp (same ▸ keepable_canonical.mpr (storable.leases other held))
  · have same := alike.get?_waiters k
    rw [found] at same
    obtain ⟨queue', found', equal⟩ := Option.map_eq_some_iff.mp same
    obtain ⟨plain, filled, kept⟩ := storable.waiters k queue' found'
    refine ⟨plain, fun empty => filled ?_, fun waiter inside => ?_⟩
    · subst empty
      exact List.map_eq_nil_iff.mp equal
    · have listed : waiter.canonical ∈ queue'.map ResourceLeaseWaiter.canonical :=
        equal ▸ List.mem_map_of_mem inside
      obtain ⟨other, inside, same⟩ := List.mem_map.mp listed
      exact waiter_keepable_canonical.mp
        (same ▸ waiter_keepable_canonical.mpr (kept other inside))
  · have apart : (m.leases.map ResourceLease.canonical).Pairwise fun a b =>
        a.resourceKey = b.resourceKey → a.slot ≠ b.slot := List.pairwise_map.mpr storable.slots
    rw [alike.leases] at apart
    exact List.pairwise_map.mp apart

theorem Alike.file_eq (alike : m.Alike m') : m.file.canonical = m'.file.canonical := by
  have capacities : m.capacities.canonical = m'.capacities.canonical :=
    Record.canonical_eq_iff.mpr ⟨alike.capacityKeys, alike.capacities⟩
  have turned (lease : ResourceLease) : lease.stored.canonical = lease.canonical.stored := rfl
  have leases : m.file.canonical.leases = m'.file.canonical.leases := by
    have same := congrArg (List.map ResourceLease.stored) alike.leases
    rw [List.map_map, List.map_map] at same
    show (m.leases.map _).map _ = (m'.leases.map _).map _
    rw [List.map_map, List.map_map]
    exact same
  have waiters : m.file.canonical.waiters = m'.file.canonical.waiters := by
    refine Record.canonical_eq_iff.mpr ⟨?_, fun k => ?_⟩
    · rw [Record.ownKeys_map, Record.ownKeys_map]
      show Record.ownKeys (JsMap.map _ _) = Record.ownKeys (JsMap.map _ _)
      rw [Record.ownKeys_map, Record.ownKeys_map]
      exact alike.queueKeys
    · have same := congrArg (Option.map (List.map ResourceLeaseWaiter.stored)) (alike.get?_waiters k)
      rw [JsMap.get?_map, JsMap.get?_map]
      show ((JsMap.get? (JsMap.map _ _) k).map _) = ((JsMap.get? (JsMap.map _ _) k).map _)
      rw [JsMap.get?_map, JsMap.get?_map]
      simp only [Option.map_map, Function.comp_def, List.map_map] at same ⊢
      exact same
  exact ResourceLeaseFile.ext capacities alike.nextWaiterId leases waiters

end ResourceLeaseManager

end Takode.Leases
