import Takode.Leases.Pools
import Takode.Leases.Reloading
import Takode.Lib.Except
import Takode.Lib.FreshNames

/-!
# What the manager has can be stored

The file of a manager's data, and what keeps the reader from dropping any of it: while the clock
reads a time after 1970, no operation brings anything into the data that the reader would drop.
-/

namespace Takode.Leases

open JsString ResourceLeaseStore

def ResourceLease.stored (lease : ResourceLease) : StoredLease where
  resourceKey := lease.resourceKey
  slot := lease.slot
  ownerSessionId := lease.ownerSessionId
  questId := lease.questId
  purpose := lease.purpose
  metadata := lease.metadata
  acquiredAt := lease.acquiredAt
  heartbeatAt := lease.heartbeatAt
  ttlMs := lease.ttlMs
  expiresAt := lease.expiresAt

def ResourceLeaseWaiter.stored (waiter : ResourceLeaseWaiter) : StoredWaiter where
  id := js "w" ++ decimal waiter.id
  resourceKey := waiter.resourceKey
  waiterSessionId := waiter.waiterSessionId
  questId := waiter.questId
  purpose := waiter.purpose
  metadata := waiter.metadata
  queuedAt := waiter.queuedAt
  ttlMs := waiter.ttlMs

/-- The manager's `data`. -/
def ResourceLeaseManager.file (m : ResourceLeaseManager) : ResourceLeaseFile where
  capacities := m.capacities
  nextWaiterId := m.nextWaiterId
  leases := m.leases.map ResourceLease.stored
  waiters := m.waiters.map fun _ queue => queue.map ResourceLeaseWaiter.stored

namespace ResourceLeaseManager

variable {m : ResourceLeaseManager} {k : JsString} {now : Nat}

/-- A waiter that can be stored in the queue of a pool, and promoted from it. -/
def Queueable (k : JsString) (waiter : ResourceLeaseWaiter) : Prop :=
  (k ≠ js "__proto__" ∧ trim k ≠ []) ∧ waiter.stored.Keepable k

/-- The reader has no reason to drop anything of the data, and no slot is leased twice. -/
structure Storable (m : ResourceLeaseManager) : Prop where
  capacities : ∀ k n, m.capacities.get? k = some n → 1 ≤ n ∧ n ≤ 2 ^ 53 - 1
  nextWaiterId : 1 ≤ m.nextWaiterId
  leases : ∀ lease ∈ m.leases, lease.stored.Keepable
  waiters : ∀ k queue, m.waiters.get? k = some queue →
    (k ≠ js "__proto__" ∧ trim k ≠ []) ∧ queue ≠ [] ∧ ∀ waiter ∈ queue, waiter.stored.Keepable k
  slots : m.leases.Pairwise fun a b => a.resourceKey = b.resourceKey → a.slot ≠ b.slot

theorem Storable.keepable (storable : m.Storable) : m.file.Keepable := by
  refine ⟨storable.capacities, storable.nextWaiterId, ?_, fun k queue found => ?_⟩
  · exact List.forall_mem_map.mpr storable.leases
  · rw [file, JsMap.get?_map, Option.map_eq_some_iff] at found
    obtain ⟨queue, found, rfl⟩ := found
    obtain ⟨plain, filled, kept⟩ := storable.waiters k queue found
    exact ⟨plain.1, by simpa using filled, List.forall_mem_map.mpr kept⟩

theorem Storable.capacity (storable : m.Storable) (k : JsString) :
    1 ≤ m.getCapacity k ∧ m.getCapacity k ≤ 2 ^ 53 - 1 := by
  unfold getCapacity
  cases found : m.capacities.get? k with
  | none => decide
  | some n => exact storable.capacities k n found

theorem Storable.queue (storable : m.Storable) {waiter : ResourceLeaseWaiter}
    (waiting : waiter ∈ m.getWaiters k) : Queueable k waiter := by
  unfold getWaiters at waiting
  cases found : m.waiters.get? k with
  | none =>
    rw [found] at waiting
    cases waiting
  | some queue =>
    rw [found] at waiting
    obtain ⟨plain, -, kept⟩ := storable.waiters k queue found
    exact ⟨plain, kept waiter waiting⟩

/-! ## Steps that keep it -/

/-- A lease of the lowest free slot. -/
theorem Storable.lease (storable : m.Storable) {lease : ResourceLease}
    (free : m.lowestFreeSlot lease.resourceKey = some lease.slot)
    (kept : lease.slot ≤ 2 ^ 53 - 1 → lease.stored.Keepable) :
    Storable { m with leases := m.leases ++ [lease] } := by
  obtain ⟨least, most, unheld⟩ := lowestFreeSlot_some free
  refine ⟨storable.capacities, storable.nextWaiterId, fun other held => ?_, storable.waiters, ?_⟩
  · rcases List.mem_append.mp held with old | new
    · exact storable.leases other old
    · cases List.mem_singleton.mp new
      exact kept (most.trans (storable.capacity _).2)
  · refine List.pairwise_append.mpr ⟨storable.slots, List.pairwise_singleton _ _, ?_⟩
    intro other held new same key
    cases List.mem_singleton.mp same
    exact unheld other held key

/-- Fewer leases. -/
theorem Storable.fewer (storable : m.Storable) {leases : List ResourceLease}
    (fewer : leases.Sublist m.leases) : Storable { m with leases } :=
  ⟨storable.capacities, storable.nextWaiterId, fun lease held =>
    storable.leases lease (fewer.subset held), storable.waiters, storable.slots.sublist fewer⟩

theorem Storable.setWaiters (storable : m.Storable) {queue : List ResourceLeaseWaiter}
    (kept : ∀ waiter ∈ queue, Queueable k waiter) :
    (m.setWaiters k queue).Storable := by
  refine ⟨storable.capacities, storable.nextWaiterId, storable.leases, fun other queue' found => ?_,
    storable.slots⟩
  unfold ResourceLeaseManager.setWaiters at found
  cases queue with
  | nil =>
    rw [List.isEmpty_nil, if_pos rfl] at found
    by_cases own : other = k
    · subst own
      simp at found
    · rw [JsMap.get?_delete, if_neg own] at found
      exact storable.waiters other queue' found
  | cons first rest =>
    rw [List.isEmpty_cons, if_neg Bool.false_ne_true, JsMap.get?_set] at found
    split at found
    · next own =>
      cases found
      subst own
      exact ⟨(kept first List.mem_cons_self).1, by simp, fun waiter inside => (kept waiter inside).2⟩
    · exact storable.waiters other queue' found

/-- A waiter joins a queue. -/
theorem Storable.join (storable : m.Storable) {waiter : ResourceLeaseWaiter}
    (queueable : Queueable k waiter) (joined : List ResourceLeaseWaiter) :
    (ResourceLeaseManager.setWaiters { m with nextWaiterId := m.nextWaiterId + 1, joined } k
      (m.getWaiters k ++ [waiter])).Storable := by
  have numbered : Storable { m with nextWaiterId := m.nextWaiterId + 1, joined } :=
    ⟨storable.capacities, Nat.le_add_left 1 _, storable.leases, storable.waiters, storable.slots⟩
  refine numbered.setWaiters fun other inside => ?_
  rcases List.mem_append.mp inside with old | new
  · exact storable.queue old
  · cases List.mem_singleton.mp new
    exact queueable

/-- What the lease of a waiter takes over from it can be stored. -/
theorem Queueable.lease {waiter : ResourceLeaseWaiter} (queueable : Queueable k waiter)
    {slot : Nat} (range : 1 ≤ slot ∧ slot ≤ 2 ^ 53 - 1) (later : 0 < now) :
    (leaseOfWaiter waiter slot now).stored.Keepable := by
  obtain ⟨⟨-, key⟩, kept⟩ := queueable
  have positive : (0 : ℚ) < now := Nat.cast_pos.mpr later
  rw [← kept.resourceKey] at key
  exact ⟨key, range, kept.waiterSessionId, kept.questId, kept.purpose, kept.metadata, positive,
    positive, kept.ttlMs, Nat.cast_pos.mpr (Nat.add_pos_left later _)⟩

theorem Storable.promote (storable : m.Storable) {waiter : ResourceLeaseWaiter} {slot : Nat}
    (queueable : Queueable k waiter) (free : m.lowestFreeSlot k = some slot) (later : 0 < now) :
    (m.promote waiter slot now).Storable := by
  have own : waiter.resourceKey = k := queueable.2.resourceKey
  have least := (lowestFreeSlot_some free).1
  have lowest : m.lowestFreeSlot (leaseOfWaiter waiter slot now).resourceKey = some slot :=
    (congrArg m.lowestFreeSlot own).trans free
  have taken := storable.lease lowest fun most => queueable.lease ⟨least, most⟩ later
  exact ⟨taken.capacities, taken.nextWaiterId, taken.leases, taken.waiters, taken.slots⟩

theorem Storable.promoteLoop (storable : m.Storable) (later : 0 < now) :
    ∀ left, (∀ waiter ∈ left, Queueable k waiter) →
      (m.promoteLoop k now left).1.Storable ∧
        ∀ waiter ∈ (m.promoteLoop k now left).2.1, Queueable k waiter := by
  intro left
  induction left generalizing m with
  | nil => exact fun _ => ⟨storable, nofun⟩
  | cons waiter rest ih =>
    intro kept
    rw [promoteLoop_cons]
    cases free : m.lowestFreeSlot k with
    | none => exact ⟨storable, kept⟩
    | some slot =>
      exact ih (storable.promote (kept waiter List.mem_cons_self) free later)
        fun other inside => kept other (List.mem_cons_of_mem _ inside)

theorem Storable.promoteWaiters (storable : m.Storable) (k : JsString) (later : 0 < now) :
    (m.promoteWaiters k now).1.Storable := by
  obtain ⟨after, left⟩ := storable.promoteLoop later (m.getWaiters k) fun _ => storable.queue
  exact after.setWaiters left

theorem Storable.promoteAll (storable : m.Storable) (later : 0 < now) (keys : List JsString) :
    (m.promoteAll now keys).1.Storable := by
  induction keys generalizing m with
  | nil => exact storable
  | cons k rest ih => exact ih (storable.promoteWaiters k later)

theorem Storable.expire (storable : m.Storable) (later : 0 < now) :
    (m.expireDueLeases now).1.Storable :=
  (storable.fewer List.filter_sublist).promoteAll later m.waiters.ownKeys

/-! ## Inputs -/

/-- What `normalizeAcquireInput` promises for the file. -/
structure NormalizedStorable (input : NormalizedInput) : Prop where
  resourceKey : input.resourceKey ≠ js "__proto__" ∧ trim input.resourceKey ≠ []
  callerSessionId : trim input.callerSessionId ≠ []
  questId : input.questId ≠ some []
  purpose : trim input.purpose ≠ []
  metadata : Trimmed input.metadata
  ttlMs : 0 < input.ttlMs

theorem not_isSpace_of_isKeyStart {c : UInt16} (start : isKeyStart c = true) :
    isSpace c = false := by
  simp only [isKeyStart, Bool.or_eq_true, Bool.and_eq_true, decide_eq_true_eq,
    UInt16.le_iff_toNat_le, UInt16.reduceToNat] at start
  simp only [isSpace, List.mem_cons, List.not_mem_nil, or_false, Bool.or_eq_false_iff,
    Bool.and_eq_false_iff, decide_eq_false_iff_not, UInt16.le_iff_toNat_le, ← UInt16.toNat_inj,
    UInt16.reduceToNat]
  omega

theorem normalizeResourceKey_ok {toLowerCase : JsString → JsString} {text key : JsString}
    (accepted : normalizeResourceKey toLowerCase text = .ok key) :
    key ≠ js "__proto__" ∧ trim key ≠ [] := by
  have pattern : isResourceKey key = true := by
    simp only [normalizeResourceKey] at accepted
    split at accepted <;> try cases accepted
    split at accepted <;> try cases accepted
    split at accepted
    · cases accepted
    · next matching =>
      cases accepted
      simpa using matching
  cases key with
  | nil => cases pattern
  | cons c rest =>
    have start : isKeyStart c = true := (Bool.and_eq_true_iff.mp pattern).1
    constructor
    · rintro same
      rw [(List.cons.inj same).1] at start
      revert start
      decide
    · intro blank
      have space := trim_eq_nil.mp blank c List.mem_cons_self
      rw [not_isSpace_of_isKeyStart start] at space
      cases space

theorem normalizeSessionId_ok {text id : JsString} (accepted : normalizeSessionId text = .ok id) :
    trim id ≠ [] := by
  unfold normalizeSessionId at accepted
  split at accepted
  · cases accepted
  · next filled =>
    cases accepted
    rw [trim_trim]
    simpa using filled

theorem normalizeQuestId_ok {toLowerCase : JsString → JsString} {text id : Option JsString}
    (accepted : normalizeQuestId toLowerCase text = .ok id) : id ≠ some [] := by
  simp only [normalizeQuestId] at accepted
  split at accepted
  · cases accepted
    nofun
  · next filled =>
    split at accepted
    · cases accepted
      rintro ⟨⟩
      simp at filled
    · cases accepted

theorem normalizeTtlMs_ok {input : Option JsNumber} {ttl : Nat}
    (accepted : normalizeTtlMs input = .ok (some ttl)) : 0 < ttl := by
  unfold normalizeTtlMs at accepted
  split at accepted
  · cases accepted
  · next n =>
    split at accepted
    · cases accepted
    · next fine =>
      cases accepted
      simp only [Bool.or_eq_true, decide_eq_true_eq, not_or, Bool.not_eq_true] at fine
      cases n with
      | notFinite => exact absurd rfl fine.1.1
      | finite value =>
        have least : (5000 : ℚ) ≤ value := by
          have large : decide (value < ((5000 : Nat) : ℚ)) = false := fine.1.2
          simpa using large
        have whole : (5000 : ℤ) ≤ ⌊value⌋ := Int.le_floor.mpr (by exact_mod_cast least)
        show 0 < ⌊value⌋.toNat
        omega

theorem normalizeMetadata_trimmed (metadata : Option (Record JsString)) :
    Trimmed (Leases.normalizeMetadata metadata) := by
  intro k v found
  cases metadata with
  | none => cases found
  | some record =>
    have listed := Record.mem_of_get?_ofEntries found
    obtain ⟨inside, filled⟩ := List.mem_filter.mp (List.mem_of_mem_take listed)
    obtain ⟨key, -, read⟩ := List.mem_filterMap.mp inside
    obtain ⟨value, -, same⟩ := Option.map_eq_some_iff.mp read
    cases same
    simp only [Bool.and_eq_true, Bool.not_eq_true', List.isEmpty_eq_false_iff] at filled
    exact ⟨⟨trim_trim key, filled.1⟩, trim_trim value, filled.2⟩

theorem normalizeAcquireInput_storable {toLowerCase : JsString → JsString} {input : AcquireInput}
    {normalized : NormalizedInput}
    (accepted : normalizeAcquireInput toLowerCase input = .ok normalized) :
    NormalizedStorable normalized := by
  unfold normalizeAcquireInput at accepted
  by_cases blank : (trim input.purpose).isEmpty
  · simp only [blank] at accepted
    cases accepted
  by_cases long : MAX_PURPOSE_LENGTH < (trim input.purpose).length
  · simp only [blank, long] at accepted
    cases accepted
  simp only [blank, long, if_false, Bool.false_eq_true, bind_eq_ok, pure_eq_ok] at accepted
  obtain ⟨questId, quest, key, pool, caller, session, ttl, time, rfl⟩ := accepted
  refine ⟨normalizeResourceKey_ok pool, normalizeSessionId_ok session, normalizeQuestId_ok quest,
    ?_, normalizeMetadata_trimmed input.metadata, ?_⟩
  · rw [trim_trim]
    simpa using blank
  · cases ttl with
    | none => exact (by decide : 0 < DEFAULT_RESOURCE_LEASE_TTL_MS)
    | some ttl => exact normalizeTtlMs_ok time

/-! ## Calls -/

theorem Storable.acquireLoaded (storable : m.Storable) {input : NormalizedInput}
    (fine : NormalizedStorable input) (later : 0 < now) :
    (m.acquireLoaded input now).1.Storable := by
  have positive : (0 : ℚ) < now := Nat.cast_pos.mpr later
  have ttl : (0 : ℚ) < input.ttlMs := Nat.cast_pos.mpr fine.ttlMs
  unfold ResourceLeaseManager.acquireLoaded
  split
  · exact storable
  · split
    · next slot free =>
      have kept (most : slot ≤ 2 ^ 53 - 1) : (createLease input slot now).stored.Keepable :=
        ⟨fine.resourceKey.2, ⟨(lowestFreeSlot_some free).1, most⟩, fine.callerSessionId,
          fine.questId, fine.purpose, fine.metadata, positive, positive, ttl,
          Nat.cast_pos.mpr (Nat.add_pos_left later _)⟩
      exact storable.lease free kept
    · split
      · exact storable
      · show (m.addWaiter input now).1.Storable
        unfold addWaiter
        split
        · exact storable
        · have numbered : trim (js "w" ++ decimal m.nextWaiterId) ≠ [] := fun blank =>
            absurd (trim_eq_nil.mp blank 119 List.mem_cons_self) (by decide)
          have queueable : Queueable input.resourceKey
              ⟨m.nextWaiterId, input.resourceKey, input.callerSessionId, input.questId,
                input.purpose, input.metadata, now, input.ttlMs⟩ :=
            ⟨fine.resourceKey, numbered, rfl, fine.callerSessionId, fine.questId, fine.purpose,
              fine.metadata, positive, ttl⟩
          exact storable.join queueable _

/-- A lease of the pool is renewed. -/
theorem Storable.renewed (storable : m.Storable) (lease : ResourceLease) (ttl : Nat)
    (later : 0 < now) (positive : 0 < ttl) :
    Storable { m with leases := m.leases.map fun l =>
      if l = lease then { lease with heartbeatAt := now, ttlMs := ttl, expiresAt := now + ttl }
      else l } := by
  refine ⟨storable.capacities, storable.nextWaiterId, fun other held => ?_, storable.waiters, ?_⟩
  · obtain ⟨old, before, rfl⟩ := List.mem_map.mp held
    have kept := storable.leases old before
    split
    · next same =>
      subst same
      exact ⟨kept.resourceKey, kept.slot, kept.ownerSessionId, kept.questId, kept.purpose,
        kept.metadata, kept.acquiredAt, Nat.cast_pos.mpr later, Nat.cast_pos.mpr positive,
        Nat.cast_pos.mpr (Nat.add_pos_left later _)⟩
    · exact kept
  · refine List.pairwise_map.mpr (storable.slots.imp fun {a b} apart => ?_)
    split <;> split <;> simp_all

/-- A pool gets another size, and its queue moves up. -/
theorem Storable.resized (storable : m.Storable) (k : JsString) {capacity : Nat}
    (safe : 1 ≤ capacity ∧ capacity ≤ 2 ^ 53 - 1) (later : 0 < now) :
    (ResourceLeaseManager.promoteWaiters
      { m with capacities := m.capacities.set k capacity } k now).1.Storable := by
  have resized : Storable { m with capacities := m.capacities.set k capacity } := by
    refine ⟨fun other n found => ?_, storable.nextWaiterId, storable.leases, storable.waiters,
      storable.slots⟩
    rw [JsMap.get?_set] at found
    split at found
    · cases found
      exact safe
    · exact storable.capacities other n found
  exact resized.promoteWaiters k later

/-- Who waits leaves a queue. -/
theorem Storable.withdrew (storable : m.Storable) (k : JsString) (withdrawn : List Nat)
    {remaining : List ResourceLeaseWaiter} (fewer : remaining ⊆ m.getWaiters k) :
    (ResourceLeaseManager.setWaiters { m with withdrawn } k remaining).Storable := by
  have recorded : Storable { m with withdrawn } :=
    ⟨storable.capacities, storable.nextWaiterId, storable.leases, storable.waiters, storable.slots⟩
  exact recorded.setWaiters fun waiter inside => storable.queue (fewer inside)

theorem floor_range {n : JsNumber} (safe : n.isSafeInteger = true) (least : n.lt 1 = false) :
    1 ≤ n.floor ∧ n.floor ≤ 2 ^ 53 - 1 := by
  cases n with
  | notFinite => cases safe
  | finite value =>
    simp only [JsNumber.isSafeInteger, Bool.and_eq_true, decide_eq_true_eq] at safe
    have whole : (value.num : ℚ) = value := Rat.den_eq_one_iff value |>.mp safe.1
    have positive : ¬ value < 1 := by simpa [JsNumber.lt] using least
    rw [← whole] at positive ⊢
    have bound : 1 ≤ value.num := by
      have := not_lt.mp positive
      exact_mod_cast this
    show 1 ≤ ⌊(value.num : ℚ)⌋.toNat ∧ ⌊(value.num : ℚ)⌋.toNat ≤ 2 ^ 53 - 1
    rw [Int.floor_intCast]
    omega

/-! ## Operations -/

section Operations

variable {toLowerCase : JsString → JsString} {now' : Nat}

theorem Storable.acquire (storable : m.Storable) (input : AcquireInput) (saved : Bool)
    (later : 0 < now) (later' : 0 < now') :
    (m.acquire toLowerCase input now now' saved).manager.Storable := by
  unfold ResourceLeaseManager.acquire
  split
  · exact storable
  · next normalized accepted =>
    have after := (storable.expire later).acquireLoaded (normalizeAcquireInput_storable accepted)
      later'
    dsimp only
    rw [apply_ite Outcome.manager, ite_self]
    exact after

theorem Storable.configure (storable : m.Storable) (key : JsString) (capacity : JsNumber)
    (saved saved' : Bool) (later : 0 < now) (later' : 0 < now') :
    (m.configure toLowerCase key capacity now now' saved saved').manager.Storable := by
  have expired := storable.expire later
  unfold ResourceLeaseManager.configure
  split
  · exact storable
  · next resourceKey _ =>
    split
    · exact storable
    · next valid =>
      simp only [Bool.or_eq_true, Bool.not_eq_true', not_or, Bool.not_eq_false, Bool.not_eq_true]
        at valid
      dsimp only
      split
      · exact expired
      · split
        · exact expired
        · split
          · exact expired
          · have after := expired.resized resourceKey (floor_range valid.1 valid.2) later'
            split <;> exact after

theorem Storable.renew (storable : m.Storable) (key caller : JsString)
    (slot ttlMs : Option JsNumber) (saved saved' : Bool) (later : 0 < now) (later' : 0 < now') :
    (m.renew toLowerCase key caller slot ttlMs now now' saved saved').manager.Storable := by
  have expired := storable.expire later
  unfold ResourceLeaseManager.renew
  dsimp only
  split
  · exact storable
  · next resourceKey callerSessionId slot ttl inputs =>
    simp only [bind_eq_ok, pure_eq_ok] at inputs
    obtain ⟨_, _, _, _, _, _, time, accepted, same⟩ := inputs
    cases same
    split
    · exact expired
    · split
      · exact expired
      · next lease selected =>
        have held := (selectLease_mem selected).1
        have positive : 0 < ttl.getD lease.ttlMs := by
          cases ttl with
          | none => exact Nat.cast_pos.mp (expired.leases lease held).ttlMs
          | some ttl => exact normalizeTtlMs_ok accepted
        have after := expired.renewed lease _ later' positive
        split <;> exact after

theorem Storable.release (storable : m.Storable) (key caller : JsString) (force : Bool)
    (slot : Option JsNumber) (saved saved' : Bool) (later : 0 < now) (later' : 0 < now') :
    (m.release toLowerCase key caller force slot now now' saved saved').manager.Storable := by
  unfold ResourceLeaseManager.release
  dsimp only
  split
  · exact storable
  · have expired : (if force then (m, false) else m.expireDueLeases now).1.Storable := by
      split
      · exact storable
      · exact storable.expire later
    generalize (if force then (m, false) else m.expireDueLeases now) = e at expired ⊢
    obtain ⟨before, changed⟩ := e
    dsimp only at expired ⊢
    split
    · exact expired
    · split
      · exact expired
      · next lease _ =>
        have freed : Storable { before with leases := before.leases.erase lease } :=
          expired.fewer List.erase_sublist
        split <;> exact freed.promoteWaiters _ later'

theorem Storable.withdraw (storable : m.Storable) (key caller : JsString) (saved : Bool) :
    (m.withdraw toLowerCase key caller saved).manager.Storable := by
  unfold ResourceLeaseManager.withdraw
  dsimp only
  split
  · exact storable
  · split
    · exact storable
    · next resourceKey _ _ _ =>
      split <;> exact storable.withdrew resourceKey _ (List.filter_subset_self _)

theorem Storable.getStatus (storable : m.Storable) (key : JsString) (saved : Bool)
    (later : 0 < now) : (m.getStatus toLowerCase key now saved).manager.Storable := by
  unfold ResourceLeaseManager.getStatus
  split
  · exact storable
  · dsimp only
    split <;> exact storable.expire later

end Operations

end ResourceLeaseManager

/-- What the clock shows to an operation. -/
def Operation.times : Operation → List Nat
  | .registerSystemOwner _ | .withdraw .. => []
  | .acquire _ now now' _ | .wait _ now now' _ | .configure _ _ now now' _ _
  | .renew _ _ _ _ now now' _ _ | .release _ _ _ _ now now' _ _ => [now, now']
  | .getStatus _ now _ | .sweepExpiredNow now => [now]

/-- The clock shows a time after 1970. -/
def Operation.Timely (operation : Operation) : Prop := ∀ now ∈ operation.times, 0 < now

instance (operation : Operation) : Decidable operation.Timely :=
  inferInstanceAs (Decidable (∀ now ∈ operation.times, 0 < now))

theorem ResourceLeaseManager.Storable.perform {m : ResourceLeaseManager}
    {toLowerCase : JsString → JsString} (storable : m.Storable) {operation : Operation}
    (timely : operation.Timely) : (m.perform toLowerCase operation).Storable := by
  unfold Operation.Timely at timely
  cases operation with
  | registerSystemOwner start =>
    exact ⟨storable.capacities, storable.nextWaiterId, storable.leases, storable.waiters,
      storable.slots⟩
  | acquire input now now' saved =>
    exact storable.acquire input saved (timely now (by simp [Operation.times]))
      (timely now' (by simp [Operation.times]))
  | wait input now now' saved =>
    exact storable.acquire _ saved (timely now (by simp [Operation.times]))
      (timely now' (by simp [Operation.times]))
  | configure key capacity now now' saved saved' =>
    exact storable.configure key capacity saved saved' (timely now (by simp [Operation.times]))
      (timely now' (by simp [Operation.times]))
  | renew key caller slot ttlMs now now' saved saved' =>
    exact storable.renew key caller slot ttlMs saved saved'
      (timely now (by simp [Operation.times])) (timely now' (by simp [Operation.times]))
  | release key caller force slot now now' saved saved' =>
    exact storable.release key caller force slot saved saved'
      (timely now (by simp [Operation.times])) (timely now' (by simp [Operation.times]))
  | withdraw key caller saved => exact storable.withdraw key caller saved
  | getStatus key now saved =>
    exact storable.getStatus key saved (timely now (by simp [Operation.times]))
  | sweepExpiredNow now => exact storable.expire (timely now (by simp [Operation.times]))

end Takode.Leases
