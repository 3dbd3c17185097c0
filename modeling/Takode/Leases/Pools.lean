import Takode.Leases.Manager
import Mathlib.Data.List.Nodup

/-!
# Pools keep their slots and queues in order

What the manager's data keeps in every state, with a queue that a loop is still
working on in place of the one in the file: `promoteWaiters` writes its queue
back only when it is done.
-/

namespace Takode.Leases

namespace ResourceLeaseManager

variable {m : ResourceLeaseManager} {k : JsString} {slot now : Nat}

/-! ## Free slots -/

theorem mem_getLeases {lease : ResourceLease} :
    lease ∈ m.getLeases k ↔ lease ∈ m.leases ∧ lease.resourceKey = k := by
  simp [getLeases]

theorem lowestFreeSlot_some (free : m.lowestFreeSlot k = some slot) :
    1 ≤ slot ∧ slot ≤ m.getCapacity k ∧
      ∀ lease ∈ m.leases, lease.resourceKey = k → lease.slot ≠ slot := by
  have listed := List.mem_of_find?_eq_some free
  have unheld := List.find?_some free
  obtain ⟨i, inside, rfl⟩ := List.mem_map.mp listed
  have bound := List.mem_range.mp inside
  refine ⟨Nat.le_add_left 1 i, bound, fun lease held own same => ?_⟩
  have occupied : i + 1 ∈ (m.getLeases k).map ResourceLease.slot :=
    List.mem_map.mpr ⟨lease, mem_getLeases.mpr ⟨held, own⟩, same⟩
  simp [occupied] at unheld

theorem lowestFreeSlot_none : m.lowestFreeSlot k = none ↔
    ∀ slot, 1 ≤ slot → slot ≤ m.getCapacity k →
      ∃ lease ∈ m.leases, lease.resourceKey = k ∧ lease.slot = slot := by
  constructor
  · intro none slot least most
    have listed : slot ∈ (List.range (m.getCapacity k)).map (· + 1) :=
      List.mem_map.mpr ⟨slot - 1, List.mem_range.mpr (by omega), by omega⟩
    have taken := List.find?_eq_none.mp none slot listed
    simp only [Bool.not_eq_true', Bool.not_eq_false, List.contains_iff_mem] at taken
    obtain ⟨lease, held, same⟩ := List.mem_map.mp taken
    obtain ⟨inside, own⟩ := mem_getLeases.mp held
    exact ⟨lease, inside, own, same⟩
  · intro all
    refine List.find?_eq_none.mpr fun slot listed => ?_
    obtain ⟨i, inside, rfl⟩ := List.mem_map.mp listed
    obtain ⟨lease, held, own, same⟩ := all (i + 1) (Nat.le_add_left 1 i) (List.mem_range.mp inside)
    have occupied : i + 1 ∈ (m.getLeases k).map ResourceLease.slot :=
      List.mem_map.mpr ⟨lease, mem_getLeases.mpr ⟨held, own⟩, same⟩
    simp [occupied]

theorem lowestFreeSlot_mono {m' : ResourceLeaseManager}
    (capacity : m'.getCapacity k = m.getCapacity k)
    (more : ∀ lease ∈ m.leases, lease.resourceKey = k →
      ∃ lease' ∈ m'.leases, lease'.resourceKey = k ∧ lease'.slot = lease.slot)
    (full : m.lowestFreeSlot k = none) : m'.lowestFreeSlot k = none := by
  refine lowestFreeSlot_none.mpr fun slot least most => ?_
  obtain ⟨lease, held, own, same⟩ := lowestFreeSlot_none.mp full slot least (capacity ▸ most)
  obtain ⟨lease', held', own', same'⟩ := more lease held own
  exact ⟨lease', held', own', same'.trans same⟩

@[simp] theorem getWaiters_setWaiters (queue : List ResourceLeaseWaiter) :
    (m.setWaiters k queue).getWaiters = Function.update m.getWaiters k queue := by
  funext other
  by_cases own : other = k
  · subst own
    cases queue <;> simp [setWaiters, getWaiters]
  · cases queue <;> simp [setWaiters, getWaiters, own]

/-! ## The invariant -/

/-- What the data keeps, with the queues as given. -/
structure Orderly (m : ResourceLeaseManager) (queue : JsString → List ResourceLeaseWaiter) :
    Prop where
  slots : m.leases.Pairwise fun a b => a.resourceKey = b.resourceKey →
    a.slot ≠ b.slot ∧ a.ownerSessionId ≠ b.ownerSessionId
  range : ∀ lease ∈ m.leases, 1 ≤ lease.slot ∧ lease.slot ≤ m.getCapacity lease.resourceKey
  keys : ∀ k, ∀ w ∈ queue k, w.resourceKey = k
  sessions : ∀ k, (queue k).Pairwise fun a b => a.waiterSessionId ≠ b.waiterSessionId
  apart : ∀ k, ∀ w ∈ queue k, ∀ lease ∈ m.leases, lease.resourceKey = k →
    lease.ownerSessionId ≠ w.waiterSessionId
  /-- Who joined a queue and did not withdraw was promoted, in order, or is still queued. -/
  order : ∀ k, (m.joined.filter fun w => w.resourceKey = k ∧ w.id ∉ m.withdrawn) =
    (m.promoted.filter fun p => p.1.resourceKey = k).map Prod.fst ++ queue k
  fresh : ∀ w ∈ m.joined, w.id < m.nextWaiterId
  distinct : (m.joined.map ResourceLeaseWaiter.id).Nodup
  gone : ∀ i ∈ m.withdrawn, i < m.nextWaiterId
  notices : m.notified.map Notification.lease = m.promoted.map Prod.snd
  matching : ∀ p ∈ m.promoted, p.2.ownerSessionId = p.1.waiterSessionId ∧
    p.2.resourceKey = p.1.resourceKey

/-- Where sessions wait, every slot is taken. -/
def FullAt (m : ResourceLeaseManager) (k : JsString) : Prop :=
  m.getWaiters k ≠ [] → m.lowestFreeSlot k = none

/-- The manager after one round of the loop of `promoteWaiters`. -/
def promote (m : ResourceLeaseManager) (waiter : ResourceLeaseWaiter) (slot now : Nat) :
    ResourceLeaseManager :=
  let lease := leaseOfWaiter waiter slot now
  notifyPromotedWaiter { m with
    leases := m.leases ++ [lease], promoted := m.promoted ++ [(waiter, lease)] }
    lease waiter.queuedAt

theorem Orderly.promote {queue : JsString → List ResourceLeaseWaiter}
    (orderly : m.Orderly queue) {waiter : ResourceLeaseWaiter} {rest : List ResourceLeaseWaiter}
    (first : queue k = waiter :: rest) (free : m.lowestFreeSlot k = some slot) (now : Nat) :
    (m.promote waiter slot now).Orderly (Function.update queue k rest) := by
  obtain ⟨least, most, unheld⟩ := lowestFreeSlot_some free
  have member : waiter ∈ queue k := first ▸ List.mem_cons_self
  have own : waiter.resourceKey = k := orderly.keys k waiter member
  have sessions := first ▸ orderly.sessions k
  have fewer {other : JsString} {w : ResourceLeaseWaiter}
      (inside : w ∈ Function.update queue k rest other) : w ∈ queue other := by
    by_cases same : other = k
    · subst same
      rw [Function.update_self] at inside
      exact first ▸ List.mem_cons_of_mem _ inside
    · rwa [Function.update_of_ne same] at inside
  refine ⟨?_, ?_, fun other w inside => orderly.keys other w (fewer inside), fun other => ?_,
    fun other w inside lease held key => ?_, fun other => ?_, orderly.fresh, orderly.distinct,
    orderly.gone, ?_, ?_⟩
  · refine List.pairwise_append.mpr ⟨orderly.slots, List.pairwise_singleton _ _, ?_⟩
    intro lease held new same key
    cases List.mem_singleton.mp same
    have pool : lease.resourceKey = k := key.trans own
    exact ⟨unheld lease held pool, orderly.apart k waiter member lease held pool⟩
  · intro lease held
    rcases List.mem_append.mp held with old | new
    · exact orderly.range lease old
    · cases List.mem_singleton.mp new
      exact ⟨least, by rw [show (leaseOfWaiter waiter slot now).resourceKey = k from own]; exact most⟩
  · by_cases same : other = k
    · subst same
      rw [Function.update_self]
      exact (List.pairwise_cons.mp sessions).2
    · rw [Function.update_of_ne same]
      exact orderly.sessions other
  · rcases List.mem_append.mp held with old | new
    · exact orderly.apart other w (fewer inside) lease old key
    · cases List.mem_singleton.mp new
      have same : other = k := key.symm.trans own
      subst same
      rw [Function.update_self] at inside
      exact (List.pairwise_cons.mp sessions).1 w inside
  · show m.joined.filter _ = ((m.promoted ++ [(waiter, leaseOfWaiter waiter slot now)]).filter
      fun p => p.1.resourceKey = other).map Prod.fst ++ Function.update queue k rest other
    refine (orderly.order other).trans ?_
    rw [List.filter_append, List.map_append, List.append_assoc]
    congr 1
    by_cases same : other = k
    · subst same
      simp [first, own]
    · simp [same, own, Ne.symm same]
  · simp [ResourceLeaseManager.promote, notifyPromotedWaiter, orderly.notices]
  · intro p inside
    rcases List.mem_append.mp inside with old | new
    · exact orderly.matching p old
    · cases List.mem_singleton.mp new
      exact ⟨rfl, rfl⟩

/-! ## Promotions -/

/-- What a promotion does besides taking the first waiter of a queue. -/
structure Extends (m m' : ResourceLeaseManager) : Prop where
  capacities : m'.capacities = m.capacities
  leases : m.leases ⊆ m'.leases

theorem Extends.refl (m : ResourceLeaseManager) : m.Extends m := ⟨rfl, List.Subset.refl _⟩

theorem Extends.trans {m' m'' : ResourceLeaseManager} (first : m.Extends m')
    (second : m'.Extends m'') : m.Extends m'' :=
  ⟨second.capacities.trans first.capacities, List.Subset.trans first.leases second.leases⟩

theorem Extends.full {m' : ResourceLeaseManager} (extend : m.Extends m')
    (full : m.lowestFreeSlot k = none) : m'.lowestFreeSlot k = none :=
  lowestFreeSlot_mono (by rw [getCapacity, getCapacity, extend.capacities])
    (fun lease held own => ⟨lease, extend.leases held, own, rfl⟩) full

theorem promoteLoop_cons (m : ResourceLeaseManager) (k : JsString) (now : Nat)
    (waiter : ResourceLeaseWaiter) (rest : List ResourceLeaseWaiter) :
    m.promoteLoop k now (waiter :: rest) =
      match m.lowestFreeSlot k with
      | none => (m, waiter :: rest, [])
      | some slot =>
        ((promoteLoop (m.promote waiter slot now) k now rest).1,
          (promoteLoop (m.promote waiter slot now) k now rest).2.1,
          leaseOfWaiter waiter slot now ::
            (promoteLoop (m.promote waiter slot now) k now rest).2.2) := rfl

/-- The loop fills the pool or empties its queue. -/
theorem promoteLoop_spec (m : ResourceLeaseManager) (k : JsString) (now : Nat)
    (queue : JsString → List ResourceLeaseWaiter) (orderly : m.Orderly queue) :
    ∀ left, queue k = left →
      (m.promoteLoop k now left).1.Orderly
          (Function.update queue k (m.promoteLoop k now left).2.1) ∧
        m.Extends (m.promoteLoop k now left).1 ∧
        (m.promoteLoop k now left).1.waiters = m.waiters ∧
        ((m.promoteLoop k now left).2.1 ≠ [] →
          (m.promoteLoop k now left).1.lowestFreeSlot k = none) ∧
        (m.promoteLoop k now left).1.promoted.map Prod.snd =
          m.promoted.map Prod.snd ++ (m.promoteLoop k now left).2.2 := by
  intro left
  induction left generalizing m queue with
  | nil =>
    intro own
    refine ⟨?_, .refl m, rfl, fun some => absurd rfl some, by simp [promoteLoop]⟩
    rw [show (m.promoteLoop k now []).2.1 = queue k from own.symm, Function.update_eq_self]
    exact orderly
  | cons waiter rest ih =>
    intro own
    rw [promoteLoop_cons]
    cases free : m.lowestFreeSlot k with
    | none =>
      refine ⟨?_, .refl m, rfl, fun _ => free, by simp⟩
      rw [← own, Function.update_eq_self]
      exact orderly
    | some slot =>
      have after := orderly.promote own free now
      obtain ⟨kept, extend, waiters, full, leases⟩ := ih (m.promote waiter slot now) _ after
        (Function.update_self k rest queue)
      rw [Function.update_idem] at kept
      have grown : m.Extends (m.promote waiter slot now) := ⟨rfl, List.subset_append_left _ _⟩
      refine ⟨kept, grown.trans extend, waiters, full, ?_⟩
      rw [leases]
      simp [promote, notifyPromotedWaiter]

theorem Orderly.setWaiters {queue : JsString → List ResourceLeaseWaiter}
    (orderly : m.Orderly queue) (left : List ResourceLeaseWaiter) :
    (m.setWaiters k left).Orderly queue :=
  ⟨orderly.slots, orderly.range, orderly.keys, orderly.sessions, orderly.apart, orderly.order,
    orderly.fresh, orderly.distinct, orderly.gone, orderly.notices, orderly.matching⟩

/-- What `promoteWaiters` does to a manager. -/
structure Promotes (m : ResourceLeaseManager) (k : JsString) (m' : ResourceLeaseManager)
    (leases : List ResourceLease) : Prop where
  orderly : m'.Orderly m'.getWaiters
  extend : m.Extends m'
  others : ∀ other, other ≠ k → m'.getWaiters other = m.getWaiters other
  full : m'.FullAt k
  promoted : m'.promoted.map Prod.snd = m.promoted.map Prod.snd ++ leases

theorem promoteWaiters_spec (orderly : m.Orderly m.getWaiters) (k : JsString) (now : Nat) :
    m.Promotes k (m.promoteWaiters k now).1 (m.promoteWaiters k now).2 := by
  obtain ⟨kept, extend, waiters, full, leases⟩ :=
    promoteLoop_spec m k now m.getWaiters orderly _ rfl
  have same : (m.promoteLoop k now (m.getWaiters k)).1.getWaiters = m.getWaiters := by
    funext other
    exact congrArg (fun entries => (JsMap.get? entries other).getD []) waiters
  refine ⟨?_, ⟨extend.capacities, extend.leases⟩, fun other away => ?_, fun some => ?_, leases⟩
  · rw [promoteWaiters, getWaiters_setWaiters, same]
    exact kept.setWaiters _
  · rw [promoteWaiters, getWaiters_setWaiters, same, Function.update_of_ne away]
  · rw [promoteWaiters, getWaiters_setWaiters, Function.update_self] at some
    exact full some

theorem Promotes.fullAt {m' : ResourceLeaseManager} {leases : List ResourceLease} {other : JsString}
    (promotes : m.Promotes k m' leases) (full : m.FullAt other) : m'.FullAt other := by
  by_cases same : other = k
  · exact same ▸ promotes.full
  · intro some
    rw [promotes.others other same] at some
    exact promotes.extend.full (full some)

theorem promoteAll_spec (orderly : m.Orderly m.getWaiters) (now : Nat) (keys : List JsString) :
    (m.promoteAll now keys).1.Orderly (m.promoteAll now keys).1.getWaiters ∧
      ∀ k, k ∈ keys ∨ m.FullAt k → (m.promoteAll now keys).1.FullAt k := by
  induction keys generalizing m with
  | nil => exact ⟨orderly, fun k due => due.resolve_left List.not_mem_nil⟩
  | cons first rest ih =>
    have promotes := promoteWaiters_spec orderly first now
    obtain ⟨kept, full⟩ := ih promotes.orderly
    refine ⟨kept, fun k due => full k ?_⟩
    rcases due with listed | before
    · rcases List.mem_cons.mp listed with rfl | later
      · exact .inr promotes.full
      · exact .inl later
    · exact .inr (promotes.fullAt before)

/-! ## Calls -/

/-- What the manager keeps between calls. -/
structure Settled (m : ResourceLeaseManager) : Prop where
  orderly : m.Orderly m.getWaiters
  full : ∀ k, m.FullAt k

theorem Orderly.fewer {queue : JsString → List ResourceLeaseWaiter} (orderly : m.Orderly queue)
    {leases : List ResourceLease} (sub : leases.Sublist m.leases) :
    Orderly { m with leases := leases } queue :=
  ⟨orderly.slots.sublist sub, fun lease held => orderly.range lease (sub.subset held),
    orderly.keys, orderly.sessions, fun k w inside lease held =>
      orderly.apart k w inside lease (sub.subset held),
    orderly.order, orderly.fresh, orderly.distinct, orderly.gone, orderly.notices,
    orderly.matching⟩

theorem Settled.expire (settled : m.Settled) (now : Nat) : (m.expireDueLeases now).1.Settled := by
  have kept : Orderly { m with leases := m.leases.filter fun lease => now < lease.expiresAt }
      m.getWaiters := settled.orderly.fewer List.filter_sublist
  obtain ⟨orderly, full⟩ := promoteAll_spec kept now m.waiters.ownKeys
  refine ⟨orderly, fun k => full k ?_⟩
  cases found : m.waiters.get? k with
  | none => exact .inr fun some => absurd (by simp [getWaiters, found]) some
  | some queue => exact .inl (Record.mem_ownKeys.mpr ⟨queue, found⟩)

/-- A new lease in a free slot of a pool where the session neither holds nor waits. -/
theorem Settled.lease (settled : m.Settled) (lease : ResourceLease)
    (free : m.lowestFreeSlot lease.resourceKey = some lease.slot)
    (unheld : ∀ held ∈ m.leases, held.resourceKey = lease.resourceKey →
      held.ownerSessionId ≠ lease.ownerSessionId) :
    Settled { m with leases := m.leases ++ [lease] } := by
  have orderly := settled.orderly
  obtain ⟨least, most, other⟩ := lowestFreeSlot_some free
  have idle : m.getWaiters lease.resourceKey = [] := by
    by_contra some
    exact absurd ((settled.full _ some).symm.trans free) (by simp)
  refine ⟨⟨?_, ?_, orderly.keys, orderly.sessions, ?_, orderly.order, orderly.fresh,
    orderly.distinct, orderly.gone, orderly.notices, orderly.matching⟩, fun k some => ?_⟩
  · refine List.pairwise_append.mpr ⟨orderly.slots, List.pairwise_singleton _ _, ?_⟩
    intro held before new same key
    cases List.mem_singleton.mp same
    exact ⟨other held before key, unheld held before key⟩
  · intro held inside
    rcases List.mem_append.mp inside with before | new
    · exact orderly.range held before
    · cases List.mem_singleton.mp new
      exact ⟨least, most⟩
  · intro k w waiting held inside key
    rcases List.mem_append.mp inside with before | new
    · exact orderly.apart k w waiting held before key
    · cases List.mem_singleton.mp new
      subst key
      exact absurd (show w ∈ m.getWaiters lease.resourceKey from waiting) (by simp [idle])
  · have extend : m.Extends { m with leases := m.leases ++ [lease] } :=
      ⟨rfl, List.subset_append_left _ _⟩
    exact extend.full (settled.full k some)

/-- A new waiter of a pool that is full, where the session neither holds nor waits. -/
theorem Settled.join (settled : m.Settled) (waiter : ResourceLeaseWaiter)
    (number : waiter.id = m.nextWaiterId) (full : m.lowestFreeSlot waiter.resourceKey = none)
    (unheld : ∀ held ∈ m.leases, held.resourceKey = waiter.resourceKey →
      held.ownerSessionId ≠ waiter.waiterSessionId)
    (absent : ∀ w ∈ m.getWaiters waiter.resourceKey,
      w.waiterSessionId ≠ waiter.waiterSessionId) :
    (setWaiters { m with
        nextWaiterId := m.nextWaiterId + 1, joined := m.joined ++ [waiter] }
      waiter.resourceKey (m.getWaiters waiter.resourceKey ++ [waiter])).Settled := by
  have orderly := settled.orderly
  have queues : (setWaiters { m with
        nextWaiterId := m.nextWaiterId + 1, joined := m.joined ++ [waiter] }
      waiter.resourceKey (m.getWaiters waiter.resourceKey ++ [waiter])).getWaiters =
      Function.update m.getWaiters waiter.resourceKey
        (m.getWaiters waiter.resourceKey ++ [waiter]) := getWaiters_setWaiters _
  have member {k : JsString} {w : ResourceLeaseWaiter} (inside : w ∈ Function.update m.getWaiters
      waiter.resourceKey (m.getWaiters waiter.resourceKey ++ [waiter]) k) :
      w ∈ m.getWaiters k ∨ w = waiter ∧ k = waiter.resourceKey := by
    by_cases same : k = waiter.resourceKey
    · subst same
      rw [Function.update_self] at inside
      exact (List.mem_append.mp inside).imp_right fun new => ⟨List.mem_singleton.mp new, rfl⟩
    · rw [Function.update_of_ne same] at inside
      exact .inl inside
  refine ⟨?_, fun k some => ?_⟩
  · rw [queues]
    refine (Orderly.mk orderly.slots orderly.range ?_ ?_ ?_ ?_ ?_ ?_ ?_ orderly.notices
      orderly.matching : Orderly { m with
        nextWaiterId := m.nextWaiterId + 1, joined := m.joined ++ [waiter] } _).setWaiters _
    · intro k w inside
      rcases member inside with old | ⟨rfl, rfl⟩
      · exact orderly.keys k w old
      · rfl
    · intro k
      by_cases same : k = waiter.resourceKey
      · subst same
        rw [Function.update_self]
        refine List.pairwise_append.mpr
          ⟨orderly.sessions _, List.pairwise_singleton _ _, fun w old new same => ?_⟩
        cases List.mem_singleton.mp same
        exact absent w old
      · rw [Function.update_of_ne same]
        exact orderly.sessions k
    · intro k w inside held before key
      rcases member inside with old | ⟨rfl, rfl⟩
      · exact orderly.apart k w old held before key
      · exact unheld held before key
    · intro k
      have young : waiter.id ∉ m.withdrawn := fun gone =>
        absurd (orderly.gone _ gone) (by rw [number]; exact Nat.lt_irrefl _)
      show (m.joined ++ [waiter]).filter _ = _
      rw [List.filter_append]
      refine (congrArg (· ++ _) (orderly.order k)).trans ?_
      rw [List.append_assoc]
      congr 1
      by_cases same : k = waiter.resourceKey
      · subst same
        simp [young]
      · simp [same, Ne.symm same]
    · intro w inside
      rcases List.mem_append.mp inside with old | new
      · exact Nat.lt_succ_of_lt (orderly.fresh w old)
      · cases List.mem_singleton.mp new
        exact number ▸ Nat.lt_succ_self _
    · rw [List.map_append, List.nodup_append]
      refine ⟨orderly.distinct, List.nodup_singleton _, fun i old new same => ?_⟩
      obtain ⟨w, inside, rfl⟩ := List.mem_map.mp old
      have below := orderly.fresh w inside
      simp at same
      omega
    · exact fun i gone => Nat.lt_succ_of_lt (orderly.gone i gone)
  · rw [queues] at some
    by_cases same : k = waiter.resourceKey
    · subst same
      exact full
    · rw [Function.update_of_ne same] at some
      exact settled.full k some

theorem unheld_of_find {caller : JsString}
    (none : ((m.getLeases k).find? fun lease => lease.ownerSessionId = caller) = none) :
    ∀ held ∈ m.leases, held.resourceKey = k → held.ownerSessionId ≠ caller := by
  intro held inside key
  simpa using List.find?_eq_none.mp none held (mem_getLeases.mpr ⟨inside, key⟩)

theorem Settled.acquireLoaded (settled : m.Settled) (input : NormalizedInput) (now : Nat) :
    (m.acquireLoaded input now).1.Settled := by
  unfold ResourceLeaseManager.acquireLoaded
  dsimp only
  split
  · exact settled
  · rename_i none
    have unheld := unheld_of_find none
    split
    · rename_i slot free
      exact settled.lease (createLease input slot now) free unheld
    · rename_i full
      split
      · exact settled
      · dsimp only [addWaiter]
        split
        · exact settled
        · rename_i absent
          exact settled.join ⟨m.nextWaiterId, input.resourceKey, input.callerSessionId,
            input.questId, input.purpose, input.metadata, now, input.ttlMs⟩ rfl full unheld
            fun w inside => by simpa using List.find?_eq_none.mp absent w inside

theorem selectLease_mem {caller : JsString} {slot : Option Nat} {action : String} {force : Bool}
    {lease : ResourceLease} (selected : m.selectLease k caller slot action force = .ok lease) :
    lease ∈ m.leases ∧ lease.resourceKey = k := by
  unfold selectLease at selected
  dsimp only at selected
  split at selected
  · split at selected <;> cases selected
  · rename_i found
    split at selected
    · cases selected
    · cases selected
      apply mem_getLeases.mp
      split at found
      · exact List.mem_of_find?_eq_some found
      · exact List.mem_of_find?_eq_some found

/-- Leases that only have new times. -/
theorem Settled.renewed (settled : m.Settled) {f : ResourceLease → ResourceLease}
    (same : ∀ lease, (f lease).resourceKey = lease.resourceKey ∧ (f lease).slot = lease.slot ∧
      (f lease).ownerSessionId = lease.ownerSessionId) :
    Settled { m with leases := m.leases.map f } := by
  have orderly := settled.orderly
  refine ⟨⟨?_, ?_, orderly.keys, orderly.sessions, ?_, orderly.order, orderly.fresh,
    orderly.distinct, orderly.gone, orderly.notices, orderly.matching⟩, fun k some => ?_⟩
  · refine List.pairwise_map.mpr (orderly.slots.imp fun {a b} apart key => ?_)
    obtain ⟨keyA, slotA, ownerA⟩ := same a
    obtain ⟨keyB, slotB, ownerB⟩ := same b
    rw [slotA, slotB, ownerA, ownerB]
    exact apart (keyA.symm.trans (key.trans keyB))
  · intro lease inside
    obtain ⟨before, held, rfl⟩ := List.mem_map.mp inside
    obtain ⟨key, slot, -⟩ := same before
    rw [key, slot]
    exact orderly.range before held
  · intro k w waiting lease inside key
    obtain ⟨before, held, rfl⟩ := List.mem_map.mp inside
    obtain ⟨own, -, owner⟩ := same before
    rw [owner]
    exact orderly.apart k w waiting before held (own.symm.trans key)
  · refine lowestFreeSlot_mono (m := m) rfl (fun lease held key => ?_) (settled.full k some)
    obtain ⟨own, slot, -⟩ := same lease
    exact ⟨f lease, List.mem_map.mpr ⟨lease, held, rfl⟩, own.trans key, slot⟩

theorem Settled.promoted {m' : ResourceLeaseManager} {leases : List ResourceLease}
    (promotes : m.Promotes k m' leases) (full : ∀ other, other ≠ k → m.FullAt other) :
    m'.Settled := by
  refine ⟨promotes.orderly, fun other => ?_⟩
  by_cases same : other = k
  · exact same ▸ promotes.full
  · exact promotes.fullAt (full other same)

/-- A lease is given up, which may promote a waiter of its pool. -/
theorem Settled.freed (settled : m.Settled) (lease : ResourceLease) (now : Nat) :
    (promoteWaiters { m with leases := m.leases.erase lease } lease.resourceKey now).1.Settled := by
  have freed : Orderly { m with leases := m.leases.erase lease } m.getWaiters :=
    settled.orderly.fewer List.erase_sublist
  refine Settled.promoted (promoteWaiters_spec freed lease.resourceKey now)
    fun other away some => ?_
  refine lowestFreeSlot_mono (m := m) rfl (fun held inside key => ?_) (settled.full other some)
  have apart : held ≠ lease := fun same => away (key.symm.trans (congrArg _ same))
  exact ⟨held, (List.mem_erase_of_ne apart).mpr inside, key, rfl⟩

theorem le_foldl_max (list : List Nat) (n : Nat) :
    n ≤ list.foldl max n ∧ ∀ x ∈ list, x ≤ list.foldl max n := by
  induction list generalizing n with
  | nil => simp
  | cons y rest ih =>
    obtain ⟨base, others⟩ := ih (max n y)
    refine ⟨Nat.le_trans (Nat.le_max_left n y) base, fun x inside => ?_⟩
    rcases List.mem_cons.mp inside with rfl | later
    · exact Nat.le_trans (Nat.le_max_right n x) base
    · exact others x later

/-- A new capacity that covers the slots that are held. -/
theorem Settled.resized (settled : m.Settled) (k : JsString) (capacity : Nat)
    (covers : ∀ lease ∈ m.leases, lease.resourceKey = k → lease.slot ≤ capacity) (now : Nat) :
    (promoteWaiters { m with capacities := m.capacities.set k capacity } k now).1.Settled := by
  have orderly := settled.orderly
  have resized : Orderly { m with capacities := m.capacities.set k capacity } m.getWaiters := by
    refine ⟨orderly.slots, fun lease held => ?_, orderly.keys, orderly.sessions, orderly.apart,
      orderly.order, orderly.fresh, orderly.distinct, orderly.gone, orderly.notices,
      orderly.matching⟩
    obtain ⟨least, most⟩ := orderly.range lease held
    refine ⟨least, ?_⟩
    by_cases own : lease.resourceKey = k
    · simpa [getCapacity, own] using covers lease held own
    · simpa [getCapacity, own] using most
  refine Settled.promoted (promoteWaiters_spec resized k now) fun other away some => ?_
  refine lowestFreeSlot_mono (m := m) (by simp [getCapacity, away])
    (fun lease held key => ⟨lease, held, key, rfl⟩) (settled.full other some)

/-- Waiters that withdraw. -/
theorem Settled.withdrew (settled : m.Settled) (k caller : JsString) :
    (setWaiters { m with withdrawn := m.withdrawn ++
        ((m.getWaiters k).filter fun w => w.waiterSessionId = caller).map ResourceLeaseWaiter.id }
      k ((m.getWaiters k).filter fun w => w.waiterSessionId ≠ caller)).Settled := by
  have orderly := settled.orderly
  let left := (m.getWaiters k).filter fun w => w.waiterSessionId = caller
  let remaining := (m.getWaiters k).filter fun w => w.waiterSessionId ≠ caller
  have queues : (setWaiters { m with
        withdrawn := m.withdrawn ++ left.map ResourceLeaseWaiter.id } k remaining).getWaiters =
      Function.update m.getWaiters k remaining := getWaiters_setWaiters _
  have sub (other : JsString) :
      (Function.update m.getWaiters k remaining other).Sublist (m.getWaiters other) := by
    by_cases same : other = k
    · subst same
      rw [Function.update_self]
      exact List.filter_sublist
    · rw [Function.update_of_ne same]
  have listed (other : JsString) : ((m.promoted.filter fun p =>
      p.1.resourceKey = other).map Prod.fst ++ m.getWaiters other).Sublist m.joined := by
    rw [← orderly.order other]
    exact List.filter_sublist
  have unique {a b : ResourceLeaseWaiter} (insideA : a ∈ m.joined) (insideB : b ∈ m.joined)
      (same : a.id = b.id) : a = b :=
    List.inj_on_of_nodup_map orderly.distinct insideA insideB same
  refine ⟨?_, fun other some => ?_⟩
  · rw [queues]
    refine (Orderly.mk orderly.slots orderly.range (fun other w inside =>
      orderly.keys other w ((sub other).subset inside)) (fun other =>
        (orderly.sessions other).sublist (sub other)) (fun other w inside =>
          orderly.apart other w ((sub other).subset inside)) ?_ orderly.fresh orderly.distinct ?_
      orderly.notices orderly.matching : Orderly { m with
        withdrawn := m.withdrawn ++ left.map ResourceLeaseWaiter.id } _).setWaiters _
    · intro other
      have split : (m.joined.filter fun w => w.resourceKey = other ∧
          w.id ∉ m.withdrawn ++ left.map ResourceLeaseWaiter.id) =
          (m.joined.filter fun w => w.resourceKey = other ∧ w.id ∉ m.withdrawn).filter
            fun w => w.id ∉ left.map ResourceLeaseWaiter.id := by
        rw [List.filter_filter]
        congr 1
        funext w
        by_cases own : w.resourceKey = other <;> by_cases old : w.id ∈ m.withdrawn <;>
          simp [own, old]
      refine split.trans ?_
      rw [orderly.order other, List.filter_append]
      congr 1
      · refine List.filter_eq_self.mpr fun w inside => decide_eq_true fun gone => ?_
        obtain ⟨v, leaving, same⟩ := List.mem_map.mp gone
        have waiting := (List.mem_filter.mp leaving).1
        have joinedV := (listed k).subset (List.mem_append_right _ waiting)
        have joinedW := (listed other).subset (List.mem_append_left _ inside)
        cases unique joinedV joinedW same
        obtain ⟨p, promoted, rfl⟩ := List.mem_map.mp inside
        have own : p.1.resourceKey = other := by simpa using (List.mem_filter.mp promoted).2
        have key : other = k := own.symm.trans (orderly.keys k _ waiting)
        subst key
        have distinct : ((m.promoted.filter fun p => p.1.resourceKey = other).map Prod.fst ++
            m.getWaiters other).Nodup :=
          (List.Nodup.of_map _ orderly.distinct).sublist (listed other)
        exact (List.nodup_append.mp distinct).2.2 _ inside _ waiting rfl
      · by_cases same : other = k
        · subst same
          rw [Function.update_self]
          refine List.filter_congr fun w inside => ?_
          have joinedW := (listed other).subset (List.mem_append_right _ inside)
          by_cases own : w.waiterSessionId = caller
          · have leaving : w ∈ left := List.mem_filter.mpr ⟨inside, by simpa using own⟩
            simp [own, List.mem_map_of_mem leaving]
          · have staying : w.id ∉ left.map ResourceLeaseWaiter.id := by
              intro gone
              obtain ⟨v, leaving, same⟩ := List.mem_map.mp gone
              obtain ⟨waiting, callers⟩ := List.mem_filter.mp leaving
              cases unique ((listed other).subset (List.mem_append_right _ waiting)) joinedW same
              exact own (by simpa using callers)
            simp [own, staying]
        · rw [Function.update_of_ne same]
          refine List.filter_eq_self.mpr fun w inside => decide_eq_true fun gone => ?_
          obtain ⟨v, leaving, equal⟩ := List.mem_map.mp gone
          have waiting := (List.mem_filter.mp leaving).1
          cases unique ((listed k).subset (List.mem_append_right _ waiting))
            ((listed other).subset (List.mem_append_right _ inside)) equal
          exact same ((orderly.keys other _ inside).symm.trans (orderly.keys k _ waiting))
    · intro i gone
      rcases List.mem_append.mp gone with old | new
      · exact orderly.gone i old
      · obtain ⟨w, leaving, rfl⟩ := List.mem_map.mp new
        exact orderly.fresh w ((listed k).subset
          (List.mem_append_right _ (List.mem_filter.mp leaving).1))
  · have before : m.getWaiters other ≠ [] := by
      intro none
      rw [queues] at some
      exact some (List.sublist_nil.mp (none ▸ sub other))
    exact settled.full other before

section Calls

variable {toLowerCase : JsString → JsString}

theorem Settled.acquire (settled : m.Settled) (input : AcquireInput) (now now' : Nat)
    (saved : Bool) : (m.acquire toLowerCase input now now' saved).manager.Settled := by
  unfold ResourceLeaseManager.acquire
  split
  · exact settled
  · rename_i normalized _
    have after := (settled.expire now).acquireLoaded normalized now'
    dsimp only
    rw [apply_ite Outcome.manager, ite_self]
    exact after

theorem Settled.configure (settled : m.Settled) (key : JsString) (capacity : JsNumber)
    (now now' : Nat) (saved saved' : Bool) :
    (m.configure toLowerCase key capacity now now' saved saved').manager.Settled := by
  have expired := settled.expire now
  unfold ResourceLeaseManager.configure
  split
  · exact settled
  · split
    · exact settled
    · dsimp only
      split
      · exact expired
      · split
        · exact expired
        · rename_i resourceKey _ _ _ low
          split
          · exact expired
          · have after := expired.resized resourceKey capacity.floor
              (fun lease held own => Nat.le_trans ((le_foldl_max _ 0).2 lease.slot
                (List.mem_map.mpr ⟨lease, mem_getLeases.mpr ⟨held, own⟩, rfl⟩))
                (Nat.not_lt.mp low)) now'
            split <;> exact after

theorem Settled.renew (settled : m.Settled) (key caller : JsString) (slot ttlMs : Option JsNumber)
    (now now' : Nat) (saved saved' : Bool) :
    (m.renew toLowerCase key caller slot ttlMs now now' saved saved').manager.Settled := by
  have expired := settled.expire now
  unfold ResourceLeaseManager.renew
  dsimp only
  split
  · exact settled
  · split
    · exact expired
    · split
      · exact expired
      · rename_i ttl _ _ _ lease _
        have after := expired.renewed (f := fun l => if l = lease then { lease with
          heartbeatAt := now', ttlMs := ttl.getD lease.ttlMs
          expiresAt := now' + ttl.getD lease.ttlMs } else l) fun l => by
            split
            · rename_i same
              exact ⟨same ▸ rfl, same ▸ rfl, same ▸ rfl⟩
            · exact ⟨rfl, rfl, rfl⟩
        split <;> exact after

theorem Settled.release (settled : m.Settled) (key caller : JsString) (force : Bool)
    (slot : Option JsNumber) (now now' : Nat) (saved saved' : Bool) :
    (m.release toLowerCase key caller force slot now now' saved saved').manager.Settled := by
  unfold ResourceLeaseManager.release
  dsimp only
  split
  · exact settled
  · rename_i resourceKey callerSessionId held _
    have expired : (if force then (m, false) else m.expireDueLeases now).1.Settled := by
      split
      · exact settled
      · exact settled.expire now
    generalize (if force then (m, false) else m.expireDueLeases now) = e at expired ⊢
    obtain ⟨before, changed⟩ := e
    dsimp only at expired ⊢
    split
    · exact expired
    · split
      · exact expired
      · rename_i lease selected
        obtain ⟨-, own⟩ := selectLease_mem selected
        have after := expired.freed lease now'
        rw [own] at after
        split <;> exact after

theorem Settled.withdraw (settled : m.Settled) (key caller : JsString) (saved : Bool) :
    (m.withdraw toLowerCase key caller saved).manager.Settled := by
  unfold ResourceLeaseManager.withdraw
  dsimp only
  split
  · exact settled
  · split
    · exact settled
    · rename_i resourceKey callerSessionId _ _
      have after := settled.withdrew resourceKey callerSessionId
      split <;> exact after

theorem Settled.getStatus (settled : m.Settled) (key : JsString) (now : Nat) (saved : Bool) :
    (m.getStatus toLowerCase key now saved).manager.Settled := by
  unfold ResourceLeaseManager.getStatus
  split
  · exact settled
  · dsimp only
    split <;> exact settled.expire now

theorem Settled.perform (settled : m.Settled) (operation : Operation) :
    (m.perform toLowerCase operation).Settled := by
  cases operation with
  | registerSystemOwner start =>
    obtain ⟨orderly, full⟩ := settled
    exact ⟨⟨orderly.slots, orderly.range, orderly.keys, orderly.sessions, orderly.apart,
      orderly.order, orderly.fresh, orderly.distinct, orderly.gone, orderly.notices,
      orderly.matching⟩, full⟩
  | acquire input now now' saved => exact settled.acquire input now now' saved
  | wait input now now' saved => exact settled.acquire _ now now' saved
  | configure key capacity now now' saved saved' =>
    exact settled.configure key capacity now now' saved saved'
  | renew key caller slot ttlMs now now' saved saved' =>
    exact settled.renew key caller slot ttlMs now now' saved saved'
  | release key caller force slot now now' saved saved' =>
    exact settled.release key caller force slot now now' saved saved'
  | withdraw key caller saved => exact settled.withdraw key caller saved
  | getStatus key now saved => exact settled.getStatus key now saved
  | sweepExpiredNow now => exact settled.expire now

theorem settled_of_reachable (reached : (leaseRuns toLowerCase).Reachable m) : m.Settled := by
  apply reached.invariant
  · refine ⟨⟨.nil, ?_, ?_, fun _ => .nil, ?_, fun _ => rfl, ?_, .nil, ?_, rfl, ?_⟩,
      fun k some => absurd rfl some⟩
    all_goals simp [leaseRuns, getWaiters]
  · intro before operation after _ settled _ performed
    exact Option.some.inj performed ▸ settled.perform operation

end Calls

/-! ## Pools -/

/-- The pools of a manager are consistent. -/
structure Consistent (m : ResourceLeaseManager) : Prop where
  slots : ∀ k, ((m.getLeases k).map ResourceLease.slot).Nodup
  range : ∀ k, ∀ lease ∈ m.getLeases k, 1 ≤ lease.slot ∧ lease.slot ≤ m.getCapacity k
  holders : ∀ k, ((m.getLeases k).map ResourceLease.ownerSessionId).Nodup
  queued : ∀ k, ((m.getWaiters k).map ResourceLeaseWaiter.waiterSessionId).Nodup
  apart : ∀ k, ∀ w ∈ m.getWaiters k, ∀ lease ∈ m.getLeases k,
    lease.ownerSessionId ≠ w.waiterSessionId
  ids : (m.waiters.values.flatten.map ResourceLeaseWaiter.id).Nodup
  full : ∀ k, m.getWaiters k ≠ [] → ∀ slot, 1 ≤ slot → slot ≤ m.getCapacity k →
    ∃ lease ∈ m.getLeases k, lease.slot = slot

theorem Orderly.waiting_sublist {queue : JsString → List ResourceLeaseWaiter}
    (orderly : m.Orderly queue) (k : JsString) : (queue k).Sublist m.joined :=
  (List.sublist_append_right _ _).trans ((orderly.order k).symm ▸ List.filter_sublist)

theorem Settled.consistent (settled : m.Settled) : m.Consistent := by
  have orderly := settled.orderly
  have apart (k : JsString) : (m.getLeases k).Pairwise fun a b =>
      a.slot ≠ b.slot ∧ a.ownerSessionId ≠ b.ownerSessionId := by
    have pool : (m.leases.filter fun lease => lease.resourceKey = k).Pairwise fun a b =>
        a.slot ≠ b.slot ∧ a.ownerSessionId ≠ b.ownerSessionId := by
      refine (orderly.slots.sublist List.filter_sublist).imp_of_mem fun {a b} inA inB apart => ?_
      have keyA : a.resourceKey = k := by simpa using (List.mem_filter.mp inA).2
      have keyB : b.resourceKey = k := by simpa using (List.mem_filter.mp inB).2
      exact apart (keyA.trans keyB.symm)
    exact (List.perm_insertionSort _ _).symm.pairwise pool
      fun {a b} apart => ⟨apart.1.symm, apart.2.symm⟩
  refine ⟨fun k => ?_, fun k lease held => ?_, fun k => ?_, fun k => ?_,
    fun k w waiting lease held => ?_, ?_, fun k some slot least most => ?_⟩
  · exact List.pairwise_map.mpr ((apart k).imp fun both => both.1)
  · obtain ⟨inside, own⟩ := mem_getLeases.mp held
    exact own ▸ orderly.range lease inside
  · exact List.pairwise_map.mpr ((apart k).imp fun both => both.2)
  · exact List.pairwise_map.mpr (orderly.sessions k)
  · obtain ⟨inside, own⟩ := mem_getLeases.mp held
    exact orderly.apart k w waiting lease inside own
  · have found {k : JsString} {queue : List ResourceLeaseWaiter}
        (listed : (k, queue) ∈ m.waiters.entries) : m.getWaiters k = queue := by
      simp [getWaiters, JsMap.mem_entries.mp listed]
    rw [List.map_flatten, List.nodup_flatten]
    constructor
    · intro ids inside
      obtain ⟨queue, listed, rfl⟩ := List.mem_map.mp inside
      obtain ⟨⟨k, queue⟩, entry, rfl⟩ := List.mem_map.mp listed
      exact orderly.distinct.sublist ((found entry ▸ orderly.waiting_sublist k).map _)
    · refine List.pairwise_map.mpr (List.pairwise_map.mpr ?_)
      have keys : m.waiters.entries.Pairwise fun a b => a.1 ≠ b.1 :=
        List.pairwise_map.mp m.waiters.nodup
      refine keys.imp_of_mem fun {a b} inA inB away => ?_
      intro i memberA memberB
      obtain ⟨v, waitingA, rfl⟩ := List.mem_map.mp memberA
      obtain ⟨w, waitingB, same⟩ := List.mem_map.mp memberB
      have queuedA : v ∈ m.getWaiters a.1 := (found inA).symm ▸ waitingA
      have queuedB : w ∈ m.getWaiters b.1 := (found inB).symm ▸ waitingB
      have equal := List.inj_on_of_nodup_map orderly.distinct
        ((orderly.waiting_sublist _).subset queuedB) ((orderly.waiting_sublist _).subset queuedA) same
      subst equal
      exact away ((orderly.keys _ _ queuedA).symm.trans (orderly.keys _ _ queuedB))
  · obtain ⟨lease, held, own, same⟩ :=
      lowestFreeSlot_none.mp (settled.full k some) slot least most
    exact ⟨lease, mem_getLeases.mpr ⟨held, own⟩, same⟩

end ResourceLeaseManager

theorem pools_consistent {toLowerCase : JsString → JsString} {m : ResourceLeaseManager}
    (reached : (leaseRuns toLowerCase).Reachable m) : m.Consistent :=
  (ResourceLeaseManager.settled_of_reachable reached).consistent

/-! ### Two slots and four sessions -/

/-- Session `a` and `b` take the two slots of a pool, and `c` and `d` wait. -/
def sharing : List Operation :=
  [.configure (js "gpu") (.finite 2) 0 0 true true,
    .acquire { resourceKey := js "gpu", callerSessionId := js "a", purpose := js "run" } 0 0 true,
    .acquire { resourceKey := js "gpu", callerSessionId := js "b", purpose := js "run" } 9 9 true,
    .wait { resourceKey := js "gpu", callerSessionId := js "c", purpose := js "run" } 10 10 true,
    .wait { resourceKey := js "gpu", callerSessionId := js "d", purpose := js "run" } 11 11 true]

theorem sharing_consistent :
    ∃ m, (leaseRuns id).Reachable m ∧
      (m.getLeases (js "gpu")).map ResourceLease.ownerSessionId = [js "a", js "b"] ∧
      (m.getWaiters (js "gpu")).map ResourceLeaseWaiter.waiterSessionId = [js "c", js "d"] ∧
      m.Consistent := by
  obtain ⟨m, reached, held, queued⟩ := (leaseRuns id).exists_reaches_of_run (fun _ _ => true)
    (fun m => (m.getLeases (js "gpu")).map ResourceLease.ownerSessionId = [js "a", js "b"] ∧
      (m.getWaiters (js "gpu")).map ResourceLeaseWaiter.waiterSessionId = [js "c", js "d"])
    sharing (by decide +kernel)
  exact ⟨m, reached.reachable, held, queued, pools_consistent reached.reachable⟩

end Takode.Leases
