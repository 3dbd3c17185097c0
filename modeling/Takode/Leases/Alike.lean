import Takode.Leases.Storing

/-!
# Managers that are told apart by nothing

Two managers whose records hold the same, each in some order that is listed the same way. An
operation gives the same answers on both, and leaves two such managers again.
-/

namespace Takode.Leases

/-- The lease with its metadata in the order in which it is listed. -/
def ResourceLease.canonical (lease : ResourceLease) : ResourceLease :=
  { lease with metadata := lease.metadata.canonical }

def ResourceLeaseWaiter.canonical (waiter : ResourceLeaseWaiter) : ResourceLeaseWaiter :=
  { waiter with metadata := waiter.metadata.canonical }

def Notification.canonical (notification : Notification) : Notification :=
  { notification with lease := notification.lease.canonical }

def ResourceLeaseStatus.canonical (status : ResourceLeaseStatus) : ResourceLeaseStatus :=
  { status with
    leases := status.leases.map ResourceLease.canonical
    waiters := status.waiters.map ResourceLeaseWaiter.canonical }

def AcquireResult.canonical : AcquireResult → AcquireResult
  | .acquired capacity lease waiters =>
    .acquired capacity lease.canonical (waiters.map ResourceLeaseWaiter.canonical)
  | .alreadyOwned capacity lease waiters =>
    .alreadyOwned capacity lease.canonical (waiters.map ResourceLeaseWaiter.canonical)
  | .queued pool waiter position => .queued pool.canonical waiter.canonical position
  | .unavailable pool => .unavailable pool.canonical

def ReleaseResult.canonical (result : ReleaseResult) : ReleaseResult where
  released := result.released.canonical
  promoted := result.promoted.map ResourceLease.canonical
  waiters := result.waiters.map ResourceLeaseWaiter.canonical

namespace ResourceLeaseManager

variable {m m' : ResourceLeaseManager} {k : JsString} {now : Nat}

/-- What the operations can see of two managers is the same. -/
structure Alike (m m' : ResourceLeaseManager) : Prop where
  capacityKeys : m.capacities.ownKeys = m'.capacities.ownKeys
  capacities : ∀ k, m.capacities.get? k = m'.capacities.get? k
  nextWaiterId : m.nextWaiterId = m'.nextWaiterId
  leases : m.leases.map ResourceLease.canonical = m'.leases.map ResourceLease.canonical
  queueKeys : m.waiters.ownKeys = m'.waiters.ownKeys
  queues : ∀ k, (m.getWaiters k).map ResourceLeaseWaiter.canonical =
    (m'.getWaiters k).map ResourceLeaseWaiter.canonical
  systemOwners : m.systemOwners = m'.systemOwners
  notified : m.notified.map Notification.canonical = m'.notified.map Notification.canonical

theorem Alike.refl (m : ResourceLeaseManager) : m.Alike m :=
  ⟨rfl, fun _ => rfl, rfl, rfl, rfl, fun _ => rfl, rfl, rfl⟩

theorem Alike.symm (alike : m.Alike m') : m'.Alike m :=
  ⟨alike.capacityKeys.symm, fun k => (alike.capacities k).symm, alike.nextWaiterId.symm,
    alike.leases.symm, alike.queueKeys.symm, fun k => (alike.queues k).symm,
    alike.systemOwners.symm, alike.notified.symm⟩

theorem Alike.trans {m'' : ResourceLeaseManager} (first : m.Alike m') (second : m'.Alike m'') :
    m.Alike m'' :=
  ⟨first.capacityKeys.trans second.capacityKeys, fun k =>
      (first.capacities k).trans (second.capacities k),
    first.nextWaiterId.trans second.nextWaiterId, first.leases.trans second.leases,
    first.queueKeys.trans second.queueKeys, fun k => (first.queues k).trans (second.queues k),
    first.systemOwners.trans second.systemOwners, first.notified.trans second.notified⟩

/-! ## Queries -/

theorem find?_map_canonical {α : Type} {canonical : α → α} {items items' : List α}
    (same : items.map canonical = items'.map canonical) {p : α → Bool}
    (blind : ∀ a, p (canonical a) = p a) :
    (items.find? p).map canonical = (items'.find? p).map canonical := by
  have moved (items : List α) : (items.map canonical).find? p = (items.find? p).map canonical := by
    rw [List.find?_map]
    congr 2
    funext a
    exact blind a
  rw [← moved, same, moved]

theorem filter_map_canonical {α : Type} {canonical : α → α} {items items' : List α}
    (same : items.map canonical = items'.map canonical) {p : α → Bool}
    (blind : ∀ a, p (canonical a) = p a) :
    (items.filter p).map canonical = (items'.filter p).map canonical := by
  have moved (items : List α) : (items.map canonical).filter p = (items.filter p).map canonical := by
    rw [List.filter_map]
    congr 2
    funext a
    exact blind a
  rw [← moved, same, moved]

theorem findIdx_map_canonical {α : Type} {canonical : α → α} {items items' : List α}
    (same : items.map canonical = items'.map canonical) {p : α → Bool}
    (blind : ∀ a, p (canonical a) = p a) : items.findIdx p = items'.findIdx p := by
  have moved (items : List α) : (items.map canonical).findIdx p = items.findIdx p := by
    rw [List.findIdx_map]
    congr 1
    funext a
    exact blind a
  rw [← moved, same, moved]

theorem Alike.getCapacity (alike : m.Alike m') (k : JsString) :
    m.getCapacity k = m'.getCapacity k := by
  rw [ResourceLeaseManager.getCapacity, alike.capacities]
  rfl

theorem Alike.getLeases (alike : m.Alike m') (k : JsString) :
    (m.getLeases k).map ResourceLease.canonical = (m'.getLeases k).map ResourceLease.canonical := by
  unfold ResourceLeaseManager.getLeases
  rw [List.map_insertionSort _ (fun a b => a.slot ≤ b.slot), List.map_insertionSort _
    (fun a b => a.slot ≤ b.slot), filter_map_canonical alike.leases fun _ => rfl]
  all_goals exact fun _ _ _ _ => Iff.rfl

theorem slots_eq {leases leases' : List ResourceLease}
    (same : leases.map ResourceLease.canonical = leases'.map ResourceLease.canonical) :
    leases.map ResourceLease.slot = leases'.map ResourceLease.slot := by
  have slots := congrArg (List.map ResourceLease.slot) same
  rwa [List.map_map, List.map_map] at slots

theorem Alike.lowestFreeSlot (alike : m.Alike m') (k : JsString) :
    m.lowestFreeSlot k = m'.lowestFreeSlot k := by
  unfold ResourceLeaseManager.lowestFreeSlot
  rw [alike.getCapacity, slots_eq (alike.getLeases k)]

theorem isEmpty_eq {α : Type} {canonical : α → α} {items items' : List α}
    (same : items.map canonical = items'.map canonical) : items.isEmpty = items'.isEmpty := by
  rw [← List.isEmpty_map (f := canonical), same, List.isEmpty_map]

theorem length_eq {α : Type} {canonical : α → α} {items items' : List α}
    (same : items.map canonical = items'.map canonical) : items.length = items'.length := by
  rw [← List.length_map canonical, same, List.length_map]

theorem Alike.buildStatus (alike : m.Alike m') (k : JsString) :
    (m.buildStatus k).canonical = (m'.buildStatus k).canonical := by
  simp only [ResourceLeaseManager.buildStatus, ResourceLeaseStatus.canonical, alike.getCapacity,
    alike.getLeases, alike.queues, length_eq (alike.getLeases k), isEmpty_eq (alike.queues k)]

/-! ## Changes of the data -/

theorem Alike.setWaiters (alike : m.Alike m') {queue queue' : List ResourceLeaseWaiter}
    (same : queue.map ResourceLeaseWaiter.canonical = queue'.map ResourceLeaseWaiter.canonical) :
    (m.setWaiters k queue).Alike (m'.setWaiters k queue') := by
  refine ⟨alike.capacityKeys, alike.capacities, alike.nextWaiterId, alike.leases, ?_, fun other => ?_,
    alike.systemOwners, alike.notified⟩
  · unfold ResourceLeaseManager.setWaiters
    dsimp only
    rw [isEmpty_eq same]
    split
    · exact Record.ownKeys_delete alike.queueKeys k
    · exact Record.ownKeys_set alike.queueKeys k queue queue'
  · rw [getWaiters_setWaiters, getWaiters_setWaiters]
    by_cases own : other = k
    · subst own
      rw [Function.update_self, Function.update_self, same]
    · rw [Function.update_of_ne own, Function.update_of_ne own, alike.queues]

theorem Alike.addLease (alike : m.Alike m') {lease lease' : ResourceLease}
    (same : lease.canonical = lease'.canonical) :
    Alike { m with leases := m.leases ++ [lease] } { m' with leases := m'.leases ++ [lease'] } := by
  refine ⟨alike.capacityKeys, alike.capacities, alike.nextWaiterId, ?_, alike.queueKeys,
    alike.queues, alike.systemOwners, alike.notified⟩
  simp [alike.leases, same]

theorem leaseOfWaiter_canonical (waiter : ResourceLeaseWaiter) (slot now : Nat) :
    (leaseOfWaiter waiter slot now).canonical = (leaseOfWaiter waiter.canonical slot now) := rfl

theorem Alike.promote (alike : m.Alike m') {waiter waiter' : ResourceLeaseWaiter}
    (same : waiter.canonical = waiter'.canonical) (slot now : Nat) :
    (m.promote waiter slot now).Alike (m'.promote waiter' slot now) := by
  have lease : (leaseOfWaiter waiter slot now).canonical =
      (leaseOfWaiter waiter' slot now).canonical := by
    rw [leaseOfWaiter_canonical, same, leaseOfWaiter_canonical]
  have session : waiter.canonical.waiterSessionId = waiter'.canonical.waiterSessionId := by rw [same]
  have queuedAt : waiter.canonical.queuedAt = waiter'.canonical.queuedAt := by rw [same]
  have notice : Notification.canonical ⟨leaseOfWaiter waiter slot now, waiter.queuedAt,
        m.systemOwners.keys.find? waiter.waiterSessionId.startsWith⟩ =
      Notification.canonical ⟨leaseOfWaiter waiter' slot now, waiter'.queuedAt,
        m'.systemOwners.keys.find? waiter'.waiterSessionId.startsWith⟩ := by
    simp only [Notification.canonical, Notification.mk.injEq]
    exact ⟨lease, queuedAt, by rw [alike.systemOwners, show waiter.waiterSessionId = _ from session]; rfl⟩
  have taken := alike.addLease lease
  refine ⟨taken.capacityKeys, taken.capacities, taken.nextWaiterId, taken.leases, taken.queueKeys,
    taken.queues, taken.systemOwners, ?_⟩
  show List.map _ (m.notified ++ [_]) = List.map _ (m'.notified ++ [_])
  rw [List.map_append, List.map_append, alike.notified]
  exact congrArg (_ ++ [·]) notice

theorem Alike.promoteLoop (alike : m.Alike m') (k : JsString) (now : Nat) :
    ∀ left left' : List ResourceLeaseWaiter,
      left.map ResourceLeaseWaiter.canonical = left'.map ResourceLeaseWaiter.canonical →
      (m.promoteLoop k now left).1.Alike (m'.promoteLoop k now left').1 ∧
        (m.promoteLoop k now left).2.1.map ResourceLeaseWaiter.canonical =
          (m'.promoteLoop k now left').2.1.map ResourceLeaseWaiter.canonical ∧
        (m.promoteLoop k now left).2.2.map ResourceLease.canonical =
          (m'.promoteLoop k now left').2.2.map ResourceLease.canonical := by
  intro left
  induction left generalizing m m' with
  | nil =>
    intro left' same
    cases left' with
    | nil => exact ⟨alike, rfl, rfl⟩
    | cons _ _ => cases same
  | cons waiter rest ih =>
    intro left' same
    cases left' with
    | nil => cases same
    | cons waiter' rest' =>
      obtain ⟨first, others⟩ := List.cons.inj same
      rw [promoteLoop_cons, promoteLoop_cons, ← alike.lowestFreeSlot]
      cases m.lowestFreeSlot k with
      | none => exact ⟨alike, same, rfl⟩
      | some slot =>
        obtain ⟨after, left, leases⟩ := ih (alike.promote first slot now) rest' others
        refine ⟨after, left, ?_⟩
        rw [List.map_cons, List.map_cons, leases, leaseOfWaiter_canonical, first,
          leaseOfWaiter_canonical]

theorem Alike.promoteWaiters (alike : m.Alike m') (k : JsString) (now : Nat) :
    (m.promoteWaiters k now).1.Alike (m'.promoteWaiters k now).1 ∧
      (m.promoteWaiters k now).2.map ResourceLease.canonical =
        (m'.promoteWaiters k now).2.map ResourceLease.canonical := by
  obtain ⟨after, left, leases⟩ := alike.promoteLoop k now _ _ (alike.queues k)
  exact ⟨after.setWaiters left, leases⟩

theorem Alike.promoteAll (alike : m.Alike m') (now : Nat) (keys : List JsString) :
    (m.promoteAll now keys).1.Alike (m'.promoteAll now keys).1 ∧
      (m.promoteAll now keys).2 = (m'.promoteAll now keys).2 := by
  induction keys generalizing m m' with
  | nil => exact ⟨alike, rfl⟩
  | cons k rest ih =>
    obtain ⟨after, promoted⟩ := alike.promoteWaiters k now
    obtain ⟨last, changed⟩ := ih after
    refine ⟨last, ?_⟩
    show (!(m.promoteWaiters k now).2.isEmpty || ((m.promoteWaiters k now).1.promoteAll now rest).2) =
      (!(m'.promoteWaiters k now).2.isEmpty || ((m'.promoteWaiters k now).1.promoteAll now rest).2)
    rw [changed, isEmpty_eq promoted]

theorem Alike.expire (alike : m.Alike m') (now : Nat) :
    (m.expireDueLeases now).1.Alike (m'.expireDueLeases now).1 ∧
      (m.expireDueLeases now).2 = (m'.expireDueLeases now).2 := by
  have kept : Alike { m with leases := m.leases.filter fun lease => now < lease.expiresAt }
      { m' with leases := m'.leases.filter fun lease => now < lease.expiresAt } :=
    ⟨alike.capacityKeys, alike.capacities, alike.nextWaiterId,
      filter_map_canonical alike.leases fun _ => rfl, alike.queueKeys, alike.queues,
      alike.systemOwners, alike.notified⟩
  obtain ⟨after, changed⟩ := kept.promoteAll now m.waiters.ownKeys
  have expired : (m.leases.filter fun lease => lease.expiresAt ≤ now).map ResourceLease.canonical =
      (m'.leases.filter fun lease => lease.expiresAt ≤ now).map ResourceLease.canonical :=
    filter_map_canonical alike.leases fun _ => rfl
  unfold expireDueLeases
  dsimp only
  rw [← alike.queueKeys]
  exact ⟨after, by rw [changed, isEmpty_eq expired]⟩

theorem Alike.numbered (alike : m.Alike m') (joined joined' : List ResourceLeaseWaiter) :
    Alike { m with nextWaiterId := m.nextWaiterId + 1, joined }
      { m' with nextWaiterId := m'.nextWaiterId + 1, joined := joined' } :=
  ⟨alike.capacityKeys, alike.capacities, congrArg (· + 1) alike.nextWaiterId, alike.leases,
    alike.queueKeys, alike.queues, alike.systemOwners, alike.notified⟩

theorem Alike.addWaiter (alike : m.Alike m') (input : NormalizedInput) (now : Nat) :
    (m.addWaiter input now).1.Alike (m'.addWaiter input now).1 ∧
      (m.addWaiter input now).2.canonical = (m'.addWaiter input now).2.canonical := by
  have queues := alike.queues input.resourceKey
  have found := find?_map_canonical queues
    (p := fun w => w.waiterSessionId = input.callerSessionId) fun _ => rfl
  unfold ResourceLeaseManager.addWaiter
  cases one : (m.getWaiters input.resourceKey).find?
      fun w => w.waiterSessionId = input.callerSessionId with
  | some existing =>
    cases two : (m'.getWaiters input.resourceKey).find?
        fun w => w.waiterSessionId = input.callerSessionId with
    | some existing' =>
      rw [one, two] at found
      exact ⟨alike, Option.some.inj found⟩
    | none =>
      rw [one, two] at found
      cases found
  | none =>
    cases two : (m'.getWaiters input.resourceKey).find?
        fun w => w.waiterSessionId = input.callerSessionId with
    | some existing' =>
      rw [one, two] at found
      cases found
    | none =>
      refine ⟨?_, ?_⟩
      · refine (alike.numbered _ _).setWaiters ?_
        rw [List.map_append, List.map_append, queues, alike.nextWaiterId]
      · dsimp only
        rw [alike.nextWaiterId]

theorem Alike.acquireLoaded (alike : m.Alike m') (input : NormalizedInput) (now : Nat) :
    (m.acquireLoaded input now).1.Alike (m'.acquireLoaded input now).1 ∧
      (m.acquireLoaded input now).2.canonical = (m'.acquireLoaded input now).2.canonical := by
  have found := find?_map_canonical (alike.getLeases input.resourceKey)
    (p := fun lease => lease.ownerSessionId = input.callerSessionId) fun _ => rfl
  unfold ResourceLeaseManager.acquireLoaded
  cases one : (m.getLeases input.resourceKey).find?
      fun lease => lease.ownerSessionId = input.callerSessionId with
  | some existing =>
    cases two : (m'.getLeases input.resourceKey).find?
        fun lease => lease.ownerSessionId = input.callerSessionId with
    | some existing' =>
      rw [one, two] at found
      refine ⟨alike, ?_⟩
      simp only [AcquireResult.canonical, alike.getCapacity, alike.queues, Option.some.inj found]
    | none =>
      rw [one, two] at found
      cases found
  | none =>
    cases two : (m'.getLeases input.resourceKey).find?
        fun lease => lease.ownerSessionId = input.callerSessionId with
    | some existing' =>
      rw [one, two] at found
      cases found
    | none =>
      dsimp only
      rw [← alike.lowestFreeSlot]
      cases m.lowestFreeSlot input.resourceKey with
      | some slot =>
        have after : Alike { m with leases := m.leases ++ [createLease input slot now] }
            { m' with leases := m'.leases ++ [createLease input slot now] } := alike.addLease rfl
        refine ⟨after, ?_⟩
        simp only [AcquireResult.canonical, alike.getCapacity, after.queues]
      | none =>
        cases input.waitIfUnavailable with
        | false => exact ⟨alike, congrArg AcquireResult.unavailable (alike.buildStatus _)⟩
        | true =>
          obtain ⟨after, waiter⟩ := alike.addWaiter input now
          refine ⟨after, ?_⟩
          have pool := after.buildStatus input.resourceKey
          have id : (m.addWaiter input now).2.canonical.id =
              (m'.addWaiter input now).2.canonical.id := by rw [waiter]
          have position : ((m.addWaiter input now).1.getWaiters input.resourceKey).findIdx
                (fun w => w.id = (m.addWaiter input now).2.id) =
              ((m'.addWaiter input now).1.getWaiters input.resourceKey).findIdx
                fun w => w.id = (m'.addWaiter input now).2.id := by
            rw [show (m.addWaiter input now).2.id = (m'.addWaiter input now).2.id from id]
            exact findIdx_map_canonical (after.queues input.resourceKey) fun _ => rfl
          show AcquireResult.queued _ _ _ = AcquireResult.queued _ _ _
          rw [pool, waiter]
          exact congrArg (fun i => AcquireResult.queued _ _ (i + 1)) position

/-- Who holds the slots of a pool, as a refusal says it. -/
def soleOwner : List ResourceLease → JsString
  | [only] => only.ownerSessionId
  | _ => js "the slot owner"

theorem soleOwner_eq {held held' : List ResourceLease}
    (leases : held.map ResourceLease.canonical = held'.map ResourceLease.canonical) :
    soleOwner held = soleOwner held' := by
  have length := length_eq leases
  match held, held' with
  | [], [] => rfl
  | [a], [b] =>
    have one : a.canonical = b.canonical := (List.cons.inj leases).1
    show a.canonical.ownerSessionId = b.canonical.ownerSessionId
    rw [one]
  | _ :: _ :: _, _ :: _ :: _ => rfl
  | [], _ :: _ | _ :: _, [] | [_], _ :: _ :: _ | _ :: _ :: _, [_] => simp at length

/-- Whether a caller may use the lease that was found. -/
theorem judged_eq {lease lease' : Option ResourceLease}
    (found : lease.map ResourceLease.canonical = lease'.map ResourceLease.canonical)
    {missing missing' : Except Failure ResourceLease} (refused : missing = missing')
    (k caller : JsString) (action : String) (force : Bool) :
    (match lease with
      | none => missing
      | some lease =>
        if !force && lease.ownerSessionId ≠ caller then
          .error (.error .forbidden
            (js "Only " ++ lease.ownerSessionId ++ js s!" can {action} " ++ k))
        else .ok lease).map ResourceLease.canonical =
    (match lease' with
      | none => missing'
      | some lease =>
        if !force && lease.ownerSessionId ≠ caller then
          .error (.error .forbidden
            (js "Only " ++ lease.ownerSessionId ++ js s!" can {action} " ++ k))
        else .ok lease).map ResourceLease.canonical := by
  match lease, lease' with
  | none, none => exact congrArg (Except.map ResourceLease.canonical) refused
  | none, some _ | some _, none => cases found
  | some lease, some lease' =>
    have same : lease.canonical = lease'.canonical := Option.some.inj found
    have owner : lease.canonical.ownerSessionId = lease'.canonical.ownerSessionId := by rw [same]
    dsimp only
    rw [show lease.ownerSessionId = lease'.ownerSessionId from owner]
    split
    · rfl
    · exact congrArg Except.ok same

theorem Alike.selectLease (alike : m.Alike m') (k caller : JsString) (slot : Option Nat)
    (action : String) (force : Bool) :
    (m.selectLease k caller slot action force).map ResourceLease.canonical =
      (m'.selectLease k caller slot action force).map ResourceLease.canonical := by
  have leases := alike.getLeases k
  have found := find?_map_canonical leases (p := fun entry => entry.ownerSessionId = caller)
    fun _ => rfl
  have held (slot : Nat) := find?_map_canonical leases (p := fun entry => entry.slot = slot)
    fun _ => rfl
  have owner := congrArg (fun owner : JsString => Except.error (α := ResourceLease)
    (Failure.error .forbidden (js "Only " ++ owner ++ js s!" can {action} " ++ k)))
    (soleOwner_eq leases)
  cases slot with
  | none =>
    refine judged_eq found ?_ k caller action force
    rw [isEmpty_eq leases]
    split
    · rfl
    · exact owner
  | some slot => exact judged_eq (held slot) rfl k caller action force

/-! ## A lease of its own -/

theorem Storable.same_iff (storable : m.Storable) {a b : ResourceLease} (listedA : a ∈ m.leases)
    (listedB : b ∈ m.leases) : a = b ↔ a.resourceKey = b.resourceKey ∧ a.slot = b.slot := by
  constructor
  · rintro rfl
    exact ⟨rfl, rfl⟩
  · rintro ⟨key, slot⟩
    by_contra other
    have symmetric : Std.Symm fun a b : ResourceLease =>
        a.resourceKey = b.resourceKey → a.slot ≠ b.slot :=
      ⟨fun _ _ apart key => (apart key.symm).symm⟩
    exact storable.slots.forall listedA listedB other key slot

theorem Storable.erase_eq (storable : m.Storable) {lease : ResourceLease}
    (listed : lease ∈ m.leases) : m.leases.erase lease =
      m.leases.filter fun l => !(l.resourceKey = lease.resourceKey && l.slot = lease.slot) := by
  have distinct : m.leases.Nodup := storable.slots.imp fun apart same => by
    subst same
    exact apart rfl rfl
  rw [distinct.erase_eq_filter]
  refine List.filter_congr fun l inside => ?_
  rw [bne, ← Bool.decide_and]
  exact congrArg (!·) (decide_eq_decide.mpr (storable.same_iff inside listed))

/-- A lease is taken from its slot. -/
theorem Alike.freed (alike : m.Alike m') (storable : m.Storable) (storable' : m'.Storable)
    {lease lease' : ResourceLease} (listed : lease ∈ m.leases) (listed' : lease' ∈ m'.leases)
    (same : lease.canonical = lease'.canonical) :
    Alike { m with leases := m.leases.erase lease } { m' with leases := m'.leases.erase lease' } := by
  have key : lease.canonical.resourceKey = lease'.canonical.resourceKey := by rw [same]
  have slot : lease.canonical.slot = lease'.canonical.slot := by rw [same]
  refine ⟨alike.capacityKeys, alike.capacities, alike.nextWaiterId, ?_, alike.queueKeys,
    alike.queues, alike.systemOwners, alike.notified⟩
  dsimp only
  rw [storable.erase_eq listed, storable'.erase_eq listed',
    show lease.resourceKey = lease'.resourceKey from key,
    show lease.slot = lease'.slot from slot]
  exact filter_map_canonical alike.leases fun _ => rfl

/-- A lease is renewed in its slot. -/
theorem Alike.renewed (alike : m.Alike m') (storable : m.Storable) (storable' : m'.Storable)
    {lease lease' renewed renewed' : ResourceLease} (listed : lease ∈ m.leases)
    (listed' : lease' ∈ m'.leases) (same : lease.canonical = lease'.canonical)
    (changed : renewed.canonical = renewed'.canonical) :
    Alike { m with leases := m.leases.map fun l => if l = lease then renewed else l }
      { m' with leases := m'.leases.map fun l => if l = lease' then renewed' else l } := by
  have key : lease.canonical.resourceKey = lease'.canonical.resourceKey := by rw [same]
  have slot : lease.canonical.slot = lease'.canonical.slot := by rw [same]
  -- On leases without their metadata order, the change is one function of the pool and slot.
  have moved {manager : ResourceLeaseManager} (storable : manager.Storable)
      {lease renewed : ResourceLease} (listed : lease ∈ manager.leases) :
      (manager.leases.map fun l => if l = lease then renewed else l).map ResourceLease.canonical =
        (manager.leases.map ResourceLease.canonical).map fun l =>
          if l.resourceKey = lease.canonical.resourceKey ∧ l.slot = lease.canonical.slot then
            renewed.canonical else l := by
    rw [List.map_map, List.map_map]
    refine List.map_congr_left fun l inside => ?_
    have own := storable.same_iff inside listed
    by_cases equal : l = lease
    · have placed := own.mp equal
      simp only [Function.comp_apply, equal, if_true, and_self]
    · have placed := mt own.mpr equal
      have elsewhere : ¬ (l.canonical.resourceKey = lease.canonical.resourceKey ∧
        l.canonical.slot = lease.canonical.slot) := placed
      simp only [Function.comp_apply, if_neg equal, if_neg elsewhere]
  refine ⟨alike.capacityKeys, alike.capacities, alike.nextWaiterId, ?_, alike.queueKeys,
    alike.queues, alike.systemOwners, alike.notified⟩
  dsimp only
  rw [moved storable listed, moved storable' listed', alike.leases, same, changed]

theorem Alike.resized (alike : m.Alike m') (k : JsString) (capacity now : Nat) :
    (ResourceLeaseManager.promoteWaiters
        { m with capacities := m.capacities.set k capacity } k now).1.Alike
      (ResourceLeaseManager.promoteWaiters { m' with capacities := m'.capacities.set k capacity } k now).1 := by
  have resized : Alike { m with capacities := m.capacities.set k capacity }
      { m' with capacities := m'.capacities.set k capacity } :=
    ⟨Record.ownKeys_set alike.capacityKeys k capacity capacity, fun other => by
        rw [JsMap.get?_set, JsMap.get?_set, alike.capacities], alike.nextWaiterId, alike.leases,
      alike.queueKeys, alike.queues, alike.systemOwners, alike.notified⟩
  exact (resized.promoteWaiters k now).1

end ResourceLeaseManager

/-! ## Calls -/

/-- Two outcomes that are told apart by nothing. -/
structure Outcome.Alike {α : Type} (canonical : α → α) (one other : Outcome α) : Prop where
  manager : one.manager.Alike other.manager
  result : one.result.map canonical = other.result.map canonical

namespace ResourceLeaseManager

section Calls

variable {m m' : ResourceLeaseManager} {toLowerCase : JsString → JsString} {now now' : Nat}
  {saved saved' : Bool}

theorem Alike.acquire (alike : m.Alike m') (input : AcquireInput) :
    (m.acquire toLowerCase input now now' saved).Alike AcquireResult.canonical
      (m'.acquire toLowerCase input now now' saved) := by
  unfold ResourceLeaseManager.acquire
  cases normalizeAcquireInput toLowerCase input with
  | error failure => exact ⟨alike, rfl⟩
  | ok normalized =>
    obtain ⟨expired, changed⟩ := alike.expire now
    obtain ⟨after, result⟩ := expired.acquireLoaded normalized now'
    dsimp only
    rw [changed]
    generalize (m.expireDueLeases now).1.acquireLoaded normalized now' = a at after result ⊢
    generalize (m'.expireDueLeases now).1.acquireLoaded normalized now' = a' at after result ⊢
    obtain ⟨before, one⟩ := a
    obtain ⟨before', other⟩ := a'
    cases one <;> cases other <;> try cases result
    all_goals
      dsimp only
      split
      · exact ⟨after, rfl⟩
      · exact ⟨after, congrArg Except.ok result⟩

theorem Alike.configure (alike : m.Alike m') (key : JsString) (capacity : JsNumber) :
    (m.configure toLowerCase key capacity now now' saved saved').Alike
      ResourceLeaseStatus.canonical
      (m'.configure toLowerCase key capacity now now' saved saved') := by
  unfold ResourceLeaseManager.configure
  cases normalizeResourceKey toLowerCase key with
  | error failure => exact ⟨alike, rfl⟩
  | ok resourceKey =>
    obtain ⟨expired, changed⟩ := alike.expire now
    dsimp only
    rw [changed, slots_eq (expired.getLeases resourceKey), expired.capacities]
    split
    · exact ⟨alike, rfl⟩
    · split
      · exact ⟨expired, rfl⟩
      · split
        · exact ⟨expired, rfl⟩
        · split
          · exact ⟨expired, congrArg Except.ok (expired.buildStatus resourceKey)⟩
          · have after := expired.resized resourceKey capacity.floor now'
            split
            · exact ⟨after, congrArg Except.ok (after.buildStatus resourceKey)⟩
            · exact ⟨after, rfl⟩

theorem Alike.validateSlot (alike : m.Alike m') (k : JsString) (slot : Option JsNumber) :
    m.validateSlot k slot = m'.validateSlot k slot := by
  unfold ResourceLeaseManager.validateSlot
  rw [alike.getCapacity]

/-- The same lease is selected, or none with the same error. -/
theorem Alike.selected (alike : m.Alike m') (k caller : JsString) (slot : Option Nat)
    (action : String) (force : Bool) :
    (∃ failure, m.selectLease k caller slot action force = .error failure ∧
      m'.selectLease k caller slot action force = .error failure) ∨
    ∃ lease lease', m.selectLease k caller slot action force = .ok lease ∧
      m'.selectLease k caller slot action force = .ok lease' ∧
      lease.canonical = lease'.canonical := by
  have same := alike.selectLease k caller slot action force
  cases one : m.selectLease k caller slot action force with
  | error failure =>
    cases other : m'.selectLease k caller slot action force with
    | error failure' =>
      rw [one, other] at same
      cases same
      exact .inl ⟨failure, rfl, rfl⟩
    | ok lease' =>
      rw [one, other] at same
      cases same
  | ok lease =>
    cases other : m'.selectLease k caller slot action force with
    | error failure' =>
      rw [one, other] at same
      cases same
    | ok lease' =>
      rw [one, other] at same
      exact .inr ⟨lease, lease', rfl, rfl, Except.ok.inj same⟩

theorem Alike.renew (alike : m.Alike m') (storable : m.Storable) (storable' : m'.Storable)
    (key caller : JsString) (slot ttlMs : Option JsNumber) (later : 0 < now) :
    (m.renew toLowerCase key caller slot ttlMs now now' saved saved').Alike
      ResourceLease.canonical
      (m'.renew toLowerCase key caller slot ttlMs now now' saved saved') := by
  unfold ResourceLeaseManager.renew
  have slots : m.validateSlot = m'.validateSlot := by
    funext k slot
    exact alike.validateSlot k slot
  dsimp only
  rw [slots]
  split
  · exact ⟨alike, rfl⟩
  · next resourceKey callerSessionId slot ttl _ =>
    obtain ⟨expired, changed⟩ := alike.expire now
    rw [changed]
    split
    · exact ⟨expired, rfl⟩
    · rcases expired.selected resourceKey callerSessionId slot "renew" false with
        ⟨failure, one, other⟩ | ⟨lease, lease', one, other, same⟩
      · rw [one, other]
        exact ⟨expired, rfl⟩
      · have renewed : ({ lease with
              heartbeatAt := now', ttlMs := ttl.getD lease.ttlMs
              expiresAt := now' + ttl.getD lease.ttlMs } : ResourceLease).canonical =
            ({ lease' with
              heartbeatAt := now', ttlMs := ttl.getD lease'.ttlMs
              expiresAt := now' + ttl.getD lease'.ttlMs } : ResourceLease).canonical := by
          simp only [ResourceLease.canonical, ResourceLease.mk.injEq] at same ⊢
          simp only [same, and_self]
        have after := expired.renewed (storable.expire later) (storable'.expire later)
          (selectLease_mem one).1 (selectLease_mem other).1 same renewed
        rw [one, other]
        dsimp only
        split
        · exact ⟨after, congrArg Except.ok renewed⟩
        · exact ⟨after, rfl⟩

theorem Alike.release (alike : m.Alike m') (storable : m.Storable) (storable' : m'.Storable)
    (key caller : JsString) (force : Bool) (slot : Option JsNumber) (later : 0 < now) :
    (m.release toLowerCase key caller force slot now now' saved saved').Alike
      ReleaseResult.canonical
      (m'.release toLowerCase key caller force slot now now' saved saved') := by
  unfold ResourceLeaseManager.release
  have slots : m.validateSlot = m'.validateSlot := by
    funext k slot
    exact alike.validateSlot k slot
  have sizes : m.getCapacity = m'.getCapacity := by
    funext k
    exact alike.getCapacity k
  have before : (if force then (m, false) else m.expireDueLeases now).1.Alike
      (if force then (m', false) else m'.expireDueLeases now).1 ∧
      (if force then (m, false) else m.expireDueLeases now).2 =
        (if force then (m', false) else m'.expireDueLeases now).2 := by
    split
    · exact ⟨alike, rfl⟩
    · exact alike.expire now
  have kept {m : ResourceLeaseManager} (storable : m.Storable) :
      (if force then (m, false) else m.expireDueLeases now).1.Storable := by
    split
    · exact storable
    · exact storable.expire later
  have fine := kept storable
  have fine' := kept storable'
  dsimp only
  rw [slots, sizes]
  generalize (if force then (m, false) else m.expireDueLeases now) = e at before fine ⊢
  generalize (if force then (m', false) else m'.expireDueLeases now) = e' at before fine' ⊢
  obtain ⟨expired, changed⟩ := before
  split
  · exact ⟨alike, rfl⟩
  · next resourceKey callerSessionId slot _ =>
    rw [changed]
    split
    · exact ⟨expired, rfl⟩
    · rcases expired.selected resourceKey callerSessionId
          (if force then some (slot.getD 1) else slot) "release" force with
        ⟨failure, one, other⟩ | ⟨lease, lease', one, other, same⟩
      · rw [one, other]
        exact ⟨expired, rfl⟩
      · have freed := expired.freed fine fine' (selectLease_mem one).1 (selectLease_mem other).1 same
        obtain ⟨after, promoted⟩ := freed.promoteWaiters resourceKey now'
        rw [one, other]
        dsimp only
        split
        · refine ⟨after, congrArg Except.ok ?_⟩
          simp only [ReleaseResult.canonical, same, ← List.head?_map, promoted, after.queues]
        · exact ⟨after, rfl⟩

theorem Alike.withdraw (alike : m.Alike m') (key caller : JsString) :
    (m.withdraw toLowerCase key caller saved).Alike id
      (m'.withdraw toLowerCase key caller saved) := by
  unfold ResourceLeaseManager.withdraw
  dsimp only
  split
  · exact ⟨alike, rfl⟩
  · next resourceKey callerSessionId _ =>
    have queues := alike.queues resourceKey
    have remaining := filter_map_canonical queues (p := fun w => w.waiterSessionId ≠ callerSessionId)
      fun _ => rfl
    rw [length_eq remaining, length_eq queues]
    split
    · exact ⟨alike, rfl⟩
    · have recorded (withdrawn withdrawn' : List Nat) :
          Alike { m with withdrawn } { m' with withdrawn := withdrawn' } :=
        ⟨alike.capacityKeys, alike.capacities, alike.nextWaiterId, alike.leases, alike.queueKeys,
          alike.queues, alike.systemOwners, alike.notified⟩
      split <;> exact ⟨(recorded _ _).setWaiters remaining, rfl⟩

theorem Alike.getStatus (alike : m.Alike m') (key : JsString) :
    (m.getStatus toLowerCase key now saved).Alike ResourceLeaseStatus.canonical
      (m'.getStatus toLowerCase key now saved) := by
  unfold ResourceLeaseManager.getStatus
  cases normalizeResourceKey toLowerCase key with
  | error failure => exact ⟨alike, rfl⟩
  | ok resourceKey =>
    obtain ⟨expired, changed⟩ := alike.expire now
    dsimp only
    rw [changed]
    split
    · exact ⟨expired, rfl⟩
    · exact ⟨expired, congrArg Except.ok (expired.buildStatus resourceKey)⟩

end Calls

end ResourceLeaseManager

end Takode.Leases
