import Takode.Leases.Pools

/-!
# Queues are fair

Sessions leave a queue by promotion in the order in which they joined it, each
one once, and nobody overtakes them.
-/

namespace Takode.Leases

namespace ResourceLeaseManager

variable {m : ResourceLeaseManager} {k : JsString} {now : Nat}

theorem promoteLoop_full (full : m.lowestFreeSlot k = none) (left : List ResourceLeaseWaiter) :
    (m.promoteLoop k now left).2.2 = [] := by
  cases left with
  | nil => rfl
  | cons waiter rest => rw [promoteLoop_cons, full]

theorem promoteLoop_one (slot : Nat) (left : List ResourceLeaseWaiter)
    (keys : ∀ w ∈ left, w.resourceKey = k)
    (taken : ∀ other, other ≠ slot → 1 ≤ other → other ≤ m.getCapacity k →
      ∃ lease ∈ m.leases, lease.resourceKey = k ∧ lease.slot = other) :
    (m.promoteLoop k now left).2.2.length ≤ 1 := by
  cases left with
  | nil => exact Nat.zero_le 1
  | cons waiter rest =>
    rw [promoteLoop_cons]
    cases free : m.lowestFreeSlot k with
    | none => exact Nat.zero_le 1
    | some given =>
      obtain ⟨least, most, unheld⟩ := lowestFreeSlot_some free
      have same : given = slot := by
        by_contra away
        obtain ⟨lease, held, own, equal⟩ := taken given away least most
        exact unheld lease held own equal
      have full : (m.promote waiter given now).lowestFreeSlot k = none := by
        refine lowestFreeSlot_none.mpr fun other low high => ?_
        by_cases new : other = slot
        · exact ⟨leaseOfWaiter waiter given now, List.mem_append_right _ List.mem_cons_self,
            keys waiter List.mem_cons_self, same.trans new.symm⟩
        · obtain ⟨lease, held, own, equal⟩ := taken other new low high
          exact ⟨lease, List.mem_append_left _ held, own, equal⟩
      simp [promoteLoop_full full rest]

theorem Settled.freed_one (settled : m.Settled) (lease : ResourceLease) (now : Nat) :
    (promoteWaiters { m with leases := m.leases.erase lease }
      lease.resourceKey now).2.length ≤ 1 := by
  let freed : ResourceLeaseManager := { m with leases := m.leases.erase lease }
  show (freed.promoteLoop lease.resourceKey now (m.getWaiters lease.resourceKey)).2.2.length ≤ 1
  by_cases idle : m.getWaiters lease.resourceKey = []
  · rw [idle]
    exact Nat.zero_le 1
  · have full := lowestFreeSlot_none.mp (settled.full _ idle)
    apply promoteLoop_one lease.slot
    · exact settled.orderly.keys lease.resourceKey
    · intro other away least most
      obtain ⟨held, inside, own, same⟩ := full other least most
      have apart : held ≠ lease := fun equal => away (same.symm.trans (congrArg _ equal))
      exact ⟨held, (List.mem_erase_of_ne apart).mpr inside, own, same⟩

/-- What sessions that queue can rely on. -/
structure Fair (toLowerCase : JsString → JsString) (m : ResourceLeaseManager) : Prop where
  /-- Who joined a queue and did not withdraw was promoted, in that order, or still waits. -/
  order : ∀ k, (m.joined.filter fun w => w.resourceKey = k ∧ w.id ∉ m.withdrawn) =
    (m.promoted.filter fun p => p.1.resourceKey = k).map Prod.fst ++ m.getWaiters k
  once : ∀ w ∈ m.joined, (m.promoted.map Prod.fst).count w +
    (m.getWaiters w.resourceKey).count w = if w.id ∈ m.withdrawn then 0 else 1
  matching : ∀ p ∈ m.promoted, p.2.ownerSessionId = p.1.waiterSessionId ∧
    p.2.resourceKey = p.1.resourceKey
  notified : m.notified.map Notification.lease = m.promoted.map Prod.snd
  /-- `acquire` gives a slot only where nobody waits. -/
  acquired : ∀ input now now' capacity lease waiters,
    ((m.expireDueLeases now).1.acquireLoaded input now').2 = .acquired capacity lease waiters →
      (m.expireDueLeases now).1.getWaiters input.resourceKey = []
  /-- What `release` promotes, after the expiry with which it starts unless it is forced, is the
  lease that it reports, or nothing. -/
  released : ∀ key caller force slot now now' saved saved' result,
    (m.release toLowerCase key caller force slot now now' saved saved').result = .ok result →
      (m.release toLowerCase key caller force slot now now' saved saved').manager.promoted.map
          Prod.snd =
        (if force then m else (m.expireDueLeases now).1).promoted.map Prod.snd ++
          result.promoted.toList

variable {toLowerCase : JsString → JsString}

theorem Settled.acquired (settled : m.Settled) {input : NormalizedInput} {capacity : Nat}
    {lease : ResourceLease} {waiters : List ResourceLeaseWaiter}
    (acquired : (m.acquireLoaded input now).2 = .acquired capacity lease waiters) :
    m.getWaiters input.resourceKey = [] := by
  unfold ResourceLeaseManager.acquireLoaded at acquired
  dsimp only at acquired
  split at acquired
  · cases acquired
  · split at acquired
    · rename_i slot free
      by_contra some
      exact absurd ((settled.full _ some).symm.trans free) (by simp)
    · split at acquired <;> cases acquired

theorem Settled.released (settled : m.Settled) {key caller : JsString} {force : Bool}
    {slot : Option JsNumber} {now now' : Nat} {saved saved' : Bool} {result : ReleaseResult}
    (released : (m.release toLowerCase key caller force slot now now' saved saved').result =
      .ok result) :
    (m.release toLowerCase key caller force slot now now' saved saved').manager.promoted.map
        Prod.snd =
      (if force then m else (m.expireDueLeases now).1).promoted.map Prod.snd ++
        result.promoted.toList := by
  have expired : (if force then (m, false) else m.expireDueLeases now).1.Settled := by
    split
    · exact settled
    · exact settled.expire now
  have first : (if force then m else (m.expireDueLeases now).1) =
      (if force then (m, false) else m.expireDueLeases now).1 := by
    split <;> rfl
  rw [first]
  clear first
  unfold ResourceLeaseManager.release at released ⊢
  dsimp only at released ⊢
  split at released
  · cases released
  · generalize (if force then (m, false) else m.expireDueLeases now) = e at expired released ⊢
    obtain ⟨before, changed⟩ := e
    dsimp only at expired released ⊢
    split at released
    · cases released
    · rename_i saves
      rw [if_neg saves]
      split at released
      · cases released
      · rename_i lease selected
        obtain ⟨-, own⟩ := selectLease_mem selected
        split at released
        · rename_i kept
          rw [if_pos kept]
          cases released
          have freed : Orderly { before with leases := before.leases.erase lease }
              before.getWaiters := expired.orderly.fewer List.erase_sublist
          have promotes := promoteWaiters_spec freed lease.resourceKey now'
          have one := expired.freed_one lease now'
          rw [own] at promotes one
          refine promotes.promoted.trans (congrArg _ ?_)
          match (promoteWaiters _ _ now').2, one with
          | [], _ => rfl
          | [_], _ => rfl
        · cases released

theorem Orderly.once (orderly : m.Orderly m.getWaiters) (w : ResourceLeaseWaiter)
    (joined : w ∈ m.joined) :
    (m.promoted.map Prod.fst).count w + (m.getWaiters w.resourceKey).count w =
      if w.id ∈ m.withdrawn then 0 else 1 := by
  have pool : (m.promoted.map Prod.fst).count w =
      ((m.promoted.filter fun p => p.1.resourceKey = w.resourceKey).map Prod.fst).count w := by
    have same : (m.promoted.filter fun p => p.1.resourceKey = w.resourceKey).map Prod.fst =
        (m.promoted.map Prod.fst).filter fun v => v.resourceKey = w.resourceKey := by
      rw [List.filter_map]
      rfl
    rw [same, List.count_filter (by simp)]
  have distinct : m.joined.Nodup := orderly.distinct.of_map _
  rw [pool, ← List.count_append, ← orderly.order]
  split
  · rename_i gone
    exact List.count_eq_zero.mpr fun listed => by simp [gone] at listed
  · rename_i stays
    rw [List.count_filter (by simp [stays])]
    exact List.count_eq_one_of_mem distinct joined

theorem Settled.fair (settled : m.Settled) : m.Fair toLowerCase :=
  ⟨settled.orderly.order, settled.orderly.once, settled.orderly.matching, settled.orderly.notices,
    fun _ now _ _ _ _ => (settled.expire now).acquired, fun _ _ _ _ _ _ _ _ _ => settled.released⟩

end ResourceLeaseManager

theorem queues_fair {toLowerCase : JsString → JsString} {m : ResourceLeaseManager}
    (reached : (leaseRuns toLowerCase).Reachable m) : m.Fair toLowerCase :=
  (ResourceLeaseManager.settled_of_reachable reached).fair

/-- When `b` releases its slot, the lease of `a` has run out as well. -/
theorem sharing_fair :
    ∃ m, (leaseRuns id).Reachable m ∧
      m.promoted.map (fun p => p.2.ownerSessionId) = [js "c", js "d"] ∧ m.Fair id := by
  obtain ⟨m, reached, promoted⟩ := (leaseRuns id).exists_reaches_of_run (fun _ _ => true)
    (fun m => m.promoted.map (fun p => p.2.ownerSessionId) = [js "c", js "d"])
    (sharing ++ [.release (js "gpu") (js "b") false none 1800005 1800005 true true])
    (by decide +kernel)
  exact ⟨m, reached.reachable, promoted, queues_fair reached.reachable⟩

/-- That release promotes two sessions and reports the second one. -/
theorem release_reports_one_of_two :
    ∃ m, (leaseRuns id).Reachable m ∧ m.promoted = [] ∧
      ∃ result, (m.release id (js "gpu") (js "b") false none 1800005 1800005 true true).result =
          .ok result ∧
        result.promoted.map ResourceLease.ownerSessionId = some (js "d") ∧
        (m.release id (js "gpu") (js "b") false none 1800005 1800005 true
          true).manager.promoted.map (fun p => p.2.ownerSessionId) = [js "c", js "d"] := by
  obtain ⟨m, reached, fresh, reported, promoted⟩ := (leaseRuns id).exists_reaches_of_run
    (fun _ _ => true)
    (fun m => m.promoted = [] ∧
      (m.release id (js "gpu") (js "b") false none 1800005 1800005 true true).result.toOption.map
        (fun result => result.promoted.map ResourceLease.ownerSessionId) = some (some (js "d")) ∧
      (m.release id (js "gpu") (js "b") false none 1800005 1800005 true
        true).manager.promoted.map (fun p => p.2.ownerSessionId) = [js "c", js "d"])
    sharing (by decide +kernel)
  obtain ⟨result, given, owner⟩ := Option.map_eq_some_iff.mp reported
  refine ⟨m, reached.reachable, fresh, result, ?_, owner, promoted⟩
  generalize (m.release id (js "gpu") (js "b") false none 1800005 1800005 true true).result = called
    at given
  cases called with
  | error => cases given
  | ok value => exact congrArg _ (Option.some.inj given)

end Takode.Leases
