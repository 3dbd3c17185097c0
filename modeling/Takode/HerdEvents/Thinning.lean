import Mathlib.Data.List.Nodup
import Takode.HerdEvents.Delivery

/-!
# What leaves the inbox

Between an event's arrival and its delivery the inbox is only thinned out: entries go for a reason, and
those that stay keep their number, event and owner.
-/

namespace Takode.HerdEvents

/-- Why entries go, as far as an entry's event and owner tell. -/
abbrev Reason := TakodeEvent → Option (Option JsString) → Prop

/-- No entry is in flight, if there is no watermark. -/
def HerdInbox.Watermarked (inbox : HerdInbox) : Prop :=
  inbox.inFlightUpTo = none → ∀ entry ∈ inbox.entries, entry.isPending = true

structure Thins (reason : Reason) (before after : HerdInbox) : Prop where
  seqs : (after.entries.map (·.seq)).Sublist (before.entries.map (·.seq))
  kept : ∀ entry ∈ after.entries, ∃ old ∈ before.entries, old.seq = entry.seq ∧
    old.event = entry.event ∧ old.threadRoute = entry.threadRoute ∧
      old.deliveryOwnerId = entry.deliveryOwnerId
  left : ∀ old ∈ before.entries, reason old.event old.deliveryOwnerId ∨
    ∃ entry ∈ after.entries, entry.seq = old.seq ∧ entry.event = old.event ∧
      entry.deliveryOwnerId = old.deliveryOwnerId
  nextSeq : after.nextSeq = before.nextSeq
  watermark : before.Watermarked → after.Watermarked

namespace Thins

variable {reason reason' : Reason} {a b c inbox : HerdInbox}

theorem refl (reason : Reason) (inbox : HerdInbox) : Thins reason inbox inbox where
  seqs := List.Sublist.refl _
  kept entry inside := ⟨entry, inside, rfl, rfl, rfl, rfl⟩
  left old inside := .inr ⟨old, inside, rfl, rfl, rfl⟩
  nextSeq := rfl
  watermark := id

theorem trans (first : Thins reason a b) (second : Thins reason b c) : Thins reason a c where
  seqs := second.seqs.trans first.seqs
  kept entry inside := by
    obtain ⟨middle, listed, seq, event, route, owner⟩ := second.kept entry inside
    obtain ⟨old, there, seq', event', route', owner'⟩ := first.kept middle listed
    exact ⟨old, there, seq'.trans seq, event'.trans event, route'.trans route, owner'.trans owner⟩
  left old inside := by
    rcases first.left old inside with gone | ⟨middle, listed, seq, event, owner⟩
    · exact .inl gone
    · rcases second.left middle listed with gone | ⟨entry, there, seq', event', owner'⟩
      · rw [event, owner] at gone
        exact .inl gone
      · exact .inr ⟨entry, there, seq'.trans seq, event'.trans event, owner'.trans owner⟩
  nextSeq := second.nextSeq.trans first.nextSeq
  watermark whole := second.watermark (first.watermark whole)

theorem of_entries (entries : b.entries = a.entries) (nextSeq : b.nextSeq = a.nextSeq)
    (inFlightUpTo : b.inFlightUpTo = a.inFlightUpTo) : Thins reason a b where
  seqs := by rw [entries]
  kept entry inside := ⟨entry, entries ▸ inside, rfl, rfl, rfl, rfl⟩
  left old inside := .inr ⟨old, entries ▸ inside, rfl, rfl, rfl⟩
  nextSeq := nextSeq
  watermark whole none entry inside := whole (inFlightUpTo ▸ none) entry (entries ▸ inside)

theorem recompute_watermarked (inbox : HerdInbox) : inbox.recompute.Watermarked := by
  intro none entry inside
  have empty := List.max?_eq_none_iff.mp none
  rw [List.map_eq_nil_iff, List.filter_eq_nil_iff] at empty
  simpa using empty entry inside

/-- Entries that meet a condition are removed. -/
theorem remove {goes : InboxEntry → Bool} (inbox : HerdInbox)
    (why : ∀ entry ∈ inbox.entries, goes entry = true → reason entry.event entry.deliveryOwnerId) :
    Thins reason inbox (inbox.remove goes).recompute where
  seqs := List.filter_sublist.map _
  kept entry inside := ⟨entry, List.mem_of_mem_filter inside, rfl, rfl, rfl, rfl⟩
  left old inside := by
    by_cases gone : goes old = true
    · exact .inl (why old inside gone)
    · refine .inr ⟨old, List.mem_filter.mpr ⟨inside, ?_⟩, rfl, rfl, rfl⟩
      simpa using gone
  nextSeq := rfl
  watermark _ := recompute_watermarked _

/-- Entries are changed otherwise. -/
theorem map {change : InboxEntry → InboxEntry} (inbox : HerdInbox)
    (same : ∀ entry, (change entry).seq = entry.seq ∧ (change entry).event = entry.event ∧
      (change entry).threadRoute = entry.threadRoute ∧
        (change entry).deliveryOwnerId = entry.deliveryOwnerId) :
    Thins reason inbox { inbox with entries := inbox.entries.map change } where
  seqs := by
    rw [List.map_map]
    have ids : inbox.entries.map ((·.seq) ∘ change) = inbox.entries.map (·.seq) :=
      List.map_congr_left fun entry _ => (same entry).1
    rw [ids]
  kept entry inside := by
    obtain ⟨old, listed, rfl⟩ := List.mem_map.mp inside
    obtain ⟨seq, event, route, owner⟩ := same old
    exact ⟨old, listed, seq.symm, event.symm, route.symm, owner.symm⟩
  left old inside := by
    obtain ⟨seq, event, route, owner⟩ := same old
    exact .inr ⟨change old, List.mem_map_of_mem inside, seq, event, owner⟩
  nextSeq := rfl
  watermark whole none entry inside := by
    obtain ⟨old, listed, rfl⟩ := List.mem_map.mp inside
    rw [InboxEntry.isPending, (same old).2.2.2]
    exact whole none old listed

theorem rememberKey_entries (inbox : HerdInbox) (key : JsString) :
    (inbox.rememberKey key).entries = inbox.entries ∧
      (inbox.rememberKey key).nextSeq = inbox.nextSeq := by
  unfold HerdInbox.rememberKey
  exact ⟨rfl, rfl⟩

theorem rememberKey (inbox : HerdInbox) (key : JsString) :
    Thins reason inbox (inbox.rememberKey key) := by
  unfold HerdInbox.rememberKey
  exact of_entries rfl rfl rfl

theorem rememberDeliveredEventKeys (inbox : HerdInbox) (events : List TakodeEvent) :
    Thins reason inbox (inbox.rememberDeliveredEventKeys events) := by
  unfold HerdInbox.rememberDeliveredEventKeys
  induction events generalizing inbox with
  | nil => exact refl _ _
  | cons event events ih =>
    have first : Thins reason inbox (event.key.elim inbox inbox.rememberKey) := by
      cases event.key with
      | none => exact refl _ _
      | some key => exact rememberKey inbox key
    exact first.trans (ih _)

theorem schedule (inbox : HerdInbox) (bridge : Bridge) :
    Thins reason inbox (inbox.schedule bridge) := of_entries rfl rfl rfl

theorem prune (inbox : HerdInbox) (bridge : Bridge)
    (why : ∀ event owner, event.isStale bridge = true → reason event owner) :
    Thins reason inbox (inbox.pruneStaleBoardStallEntries bridge).1 := by
  unfold HerdInbox.pruneStaleBoardStallEntries
  simp only
  split
  · exact remove inbox fun entry _ stale => why _ _ stale
  · exact refl _ _

theorem capEntries (inbox : HerdInbox)
    (why : INBOX_CAP < inbox.entries.length → ∀ event owner, reason event owner) :
    Thins reason inbox inbox.capEntries := by
  unfold HerdInbox.capEntries
  split
  · rename_i full
    generalize inbox.entries.length - INBOX_CAP = excess
    simp only
    split
    · exact remove inbox fun _ _ _ => why full _ _
    · exact ⟨(List.drop_sublist _ _).map _,
        fun entry inside => ⟨entry, List.mem_of_mem_drop inside, rfl, rfl, rfl, rfl⟩,
        fun old _ => .inl (why full _ _), rfl, fun _ => recompute_watermarked _⟩
  · exact refl _ _

theorem confirmOwned (inbox : HerdInbox) (completedOwnerIds : Option (List JsString))
    (why : ∀ event owner, (completedOwnerIds.all fun ids => owner.any ids.contains) = true →
      reason event (some owner)) :
    Thins reason inbox (inbox.confirmOwned completedOwnerIds) := by
  unfold HerdInbox.confirmOwned
  split
  · refine remove inbox fun entry _ owned => ?_
    obtain ⟨owner, same, owned⟩ := (Option.any_eq_true _ _).mp owned
    rw [same]
    exact why _ owner owned
  · exact refl _ _

theorem confirmCommittedHerdHistory (inbox : HerdInbox) (bridge : Bridge)
    (why : ∀ event owner, event.key.any bridge.committedKeys.contains = true →
      reason event owner) :
    Thins reason inbox (inbox.confirmCommittedHerdHistory bridge) := by
  unfold HerdInbox.confirmCommittedHerdHistory
  simp only
  split
  · exact refl _ _
  · have gone : Thins reason inbox (inbox.remove fun entry =>
        entry.isPending && entry.event.key.any bridge.committedKeys.contains).recompute :=
      remove inbox fun entry _ committed => why _ _ ((Bool.and_eq_true _ _).mp committed).2
    refine (gone.trans ?_).trans (rememberDeliveredEventKeys _ _)
    split
    · exact of_entries rfl rfl rfl
    · exact refl _ _

theorem rememberDeliveredEventKeys_entries (inbox : HerdInbox) (events : List TakodeEvent) :
    (inbox.rememberDeliveredEventKeys events).entries = inbox.entries ∧
      (inbox.rememberDeliveredEventKeys events).nextSeq = inbox.nextSeq := by
  unfold HerdInbox.rememberDeliveredEventKeys
  induction events generalizing inbox with
  | nil => exact ⟨rfl, rfl⟩
  | cons event events ih =>
    obtain ⟨entries, nextSeq⟩ := ih (event.key.elim inbox inbox.rememberKey)
    have first : (event.key.elim inbox inbox.rememberKey).entries = inbox.entries ∧
        (event.key.elim inbox inbox.rememberKey).nextSeq = inbox.nextSeq := by
      cases event.key with
      | none => exact ⟨rfl, rfl⟩
      | some key => exact rememberKey_entries inbox key
    exact ⟨entries.trans first.1, nextSeq.trans first.2⟩

theorem mergeEarlierHeldQuietTurn (inbox : HerdInbox) (event : TakodeEvent)
    (distinct : (inbox.entries.map (·.seq)).Nodup)
    (why : ∀ previous : TakodeEvent, previous.isHeldQuietTurn = true →
      previous.sessionId = event.sessionId → reason previous none) :
    Thins reason inbox (inbox.mergeEarlierHeldQuietTurn event).1 := by
  unfold HerdInbox.mergeEarlierHeldQuietTurn
  split
  · exact refl _ _
  · rename_i previous found
    have inside := List.mem_of_find?_eq_some found
    have held := List.find?_some found
    simp only [Bool.and_eq_true, decide_eq_true_eq] at held
    obtain ⟨⟨pending, worker⟩, quiet⟩ := held
    have gone : Thins reason inbox (inbox.remove fun entry => entry.seq = previous.seq).recompute := by
      refine remove inbox fun entry listed same => ?_
      obtain rfl := List.inj_on_of_nodup_map distinct listed inside (of_decide_eq_true same)
      have unowned : entry.deliveryOwnerId = none := Option.isNone_iff_eq_none.mp pending
      rw [unowned]
      exact why _ quiet worker
    obtain ⟨entries, nextSeq⟩ := rememberDeliveredEventKeys_entries
      (inbox.remove fun entry => entry.seq = previous.seq) [previous.event]
    refine gone.trans (of_entries entries nextSeq ?_)
    unfold HerdInbox.recompute
    rw [entries]

end Thins

/-- A restart operation that takes the event of a session away from the leader. -/
def Suppresses (operations : List RestartPrepOperation) (now : Nat) (event : TakodeEvent) : Prop :=
  ∃ operation ∈ operations, operation.protectsLeader = true ∧
    event.sessionId ∈ operation.targetSessionIds ∧ now ≤ operation.suppressUntil

theorem suppresses_of_policy {operations : List RestartPrepOperation} {now : Nat}
    {event : TakodeEvent} {operationId : JsString}
    (policy : getRestartPrepDeliveryPolicy now event operations = .suppress operationId) :
    Suppresses operations now event := by
  induction operations with
  | nil => cases policy
  | cons operation rest ih =>
    have later (policy : getRestartPrepDeliveryPolicy now event rest = .suppress operationId) :
        Suppresses (operation :: rest) now event := by
      obtain ⟨other, inside, suppresses⟩ := ih policy
      exact ⟨other, List.mem_cons_of_mem _ inside, suppresses⟩
    unfold getRestartPrepDeliveryPolicy at policy
    split at policy
    · exact later policy
    · rename_i protects
      split at policy
      · rename_i targeted
        rw [Bool.and_eq_true, decide_eq_true_eq] at targeted
        exact ⟨operation, List.mem_cons_self, by simpa using protects,
          by simpa using targeted.1, targeted.2⟩
      · split at policy
        · cases policy
        · exact later policy

theorem Suppresses.of_record {operations : List RestartPrepOperation} {now : Nat}
    {event other : TakodeEvent} {operationId : JsString}
    (suppresses :
      Suppresses (recordRestartPrepSuppressed operations operationId other) now event) :
    Suppresses operations now event := by
  obtain ⟨changed, inside, protects, targeted, until'⟩ := suppresses
  obtain ⟨operation, listed, same⟩ := List.mem_map.mp inside
  have shrinks : changed.protectsLeader = operation.protectsLeader ∧
      changed.suppressUntil = operation.suppressUntil ∧
        changed.targetSessionIds ⊆ operation.targetSessionIds := by
    subst same
    have plain : operation.targetSessionIds ⊆ operation.targetSessionIds := fun _ => id
    have fewer : (operation.targetSessionIds.filter (· ≠ other.sessionId)) ⊆
        operation.targetSessionIds := List.filter_subset_self _
    split
    · split
      · exact ⟨rfl, rfl, fewer⟩
      · exact ⟨rfl, rfl, plain⟩
    · split
      · exact ⟨rfl, rfl, fewer⟩
      · exact ⟨rfl, rfl, plain⟩
    · exact ⟨rfl, rfl, plain⟩
  exact ⟨operation, listed, shrinks.1 ▸ protects, shrinks.2.2 targeted, shrinks.2.1 ▸ until'⟩

section Prepare

variable {reason : Reason} {leader : JsString} {bridge : Bridge}

/-- What the loop over the pending entries drops is out of date or suppressed. -/
theorem Thins.collectDeliverable
    (current : ∀ event owner, event.isCurrentWorkerReport leader bridge.board = false →
      reason event owner) :
    ∀ (pending : List InboxEntry) (inbox : HerdInbox) (operations : List RestartPrepOperation),
      (∀ event owner, Suppresses operations bridge.now event → reason event owner) →
      (∀ entry ∈ pending, ∀ other ∈ inbox.entries, other.seq = entry.seq →
        other.event = entry.event) →
      Thins reason inbox (collectDeliverable leader bridge inbox operations pending).1 ∧
        (collectDeliverable leader bridge inbox operations pending).2.2.Sublist pending
  | [], inbox, _, _, _ => ⟨refl _ _, List.Sublist.refl _⟩
  | entry :: rest, inbox, operations, suppressed, same => by
    have mine := same entry List.mem_cons_self
    have later {thinned : HerdInbox} (thins : Thins reason inbox thinned) :
        ∀ entry ∈ rest, ∀ other ∈ thinned.entries, other.seq = entry.seq →
          other.event = entry.event := by
      intro entry inside other listed equal
      obtain ⟨old, there, seq, event, -⟩ := thins.kept other listed
      exact event.symm.trans (same entry (List.mem_cons_of_mem _ inside) old there (seq.trans equal))
    have without (why : ∀ owner, reason entry.event owner) :
        Thins reason inbox (inbox.remove fun other => other.seq = entry.seq).recompute := by
      refine remove inbox fun other listed equal => ?_
      rw [mine other listed (of_decide_eq_true equal)]
      exact why _
    have marked (held : Option JsString) : Thins reason inbox { inbox with
        entries := inbox.entries.map fun other =>
          if other.seq = entry.seq then { other with heldByRestartPrepOperationId := held }
          else other } :=
      map inbox fun other => by split <;> exact ⟨rfl, rfl, rfl, rfl⟩
    unfold HerdEvents.collectDeliverable
    simp only
    split
    · rename_i outdated
      have gone := without fun owner => current _ owner (by simpa using outdated)
      obtain ⟨thins, sublist⟩ :=
        collectDeliverable current rest _ operations suppressed (later gone)
      exact ⟨gone.trans thins, sublist.cons _⟩
    · split
      · obtain ⟨thins, sublist⟩ :=
          collectDeliverable current rest _ operations suppressed (later (marked none))
        exact ⟨(marked none).trans thins, sublist.cons_cons _⟩
      · rename_i operationId _
        have held := marked (some (entry.heldByRestartPrepOperationId.getD operationId))
        obtain ⟨thins, sublist⟩ :=
          collectDeliverable current rest _ operations suppressed (later held)
        exact ⟨held.trans thins, sublist.cons _⟩
      · rename_i operationId policy
        have gone := without fun owner => suppressed _ owner (suppresses_of_policy policy)
        obtain ⟨thins, sublist⟩ := collectDeliverable current rest _ _
          (fun event owner suppresses => suppressed event owner suppresses.of_record) (later gone)
        exact ⟨gone.trans thins, sublist.cons _⟩

/-- An event that a flush drops. -/
def Outdated (leader : JsString) (bridge : Bridge) (operations : List RestartPrepOperation)
    (event : TakodeEvent) : Prop :=
  event.isStale bridge = true ∨ event.isCurrentWorkerReport leader bridge.board = false ∨
    Suppresses operations bridge.now event

/-- A flush gets ready: it drops what is out of date, and delivers pending entries, in their order. -/
structure Prepares (reason : Reason) (herd : HerdState)
    (prepared : HerdState × Option (List InboxEntry)) : Prop where
  thins : Thins reason herd.inbox prepared.1.inbox
  log : prepared.1.log = herd.log
  seqs : ∀ pending, prepared.2 = some pending →
    (pending.map (·.seq)).Sublist (herd.inbox.entries.map (·.seq))
  pending : ∀ pending, prepared.2 = some pending → ∀ entry ∈ pending, entry.isPending = true ∧
    ∃ old ∈ herd.inbox.entries, old.seq = entry.seq ∧ old.isPending = true

theorem Prepares.nothing {herd herd' : HerdState} (thins : Thins reason herd.inbox herd'.inbox)
    (log : herd'.log = herd.log) : Prepares reason herd (herd', none) :=
  ⟨thins, log, fun _ none => (by cases none), fun _ none => (by cases none)⟩

theorem prepareDelivery_prepares {herd : HerdState}
    (distinct : (herd.inbox.entries.map (·.seq)).Nodup)
    (why : ∀ event owner, Outdated leader bridge herd.operations event → reason event owner) :
    Prepares reason herd
      ((prepareDelivery leader bridge herd).1, some (prepareDelivery leader bridge herd).2) := by
  have pruned : Thins reason herd.inbox (herd.inbox.pruneStaleBoardStallEntries bridge).1 :=
    Thins.prune herd.inbox bridge fun event owner stale => why event owner (.inl stale)
  have distinct' := pruned.seqs.nodup distinct
  obtain ⟨thins, sublist⟩ :=
    Thins.collectDeliverable (fun event owner outdated => why event owner (.inr (.inl outdated)))
      (herd.inbox.pruneStaleBoardStallEntries bridge).1.getPendingEntries
      (herd.inbox.pruneStaleBoardStallEntries bridge).1 herd.operations
      (fun event owner suppresses => why event owner (.inr (.inr suppresses)))
      (fun entry inside other listed same => by
        rw [List.inj_on_of_nodup_map distinct' listed (List.mem_of_mem_filter inside) same])
  have delivered : (prepareDelivery leader bridge herd).2.Sublist
      (herd.inbox.pruneStaleBoardStallEntries bridge).1.getPendingEntries :=
    List.filter_sublist.trans sublist
  refine ⟨pruned.trans thins, rfl, fun pending same => ?_, fun pending same entry inside => ?_⟩
  · cases same
    exact ((delivered.trans List.filter_sublist).map _).trans pruned.seqs
  · cases same
    obtain ⟨listed, waits⟩ := List.mem_filter.mp (delivered.mem inside)
    obtain ⟨old, there, seq, -, -, owner⟩ := pruned.kept entry listed
    refine ⟨waits, old, there, seq, ?_⟩
    rw [InboxEntry.isPending, owner]
    exact waits

theorem prepareFlush_prepares {herd : HerdState}
    (distinct : (herd.inbox.entries.map (·.seq)).Nodup)
    (why : ∀ event owner, Outdated leader bridge herd.operations event → reason event owner) :
    Prepares reason herd (prepareFlush leader bridge herd) := by
  have prepared := prepareDelivery_prepares distinct why
  unfold prepareFlush
  simp only
  split
  · exact .nothing (.refl _ _) rfl
  · split
    · exact .nothing prepared.thins prepared.log
    · split
      · split
        · exact .nothing prepared.thins prepared.log
        · exact .nothing (prepared.thins.trans (.schedule _ _)) prepared.log
      · exact prepared

theorem prepareForceFlush_prepares {herd : HerdState} {before : Option Nat}
    (distinct : (herd.inbox.entries.map (·.seq)).Nodup)
    (why : ∀ event owner, Outdated leader bridge herd.operations event → reason event owner) :
    Prepares reason herd (prepareForceFlush leader bridge before herd) := by
  have prepared := prepareDelivery_prepares distinct why
  unfold prepareForceFlush
  simp only
  split
  · exact .nothing (.refl _ _) rfl
  · split
    · exact .nothing prepared.thins prepared.log
    · refine ⟨prepared.thins, prepared.log, fun pending same => ?_, fun pending same => ?_⟩
      · cases same
        exact (List.filter_sublist.map _).trans (prepared.seqs _ rfl)
      · cases same
        exact fun entry inside => prepared.pending _ rfl entry (List.mem_of_mem_filter inside)

end Prepare

end Takode.HerdEvents
