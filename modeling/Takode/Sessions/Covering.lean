import Takode.Sessions.Changes

/-!
# No state is lost on its way to the files

What each change keeps: the stamps of what waits, the withdrawal of what was queued
before a `remove`, and the cover of every state that a `flushAll` owes.
-/

namespace Takode.Sessions

open Writers

variable {ok : SessionStore → SessionId → Outcome → Prop} {s t : SessionStore} {id id' : SessionId}

namespace SessionStore

/-- Stamps are numbers of calls, and what waits for a timer is newer than every request that it
could be merged into. -/
structure Dated (s : SessionStore) : Prop where
  pendingId : ∀ {id pending}, s.pendingSaves.get? id = some pending → pending.1.id = id
  newest : ∀ {id pending}, s.pendingSaves.get? id = some pending →
    ∀ r ∈ s.writers.queue id, r.coalescible = true → r.run.stamp < pending.2
  queued : ∀ {id r}, r ∈ s.writers.queue id → r.run.stamp ≤ s.ledger.calls
  pending : ∀ {id pending}, s.pendingSaves.get? id = some pending → pending.2 ≤ s.ledger.calls
  unsaved : ∀ {id stamp}, s.ledger.unsaved.get? id = some stamp → stamp ≤ s.ledger.calls
  removed : ∀ {id stamp}, s.ledger.removed.get? id = some stamp → stamp ≤ s.ledger.calls

/-- What a session had when a `remove` of it was accepted is withdrawn, and comes before it. -/
structure Withdraws (s : SessionStore) : Prop where
  order : ∀ id, (s.writers.queue id).Pairwise fun r r' =>
    r'.run.task = .remove → r.run.stamp < r'.run.stamp
  unsaved : ∀ {id r}, r ∈ s.writers.queue id → r.run.task = .remove →
    ∀ stamp, s.ledger.unsaved.get? id = some stamp → stamp < r.run.stamp
  removed : ∀ {id r}, r ∈ s.writers.queue id → r.run.task = .remove →
    ∃ later, s.ledger.removed.get? id = some later ∧ r.run.stamp ≤ later

structure Tidy (s : SessionStore) : Prop where
  orderly : s.writers.Orderly
  kept : s.writers.Kept
  pumped : s.writers.Pumped
  dated : s.Dated
  withdraws : s.Withdraws

theorem Tidy.start : Tidy {} where
  orderly := .start
  kept := .start
  pumped := fun _ _ => rfl
  dated := by
    refine ⟨?_, ?_, ?_, ?_, ?_, ?_⟩ <;> simp [Writers.queue]
  withdraws := by
    refine ⟨?_, ?_, ?_⟩ <;> simp [Writers.queue]

theorem settle_ran {outcome : Outcome} (ended : s.settle id outcome = some t) :
    ∃ request rest u success, s.writers.activeWriters.has id = true ∧
      s.writers.queue id = request :: rest ∧
      s.Ran id request.run (s.heeds id outcome = true) u ∧
      t = { u with writers := (s.writers.shift id request success).pumpWrites } ∧
      ∀ id', t.writers.queue id' = if id' = id then rest else s.writers.queue id' := by
  obtain ⟨request, u, success, active, head, ran, rfl⟩ := settle_eq_some ended
  obtain ⟨rest, queued⟩ := List.head?_eq_some_iff.mp head
  have frame := runTo_ran head ran
  refine ⟨request, rest, u, success, active, queued, frame, by rw [frame.writers], fun id' => ?_⟩
  simp [frame.writers, queued]

theorem settle_moves {outcome : Outcome} (ended : s.settle id outcome = some t) :
    Moves s.writers t.writers := by
  obtain ⟨request, rest, u, success, active, queued, _, rfl, _⟩ := settle_ran ended
  exact .head (.ended success active (by simp [queued])) (pumpWrites_moves _)

end SessionStore

namespace Change

theorem moves (change : Change ok s t) : Moves s.writers t.writers := by
  cases change with
  | superseded _ snapshot _ newer _ => exact enqueueWrite_moves snapshot fun _ => newer
  | enqueued _ _ => exact enqueueWrite_moves (fun h => by cases h) fun h => by cases h
  | removed _ _ _ _ _ => exact enqueueWrite_moves (fun h => by cases h) fun h => by cases h
  | ended _ taken => exact SessionStore.settle_moves taken
  | called | aside | postponed | accepted | edited | cleared | flushCalled | flushAwaits
  | flushEnded => exact .refl

theorem pumped (change : Change ok s t) (before : s.writers.Pumped) : t.writers.Pumped := by
  cases change with
  | superseded | enqueued | removed => exact enqueueWrite_pumped before
  | ended _ taken =>
    obtain ⟨_, _, _, _, _, _, _, rfl, _⟩ := SessionStore.settle_ran taken
    exact pumpWrites_pumped _
  | called | aside | postponed | accepted | edited | cleared | flushCalled | flushAwaits
  | flushEnded => exact before

theorem dated (change : Change ok s t) (inv : s.Dated) : t.Dated := by
  cases change with
  | called =>
    refine ⟨inv.pendingId, inv.newest, ?_, ?_, ?_, ?_⟩
    · exact fun h => (inv.queued h).trans (Nat.le_succ _)
    · exact fun h => (inv.pending h).trans (Nat.le_succ _)
    · exact fun h => (inv.unsaved h).trans (Nat.le_succ _)
    · exact fun h => (inv.removed h).trans (Nat.le_succ _)
  | aside | accepted | flushCalled | flushAwaits | flushEnded =>
    exact ⟨inv.pendingId, inv.newest, inv.queued, inv.pending, inv.unsaved, inv.removed⟩
  | @postponed session stamp known newer _ =>
    have found : ∀ {id pending}, (s.pendingSaves.set session.id (session, stamp)).get? id
        = some pending → id = session.id ∧ pending = (session, stamp) ∨
          s.pendingSaves.get? id = some pending := by
      intro id pending found
      rw [JsMap.get?_set] at found
      split at found
      · exact .inl ⟨‹_›, (Option.some.inj found).symm⟩
      · exact .inr found
    refine ⟨?_, ?_, inv.queued, ?_, inv.unsaved, inv.removed⟩
    · intro id pending h
      rcases found h with ⟨rfl, rfl⟩ | old
      · rfl
      · exact inv.pendingId old
    · intro id pending h
      rcases found h with ⟨rfl, rfl⟩ | old
      · exact newer
      · exact inv.newest old
    · intro id pending h
      rcases found h with ⟨_, rfl⟩ | old
      · exact known
      · exact inv.pending old
  | @superseded id run coalescible _ _ known newer _ =>
    have kept : ∀ {id' pending}, (s.pendingSaves.delete id).get? id' = some pending →
        id' ≠ id ∧ s.pendingSaves.get? id' = some pending := by
      intro id' pending found
      rw [JsMap.get?_delete] at found
      split at found
      · cases found
      · exact ⟨‹_›, found⟩
    refine ⟨?_, ?_, ?_, ?_, inv.unsaved, inv.removed⟩
    · exact fun h => inv.pendingId (kept h).2
    · intro id' pending h r inside
      obtain ⟨other, old⟩ := kept h
      have inside' : r ∈ s.writers.queue id' := by
        rwa [← queue_enqueueWrite_of_ne other]
      exact inv.newest old r inside'
    · intro id' r inside
      rcases mem_queue_enqueueWrite inside with old | ⟨_, rfl, _⟩
      · exact inv.queued old
      · exact known
    · exact fun h => inv.pending (kept h).2
  | @enqueued id run _ known =>
    refine ⟨inv.pendingId, ?_, ?_, inv.pending, inv.unsaved, inv.removed⟩
    · intro id' pending h r inside mergeable
      rcases mem_queue_enqueueWrite inside with old | ⟨_, _, kind⟩
      · exact inv.newest h r old mergeable
      · rw [kind] at mergeable
        cases mergeable
    · intro id' r inside
      rcases mem_queue_enqueueWrite inside with old | ⟨_, rfl, _⟩
      · exact inv.queued old
      · exact known
  | @removed id stamp known _ _ _ _ =>
    have kept : ∀ {id' pending}, (s.pendingSaves.delete id).get? id' = some pending →
        s.pendingSaves.get? id' = some pending := by
      intro id' pending found
      rw [JsMap.get?_delete] at found
      split at found
      · cases found
      · exact found
    refine ⟨fun h => inv.pendingId (kept h), ?_, ?_, fun h => inv.pending (kept h), inv.unsaved,
      ?_⟩
    · intro id' pending h r inside mergeable
      rcases mem_queue_enqueueWrite inside with old | ⟨_, _, kind⟩
      · exact inv.newest (kept h) r old mergeable
      · rw [kind] at mergeable
        cases mergeable
    · intro id' r inside
      rcases mem_queue_enqueueWrite inside with old | ⟨_, runs, _⟩
      · exact inv.queued old
      · rw [runs]
        exact known
    · intro id' later h
      rw [JsMap.get?_set] at h
      split at h
      · obtain rfl := Option.some.inj h
        exact known
      · exact inv.removed h
  | @ended id outcome _ _ taken =>
    obtain ⟨request, rest, u, success, _, queued, ran, rfl, queues⟩ :=
      SessionStore.settle_ran taken
    have left : ∀ {id' r}, r ∈ ((s.writers.shift id request success).pumpWrites).queue id' →
        r ∈ s.writers.queue id' := by
      intro id' r inside
      rw [queues] at inside
      split at inside
      · rename_i same
        subst same
        rw [queued]
        exact List.mem_cons_of_mem _ inside
      · exact inside
    refine ⟨?_, ?_, ?_, ?_, ?_, ?_⟩
    · intro id' pending h
      exact inv.pendingId (ran.pendingSaves ▸ h)
    · intro id' pending h r inside
      exact inv.newest (ran.pendingSaves ▸ h) r (left inside)
    · intro id' r inside
      rw [ran.calls]
      exact inv.queued (left inside)
    · intro id' pending h
      rw [ran.calls]
      exact inv.pending (ran.pendingSaves ▸ h)
    · intro id' stamp h
      rw [ran.calls]
      by_cases same : id' = id
      · subst same
        rcases ran.unsaved stamp h with old | rfl
        · exact inv.unsaved old
        · have head : request ∈ s.writers.queue id' := queued ▸ List.mem_cons_self
          exact inv.queued head
      · rw [ran.unsaved_other id' same] at h
        exact inv.unsaved h
    · intro id' stamp h
      rw [ran.calls]
      exact inv.removed (ran.removed ▸ h)
  | @edited id session stamp length waiting =>
    have found : ∀ {id' pending}, (s.pendingSaves.set id ({ session with historyLength := length },
        stamp)).get? id' = some pending → ∃ old, s.pendingSaves.get? id' = some old ∧
          pending.1.id = old.1.id ∧ pending.2 = old.2 := by
      intro id' pending found
      rw [JsMap.get?_set] at found
      split at found
      · rename_i same
        obtain rfl := Option.some.inj found
        exact ⟨(session, stamp), by rw [same, waiting], rfl, rfl⟩
      · exact ⟨_, found, rfl, rfl⟩
    refine ⟨?_, ?_, inv.queued, ?_, inv.unsaved, inv.removed⟩
    · intro id' pending h
      obtain ⟨old, was, same, _⟩ := found h
      exact same.trans (inv.pendingId was)
    · intro id' pending h
      obtain ⟨old, was, _, same⟩ := found h
      rw [same]
      exact inv.newest was
    · intro id' pending h
      obtain ⟨old, was, _, same⟩ := found h
      rw [same]
      exact inv.pending was
  | cleared =>
    refine ⟨?_, ?_, inv.queued, ?_, inv.unsaved, inv.removed⟩ <;>
      exact fun h => by cases h

theorem enqueued_withdraws {run : Work} {coalescible : Bool}
    {pendingSaves : JsMap SessionId (PersistedSession × Nat)} (inv : s.Withdraws)
    (not_remove : run.task ≠ .remove) : SessionStore.Withdraws { s with
      writers := s.writers.enqueueWrite id run coalescible, pendingSaves := pendingSaves } := by
  refine ⟨?_, ?_, ?_⟩
  · intro id'
    show ((s.writers.enqueueWrite id run coalescible).queue id').Pairwise _
    by_cases same : id' = id
    · subst same
      obtain ⟨before, new, queued, runs, _, prior, _⟩ :=
        queue_enqueueWrite s.writers id' run coalescible
      rw [queued]
      refine List.pairwise_append.mpr
        ⟨(inv.order id').sublist prior.sublist, List.pairwise_singleton _ _, ?_⟩
      intro r _ r' is_new is_remove
      obtain rfl := List.mem_singleton.mp is_new
      exact absurd (runs ▸ is_remove) not_remove
    · rw [queue_enqueueWrite_of_ne same]
      exact inv.order id'
  · intro id' r inside is_remove
    rcases mem_queue_enqueueWrite inside with old | ⟨_, runs, _⟩
    · exact inv.unsaved old is_remove
    · exact absurd (runs ▸ is_remove) not_remove
  · intro id' r inside is_remove
    rcases mem_queue_enqueueWrite inside with old | ⟨_, runs, _⟩
    · exact inv.removed old is_remove
    · exact absurd (runs ▸ is_remove) not_remove

theorem withdraws (change : Change ok s t) (inv : s.Withdraws) : t.Withdraws := by
  cases change with
  | called | aside | postponed | accepted | edited | cleared | flushCalled | flushAwaits
  | flushEnded => exact ⟨inv.order, inv.unsaved, inv.removed⟩
  | @superseded id run coalescible carries _ _ _ _ =>
    have not_remove : run.task ≠ .remove := by
      intro is_remove
      simp [Work.carriesState, is_remove] at carries
    exact enqueued_withdraws (s := s) inv not_remove
  | @enqueued id run not_remove _ => exact enqueued_withdraws (s := s) inv not_remove
  | @removed id stamp _ after _ unsaved earlier =>
    refine ⟨?_, ?_, ?_⟩
    · intro id'
      show ((s.writers.enqueueWrite id ⟨.remove, stamp⟩ false).queue id').Pairwise _
      by_cases same : id' = id
      · subst same
        obtain ⟨before, new, queued, runs, _, prior, _⟩ :=
          queue_enqueueWrite s.writers id' ⟨.remove, stamp⟩ false
        rw [queued]
        refine List.pairwise_append.mpr
          ⟨(inv.order id').sublist prior.sublist, List.pairwise_singleton _ _, ?_⟩
        intro r inside r' is_new _
        obtain rfl := List.mem_singleton.mp is_new
        rw [runs]
        exact after r (prior.subset inside)
      · rw [queue_enqueueWrite_of_ne same]
        exact inv.order id'
    · intro id' r inside is_remove stamp' h
      rcases mem_queue_enqueueWrite inside with old | ⟨rfl, runs, _⟩
      · exact inv.unsaved old is_remove stamp' h
      · rw [runs]
        exact unsaved stamp' h
    · intro id' r inside is_remove
      show ∃ later, (s.ledger.removed.set id stamp).get? id' = some later ∧ _
      rw [JsMap.get?_set]
      rcases mem_queue_enqueueWrite inside with old | ⟨rfl, runs, _⟩
      · obtain ⟨later, was, bound⟩ := inv.removed old is_remove
        split
        · rename_i same
          subst same
          exact ⟨stamp, rfl, bound.trans (earlier later was)⟩
        · exact ⟨later, was, bound⟩
      · rw [if_pos rfl]
        exact ⟨stamp, rfl, by rw [runs]⟩
  | @ended id outcome _ _ taken =>
    obtain ⟨request, rest, u, success, _, queued, ran, rfl, queues⟩ :=
      SessionStore.settle_ran taken
    have order := inv.order id
    rw [queued, List.pairwise_cons] at order
    refine ⟨?_, ?_, ?_⟩
    · intro id'
      rw [queues]
      split
      · exact order.2
      · exact inv.order id'
    · intro id' r inside is_remove stamp h
      rw [queues] at inside
      split at inside
      · rename_i same
        subst same
        rcases ran.unsaved stamp h with old | rfl
        · exact inv.unsaved (queued ▸ List.mem_cons_of_mem _ inside) is_remove stamp old
        · exact order.1 r inside is_remove
      · rename_i other
        rw [ran.unsaved_other id' other] at h
        exact inv.unsaved inside is_remove stamp h
    · intro id' r inside is_remove
      rw [ran.removed]
      have old : r ∈ s.writers.queue id' := by
        rw [queues] at inside
        split at inside
        · rename_i same
          subst same
          rw [queued]
          exact List.mem_cons_of_mem _ inside
        · exact inside
      exact inv.removed old is_remove
theorem tidy (change : Change ok s t) (inv : s.Tidy) : t.Tidy where
  orderly := inv.orderly.moves change.moves
  kept := by
    have moves := change.moves
    suffices ∀ w, Moves s.writers w → w.Kept from this _ moves
    intro w moves
    induction moves with
    | refl => exact inv.kept
    | tail before move ih => exact ih.move (inv.orderly.moves before) move
  pumped := change.pumped inv.pumped
  dated := change.dated inv.dated
  withdraws := change.withdraws inv.withdraws

end Change

end Takode.Sessions
