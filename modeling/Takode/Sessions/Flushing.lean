import Takode.Sessions.Covering

/-!
# What `flushAll` owes

Every event is a chain of changes, and as long as the ends of the runs heed what has
failed, no change uncovers a state: what is owed when a `flushAll` resolves has been
written or withdrawn.
-/

namespace Takode.Sessions

open Writers Relation

variable {ok : SessionStore → SessionId → Outcome → Prop} {s t : SessionStore} {id id' : SessionId}
  {stamp : Nat}

namespace SessionStore

theorem queued_enqueueWrite {run : Work} {coalescible : Bool} {w : Writers}
    (carries : coalescible = true → run.carriesState = true)
    (newer : coalescible = true → ∀ r ∈ w.queue id, r.coalescible = true →
      r.run.stamp < run.stamp) {stamp : Nat}
    (was : ∃ r ∈ w.queue id', r.run.carriesState = true ∧ stamp ≤ r.run.stamp) :
    ∃ r ∈ (w.enqueueWrite id run coalescible).queue id',
      r.run.carriesState = true ∧ stamp ≤ r.run.stamp := by
  obtain ⟨r, inside, state, bound⟩ := was
  by_cases same : id' = id
  · subst same
    obtain ⟨before, new, queued, runs, _, _, kept⟩ := queue_enqueueWrite w id' run coalescible
    rw [queued]
    rcases kept r inside with earlier | ⟨merges, merged⟩
    · exact ⟨r, List.mem_append_left _ earlier, state, bound⟩
    · refine ⟨new, List.mem_append_right _ (List.mem_singleton_self _), ?_, ?_⟩
      · rw [runs]
        exact carries merges
      · rw [runs]
        exact bound.trans (newer merges r inside merged).le
  · rw [queue_enqueueWrite_of_ne same]
    exact ⟨r, inside, state, bound⟩

theorem queued_new (w : Writers) (id : SessionId) (run : Work) (coalescible : Bool)
    (carries : run.carriesState = true) :
    ∃ r ∈ (w.enqueueWrite id run coalescible).queue id,
      r.run.carriesState = true ∧ run.stamp ≤ r.run.stamp := by
  obtain ⟨before, new, queued, runs, _⟩ := queue_enqueueWrite w id run coalescible
  refine ⟨new, ?_, by rw [runs, carries], by rw [runs]⟩
  rw [queued]
  exact List.mem_append_right _ (List.mem_singleton_self _)

end SessionStore

open SessionStore

/-- What has been written stays written, and what has been withdrawn stays withdrawn. -/
theorem Change.saved (change : Change ok s t) (was : s.Saved id stamp) : t.Saved id stamp := by
  cases change with
  | @removed id' later _ _ _ _ earlier =>
    rcases was with ⟨was, found, bound⟩ | written
    · refine .inl ?_
      show ∃ after, (s.ledger.removed.set id' later).get? id = some after ∧ _
      rw [JsMap.get?_set]
      split
      · rename_i same
        subst same
        exact ⟨later, rfl, bound.trans (earlier was found)⟩
      · exact ⟨was, found, bound⟩
    · exact .inr written
  | ended _ taken =>
    obtain ⟨_, _, u, _, _, _, ran, rfl, _⟩ := settle_ran taken
    rcases was with withdrawn | ⟨later, written, bound⟩
    · refine .inl ?_
      rw [ran.removed]
      exact withdrawn
    · exact .inr ⟨later, ran.written written, bound⟩
  | called | aside | postponed | superseded | enqueued | accepted | edited | cleared | flushCalled
  | flushAwaits | flushEnded => exact was

/-- The condition on the ends of the runs. -/
def Heeded (s : SessionStore) (id : SessionId) (outcome : Outcome) : Prop :=
  s.heeds id outcome = true

theorem Change.covered (change : Change Heeded s t) (tidy : s.Tidy)
    (was : s.Covered id stamp) : t.Covered id stamp := by
  rcases was with saved | was
  · exact .inl (change.saved saved)
  cases change with
  | called | aside | accepted | flushCalled | flushAwaits | flushEnded => exact .inr was
  | @postponed session later _ _ newer =>
    rcases was with ⟨pending, found, bound⟩ | was
    · refine .inr (.inl ?_)
      show ∃ pending, (s.pendingSaves.set session.id (session, later)).get? id = some pending ∧ _
      rw [JsMap.get?_set]
      split
      · rename_i same
        subst same
        exact ⟨_, rfl, bound.trans (newer pending found)⟩
      · exact ⟨pending, found, bound⟩
    · exact .inr (.inr was)
  | @superseded id' run coalescible carries _ _ newer older =>
    rcases was with ⟨pending, found, bound⟩ | was | failed
    · by_cases same : id = id'
      · subst same
        obtain ⟨r, inside, state, upper⟩ := queued_new s.writers id run coalescible carries
        exact .inr (.inr (.inl ⟨r, inside, state, (bound.trans (older pending found)).trans upper⟩))
      · refine .inr (.inl ⟨pending, ?_, bound⟩)
        exact JsMap.get?_delete.trans ((if_neg same).trans found)
    · exact .inr (.inr (.inl (queued_enqueueWrite (fun _ => carries) (fun _ => newer) was)))
    · exact .inr (.inr (.inr failed))
  | @enqueued id' run _ _ =>
    rcases was with pending | was | failed
    · exact .inr (.inl pending)
    · exact .inr (.inr (.inl
        (queued_enqueueWrite (fun h => by cases h) (fun h => by cases h) was)))
    · exact .inr (.inr (.inr failed))
  | @removed id' later _ _ older _ _ =>
    rcases was with ⟨pending, found, bound⟩ | was | failed
    · by_cases same : id = id'
      · subst same
        exact .inl (.inl ⟨later, JsMap.get?_set_self, bound.trans (older pending found)⟩)
      · refine .inr (.inl ⟨pending, ?_, bound⟩)
        exact JsMap.get?_delete.trans ((if_neg same).trans found)
    · exact .inr (.inr (.inl
        (queued_enqueueWrite (fun h => by cases h) (fun h => by cases h) was)))
    · exact .inr (.inr (.inr failed))
  | @ended id' outcome _ heeded taken =>
    obtain ⟨request, rest, u, success, _, queued, ran, rfl, queues⟩ := settle_ran taken
    have in_queue : request ∈ s.writers.queue id' := queued ▸ List.mem_cons_self
    rcases was with ⟨pending, found, bound⟩ | ⟨r, inside, state, bound⟩ | failed
    · refine .inr (.inl ⟨pending, ?_, bound⟩)
      exact (congrArg (·.get? id) ran.pendingSaves).trans found
    · by_cases same : id = id'
      · subst same
        rw [queued] at inside
        rcases List.mem_cons.mp inside with rfl | later
        · rcases ran.carried state heeded with written | ⟨⟨newer, unsaved, upper⟩, flagged⟩
          · exact .inl (.inr ⟨_, written, bound⟩)
          · exact .inr (.inr (.inr ⟨⟨newer, unsaved, bound.trans upper⟩, flagged⟩))
        · refine .inr (.inr (.inl ⟨r, ?_, state, bound⟩))
          rw [queues, if_pos rfl]
          exact later
      · refine .inr (.inr (.inl ⟨r, ?_, state, bound⟩))
        rw [queues, if_neg same]
        exact inside
    · by_cases same : id = id'
      · subst same
        rcases ran.failed stamp failed heeded with written | still | is_remove
        · exact .inl (.inr written)
        · exact .inr (.inr (.inr still))
        · obtain ⟨⟨unsaved, found, bound⟩, _⟩ := failed
          obtain ⟨later, withdrawn, upper⟩ := tidy.withdraws.removed in_queue is_remove
          have before := tidy.withdraws.unsaved in_queue is_remove unsaved found
          refine .inl (.inl ⟨later, ?_, (bound.trans before.le).trans upper⟩)
          exact (congrArg (·.get? id) ran.removed).trans withdrawn
      · obtain ⟨⟨unsaved, found, bound⟩, flagged⟩ := failed
        refine .inr (.inr (.inr ⟨⟨unsaved, ?_, bound⟩, ran.flagged_other id same flagged⟩))
        exact (ran.unsaved_other id same).trans found
  | @edited id' session later length waiting =>
    rcases was with ⟨pending, found, bound⟩ | was
    · refine .inr (.inl ?_)
      show ∃ pending, (s.pendingSaves.set id' ({ session with historyLength := length },
        later)).get? id = some pending ∧ _
      rw [JsMap.get?_set]
      split
      · rename_i same
        subst same
        rw [waiting] at found
        obtain rfl := Option.some.inj found
        exact ⟨_, rfl, bound⟩
      · exact ⟨pending, found, bound⟩
    · exact .inr (.inr was)
  | cleared empty =>
    rcases was with ⟨pending, found, _⟩ | was
    · rw [empty id] at found
      cases found
    · exact .inr (.inr was)

/-- The last state accepted for a session is covered, and so is what a `flushAll` owes; when one has
resolved, all that it owed has been written or withdrawn. -/
structure SessionStore.Owes (s : SessionStore) : Prop where
  accepted : ∀ {id stamp}, s.ledger.accepted.get? id = some stamp → s.Covered id stamp
  owed : ∀ flush ∈ s.flushes, ∀ e ∈ flush.owed, s.Covered e.1 e.2
  resolved : ∀ flush ∈ s.flushes, flush.resolved = some true → ∀ e ∈ flush.owed, s.Saved e.1 e.2

theorem SessionStore.Owes.start : Owes {} where
  accepted := fun h => by cases h
  owed := by simp
  resolved := by simp

theorem SessionStore.Tidy.saved_of_idle (tidy : s.Tidy) (covered : s.Covered id stamp)
    (no_pending : s.pendingSaves.size = 0) (no_inflight : s.writers.inflightWrites.size = 0)
    (no_failure : s.persistenceFailures.size = 0) : s.Saved id stamp := by
  rcases covered with saved | ⟨pending, found, _⟩ | ⟨r, inside, _⟩ | ⟨_, file, flagged⟩
  · exact saved
  · rw [JsMap.size_eq_zero.mp no_pending] at found
    cases found
  · have inflight : s.writers.inflightWrites.has r.done = true :=
      (tidy.orderly.inflight r.done).mpr ⟨id, List.mem_map_of_mem inside⟩
    rw [JsMap.has_eq_false.mpr (JsMap.size_eq_zero.mp no_inflight _)] at inflight
    cases inflight
  · rw [JsMap.has_eq_false.mpr (JsMap.size_eq_zero.mp no_failure _)] at flagged
    cases flagged

theorem Change.owes (change : Change Heeded s t) (tidy : s.Tidy) (owes : s.Owes) : t.Owes := by
  have covered : ∀ {id stamp}, s.Covered id stamp → t.Covered id stamp :=
    fun was => change.covered tidy was
  have saved : ∀ {id stamp}, s.Saved id stamp → t.Saved id stamp := fun was => change.saved was
  -- Most changes leave the list of flushes and the states accepted as they are.
  have same (flushes : t.flushes = s.flushes)
      (accepted : t.ledger.accepted = s.ledger.accepted) : t.Owes := by
    refine ⟨fun found => covered (owes.accepted (accepted ▸ found)), ?_, ?_⟩
    · intro flush inside e owed
      exact covered (owes.owed flush (flushes ▸ inside) e owed)
    · intro flush inside resolved e owed
      exact saved (owes.resolved flush (flushes ▸ inside) resolved e owed)
  cases change with
  | called | aside | postponed | superseded | enqueued | removed | edited | cleared =>
    exact same rfl rfl
  | ended _ taken =>
    obtain ⟨_, _, u, _, _, _, ran, rfl, _⟩ := settle_ran taken
    exact same ran.flushes ran.accepted
  | @accepted id stamp gives =>
    refine ⟨fun found => covered ?_, owes.owed, owes.resolved⟩
    rename_i id' stamp'
    have found' : (s.ledger.accepted.set id stamp).get? id' = some stamp' := found
    rw [JsMap.get?_set] at found'
    split at found'
    · rename_i same
      subst same
      obtain rfl := Option.some.inj found'
      exact gives
    · exact owes.accepted found'
  | flushCalled awaiting =>
    refine ⟨owes.accepted, ?_, ?_⟩
    · intro flush inside e owed
      rcases List.mem_append.mp inside with old | new
      · exact owes.owed flush old e owed
      · obtain rfl := List.mem_singleton.mp new
        exact owes.accepted (JsMap.mem_entries.mp owed)
    · intro flush inside resolved
      rcases List.mem_append.mp inside with old | new
      · exact owes.resolved flush old resolved
      · obtain rfl := List.mem_singleton.mp new
        cases resolved
  | @flushAwaits i flush awaiting listed unresolved =>
    have member := List.mem_of_getElem? listed
    refine ⟨owes.accepted, ?_, ?_⟩
    · intro other inside
      rcases List.mem_or_eq_of_mem_set inside with old | rfl
      · exact owes.owed other old
      · exact owes.owed flush member
    · intro other inside resolved
      rcases List.mem_or_eq_of_mem_set inside with old | rfl
      · exact owes.resolved other old resolved
      · rw [unresolved] at resolved
        cases resolved
  | @flushEnded i flush listed no_pending no_inflight =>
    have member := List.mem_of_getElem? listed
    refine ⟨owes.accepted, ?_, ?_⟩
    · intro other inside
      rcases List.mem_or_eq_of_mem_set inside with old | rfl
      · exact owes.owed other old
      · exact owes.owed flush member
    · intro other inside resolved e owed
      rcases List.mem_or_eq_of_mem_set inside with old | rfl
      · exact owes.resolved other old resolved e owed
      · have no_failure : s.persistenceFailures.size = 0 := by simpa using resolved
        exact tidy.saved_of_idle (owes.owed flush member e owed) no_pending no_inflight no_failure

section Steps

abbrev Changes (ok : SessionStore → SessionId → Outcome → Prop) :
    SessionStore → SessionStore → Prop := ReflTransGen (Change ok)

theorem Changes.tidy (changes : Changes ok s t) (tidy : s.Tidy) : t.Tidy := by
  induction changes with
  | refl => exact tidy
  | tail _ change ih => exact change.tidy ih

theorem Changes.moves (changes : Changes ok s t) : Moves s.writers t.writers := by
  induction changes with
  | refl => exact .refl
  | tail _ change ih => exact ih.trans change.moves

theorem Changes.owes (changes : Changes Heeded s t) (tidy : s.Tidy) (owes : s.Owes) :
    t.Owes := by
  induction changes with
  | refl => exact owes
  | tail before change ih => exact change.owes (Changes.tidy before tidy) ih

variable {session : PersistedSession}

/-- Everything known of the session is older than the stamp. -/
structure Fresh (s : SessionStore) (id : SessionId) (stamp : Nat) : Prop where
  known : stamp ≤ s.ledger.calls
  queued : ∀ r ∈ s.writers.queue id, r.coalescible = true → r.run.stamp < stamp
  pending : ∀ pending, s.pendingSaves.get? id = some pending → pending.2 ≤ stamp

theorem fresh_of_call (id : SessionId) (dated : s.Dated) : Fresh s.call id s.call.ledger.calls where
  known := le_rfl
  queued := fun _ inside _ => Nat.lt_succ_of_le (dated.queued inside)
  pending := fun _ found => (dated.pending found).trans (Nat.le_succ _)

theorem fresh_of_pending (dated : s.Dated) {pending : PersistedSession × Nat}
    (found : s.pendingSaves.get? id = some pending) : Fresh s pending.1.id pending.2 := by
  obtain rfl := dated.pendingId found
  refine ⟨dated.pending found, dated.newest found, fun other found' => ?_⟩
  rw [found] at found'
  exact (congrArg Prod.snd (Option.some.inj found')).ge

theorem queueSnapshot_changes {coalescible : Bool} (fresh : Fresh s session.id stamp) :
    Changes ok s
      ((s.cancelDebouncedSave session.id).queueSnapshot session stamp coalescible) :=
  .tail (.single (.aside _ _)) (.superseded (s := s.requestHistoryLength session) rfl
    (fun _ => rfl) fresh.known fresh.queued fresh.pending)

theorem saveSync_changes (fresh : Fresh s session.id stamp) :
    Changes ok s (s.saveSync session stamp) := queueSnapshot_changes fresh

theorem saveSync_covered : (s.saveSync session stamp).Covered session.id stamp :=
  .inr (.inr (.inl (queued_new _ _ ⟨.snapshot, stamp⟩ _ rfl)))

theorem saveSync_ledger : (s.saveSync session stamp).ledger = s.ledger := rfl

theorem save_changes (fresh : Fresh s session.id stamp) : Changes ok s (s.save session stamp) := by
  unfold save
  split
  · exact saveSync_changes fresh
  · exact .tail (.single (.aside _ s.frozenCounts))
      (.postponed (s := s.requestHistoryLength session) fresh.known fresh.queued fresh.pending)

theorem save_covered : (s.save session stamp).Covered session.id stamp := by
  unfold save
  split
  · exact saveSync_covered
  · exact .inr (.inl ⟨_, JsMap.get?_set_self, le_rfl⟩)

theorem saveHistoryEdits_changes (fresh : Fresh s session.id stamp) :
    Changes ok s (s.saveHistoryEdits session stamp) := by
  unfold saveHistoryEdits
  split
  · exact saveSync_changes fresh
  · exact .tail (.single (.aside _ s.frozenCounts))
      (.superseded (s := s.requestHistoryLength session) rfl (fun h => by cases h) fresh.known
        fresh.queued fresh.pending)

theorem saveHistoryEdits_covered :
    (s.saveHistoryEdits session stamp).Covered session.id stamp := by
  unfold saveHistoryEdits
  split
  · exact saveSync_covered
  · exact .inr (.inr (.inl (queued_new _ _ ⟨.edits, stamp⟩ _ rfl)))

theorem setArchived_changes (dated : s.Dated) (known : stamp ≤ s.ledger.calls) :
    Changes ok s (s.setArchived id stamp) := by
  have archive : ∀ u : SessionStore, u.ledger = s.ledger → Changes ok s u →
      Changes ok s (u.enqueueWrite id ⟨.archive, stamp⟩ false) := by
    intro u same before
    exact before.tail (.enqueued (by simp) (by rw [same]; exact known))
  unfold setArchived
  cases found : s.pendingSaves.get? id with
  | none => exact archive s rfl .refl
  | some pending => exact archive _ rfl (saveSync_changes (fresh_of_pending dated found))

theorem debounceExpired_eq (pending : PersistedSession × Nat) :
    s.debounceExpired pending = s.saveSync pending.1 pending.2 := by
  unfold debounceExpired saveSync cancelDebouncedSave
  dsimp only
  rw [JsMap.delete_delete]

section Pending

/-- Saving the sessions of a list, one after the other. -/
def saveAll (s : SessionStore) (list : List (PersistedSession × Nat)) : SessionStore :=
  list.foldl (fun s pending => s.saveSync pending.1 pending.2) s

variable {list : List (PersistedSession × Nat)}

theorem saveAll_ledger : (saveAll s list).ledger = s.ledger := by
  induction list generalizing s with
  | nil => rfl
  | cons pending rest ih => exact ih.trans saveSync_ledger

theorem saveAll_flushes : (saveAll s list).flushes = s.flushes := by
  induction list generalizing s with
  | nil => rfl
  | cons pending rest ih => exact ih

theorem saveAll_pending : (saveAll s list).pendingSaves.get? id =
    if id ∈ list.map (·.1.id) then none else s.pendingSaves.get? id := by
  induction list generalizing s with
  | nil => rfl
  | cons pending rest ih =>
    have first : (s.saveSync pending.1 pending.2).pendingSaves.get? id =
        if id = pending.1.id then none else s.pendingSaves.get? id := JsMap.get?_delete
    have step : saveAll s (pending :: rest) =
        saveAll (s.saveSync pending.1 pending.2) rest := rfl
    rw [step, ih, first, List.map_cons]
    by_cases same : id = pending.1.id
    · simp [same]
    · simp only [same, if_false, List.mem_cons, false_or]

theorem saveAll_clear : saveAll { s with pendingSaves := ∅ } list =
    { saveAll s list with pendingSaves := ∅ } := by
  induction list generalizing s with
  | nil => rfl
  | cons pending rest ih => exact ih (s := s.saveSync pending.1 pending.2)

theorem saveAll_changes (tidy : s.Tidy) (distinct : (list.map (·.1.id)).Nodup)
    (waiting : ∀ pending ∈ list, s.pendingSaves.get? pending.1.id = some pending) :
    Changes ok s (saveAll s list) := by
  induction list generalizing s with
  | nil => exact .refl
  | cons pending rest ih =>
    have split := List.nodup_cons.mp distinct
    have first : Changes ok s (s.saveSync pending.1 pending.2) :=
      saveSync_changes (fresh_of_pending tidy.dated (waiting pending List.mem_cons_self))
    refine first.trans (ih (Changes.tidy first tidy) split.2 fun other inside => ?_)
    have apart : other.1.id ≠ pending.1.id := fun same =>
      split.1 (List.mem_map.mpr ⟨other, inside, same⟩)
    refine JsMap.get?_delete.trans ((if_neg apart).trans ?_)
    exact waiting other (List.mem_cons_of_mem _ inside)

theorem flushPending_eq : s.flushPending =
    { saveAll s s.pendingSaves.values with pendingSaves := ∅ } := saveAll_clear

theorem flushPending_changes (tidy : s.Tidy) : Changes ok s s.flushPending := by
  have keys : s.pendingSaves.values.map (·.1.id) = s.pendingSaves.keys := by
    unfold JsMap.values JsMap.keys
    rw [List.map_map]
    refine List.map_congr_left fun e inside => ?_
    exact tidy.dated.pendingId (JsMap.mem_entries.mp inside)
  have saves : Changes ok s (saveAll s s.pendingSaves.values) := by
    apply saveAll_changes tidy
    · rw [keys]
      exact s.pendingSaves.nodup
    · intro pending inside
      obtain ⟨e, listed, rfl⟩ := List.mem_map.mp inside
      have found := JsMap.mem_entries.mp listed
      rw [tidy.dated.pendingId found]
      exact found
  rw [flushPending_eq]
  refine saves.tail (.cleared fun id => ?_)
  rw [saveAll_pending, keys]
  split
  · rfl
  · rename_i absent
    by_contra present
    obtain ⟨pending, found⟩ := Option.ne_none_iff_exists'.mp present
    exact absent (JsMap.mem_keys.mpr ⟨pending, found⟩)

theorem flushPending_flushes : s.flushPending.flushes = s.flushes := by
  rw [flushPending_eq]
  exact saveAll_flushes

theorem flushPending_ledger : s.flushPending.ledger = s.ledger := by
  rw [flushPending_eq]
  exact saveAll_ledger

end Pending

theorem flushAll_changes (tidy : s.Tidy) : Changes ok s s.flushAll := by
  unfold flushAll
  rw [← flushPending_ledger]
  exact (flushPending_changes tidy).tail (.flushCalled _)

theorem flushAwakes_changes (tidy : s.Tidy) {i : Nat} (taken : s.flushAwakes i = some t) :
    Changes ok s t := by
  unfold flushAwakes at taken
  obtain ⟨flush, listed, rest⟩ := Option.bind_eq_some_iff.mp taken
  split at rest
  case isFalse => cases rest
  rename_i ready
  split at rest
  · cases rest
    refine (flushPending_changes tidy).tail (.flushAwaits _ ?_ ready.1)
    rw [flushPending_flushes]
    exact listed
  · rename_i idle
    cases rest
    have no_pending : s.pendingSaves.size = 0 := by omega
    have no_inflight : s.writers.inflightWrites.size = 0 := by omega
    exact .single (.flushEnded listed no_pending no_inflight)

theorem gives_changes {give : SessionStore → PersistedSession → Nat → SessionStore}
    (dated : s.Dated)
    (changes : Fresh s.call session.id s.call.ledger.calls →
      Changes ok s.call (give s.call session s.call.ledger.calls))
    (covered : (give s.call session s.call.ledger.calls).Covered session.id s.call.ledger.calls) :
    Changes ok s (s.gives give session) :=
  (ReflTransGen.head .called (changes (fresh_of_call _ dated))).tail (.accepted covered)

/-- Every event is a chain of changes; only the ends of runs depend on the condition. -/
theorem step_changes (ok : SessionStore → SessionId → Outcome → Prop) (tidy : s.Tidy) {event : Event}
    (admitted : ∀ id outcome, event = .settles id outcome → ok s id outcome)
    (taken : s.step event = some t) : Changes ok s t := by
  have dated := tidy.dated
  cases event with
  | save session =>
    cases taken
    exact gives_changes dated save_changes save_covered
  | saveSync session =>
    cases taken
    exact gives_changes dated saveSync_changes saveSync_covered
  | saveImmediate session =>
    cases taken
    refine gives_changes dated queueSnapshot_changes ?_
    exact .inr (.inr (.inl (queued_new _ _ ⟨.snapshot, _⟩ _ rfl)))
  | saveHistoryEdits session =>
    cases taken
    exact gives_changes dated saveHistoryEdits_changes saveHistoryEdits_covered
  | rewriteFrozenHistoryMetadata session =>
    cases taken
    refine gives_changes dated (fun fresh => .single (.enqueued (by simp) fresh.known)) ?_
    exact .inr (.inr (.inl (queued_new _ _ ⟨.metadata, _⟩ _ rfl)))
  | load id =>
    cases taken
    exact .tail (.single .called) (.enqueued (by simp) le_rfl)
  | setArchived id =>
    cases taken
    have first : Change ok s s.call := .called
    exact .head first (setArchived_changes (first.dated dated) le_rfl)
  | remove id =>
    cases taken
    have fresh := fresh_of_call id dated
    refine .tail (.single .called) (.removed (s := s.call) fresh.known ?_ fresh.pending ?_ ?_)
    · exact fun r inside => Nat.lt_succ_of_le (dated.queued inside)
    · exact fun stamp found => Nat.lt_succ_of_le (dated.unsaved found)
    · exact fun stamp found => (dated.removed found).trans (Nat.le_succ _)
  | flushAll =>
    cases taken
    exact flushAll_changes tidy
  | debounceExpires id =>
    obtain ⟨pending, found, rfl⟩ := Option.map_eq_some_iff.mp taken
    rw [debounceExpired_eq]
    exact saveSync_changes (fresh_of_pending dated found)
  | settles id outcome => exact .single (.ended (admitted id outcome rfl) taken)
  | flushAwakes i => exact flushAwakes_changes tidy taken
  | sessionChanges id length =>
    obtain ⟨pending, found, rfl⟩ := Option.map_eq_some_iff.mp taken
    exact .single (.edited length found)
  | freezes id count =>
    simp only [step] at taken
    split at taken
    · cases taken
      exact .single (.aside s.requestedHistoryLengths _)
    · cases taken

end Steps

end Takode.Sessions
