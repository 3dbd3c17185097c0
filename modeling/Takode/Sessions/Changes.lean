import Takode.Sessions.Writers

/-!
# What a call or the end of a run changes

The changes of the store that its events are made of, each with what holds when the
code makes it. A state stays covered: withdrawn by a `remove`, written, waiting for
its timer, queued, or recorded as a failure, by itself or by a newer one.
-/

namespace Takode.Sessions

namespace Writers

variable {w : Writers} {id id' : SessionId} {run : Work} {coalescible : Bool}

theorem queue_pump (turns : Nat) (w : Writers) : (pump turns w).queue id = w.queue id := by
  induction turns generalizing w with
  | zero => rfl
  | succ turns ih =>
    unfold pump
    split
    · split
      · rfl
      · rw [ih, queue_startWriter]
    · rfl

@[simp] theorem queue_pumpWrites : w.pumpWrites.queue id = w.queue id := queue_pump _ w

theorem queue_enqueueWrite_of_ne (other : id' ≠ id) :
    (w.enqueueWrite id run coalescible).queue id' = w.queue id' := by
  unfold enqueueWrite
  split <;> simp [other]

theorem queue_enqueueWrite (w : Writers) (id : SessionId) (run : Work) (coalescible : Bool) :
    ∃ before new, (w.enqueueWrite id run coalescible).queue id = before ++ [new] ∧ new.run = run ∧
      new.coalescible = coalescible ∧ before <+: w.queue id ∧
      ∀ r ∈ w.queue id, r ∈ before ∨ coalescible = true ∧ r.coalescible = true := by
  unfold enqueueWrite
  cases found : w.mergeable id coalescible with
  | none =>
    exact ⟨w.queue id, ⟨run, coalescible, w.promises⟩, by simp, rfl, rfl, List.prefix_rfl,
      fun r inside => .inl inside⟩
  | some last =>
    obtain ⟨is_last, merges, merged, _⟩ := mergeable_eq_some found
    obtain ⟨before, queued⟩ := List.getLast?_eq_some_iff.mp is_last
    refine ⟨before, { last with run }, by simp [queued], rfl, merged.trans merges.symm, ?_, ?_⟩
    · rw [queued]
      exact List.prefix_append _ _
    · intro r inside
      rw [queued] at inside
      rcases List.mem_append.mp inside with earlier | equal
      · exact .inl earlier
      · obtain rfl := List.mem_singleton.mp equal
        exact .inr ⟨merges, merged⟩

theorem mem_queue_enqueueWrite {r : WriteRequest}
    (inside : r ∈ (w.enqueueWrite id run coalescible).queue id') :
    r ∈ w.queue id' ∨ id' = id ∧ r.run = run ∧ r.coalescible = coalescible := by
  by_cases same : id' = id
  · subst same
    obtain ⟨before, new, queued, runs, kind, earlier, _⟩ :=
      queue_enqueueWrite w id' run coalescible
    rw [queued] at inside
    rcases List.mem_append.mp inside with old | is_new
    · exact .inl (earlier.subset old)
    · obtain rfl := List.mem_singleton.mp is_new
      exact .inr ⟨rfl, runs, kind⟩
  · rw [queue_enqueueWrite_of_ne same] at inside
    exact .inl inside

end Writers

section Failures

variable {id id' : SessionId} {failures : JsSet (SessionFile × SessionId)} {attempt : Attempt}
  {restore : Restore}

/-- A failure of the session is recorded. -/
def Flagged (failures : JsSet (SessionFile × SessionId)) (id : SessionId) : Prop :=
  ∃ file, failures.has (file, id) = true

theorem Attempt.record_other (other : id' ≠ id) (file : SessionFile) :
    (attempt.record id failures).has (file, id') = failures.has (file, id') := by
  cases attempt with
  | hotFailed frozenSaved => cases frozenSaved <;> simp [record, other]
  | written | refused | frozenFailed => simp [record, other]

theorem Restore.record_other (other : id' ≠ id) (file : SessionFile) :
    (restore.record id failures).has (file, id') = failures.has (file, id') := by
  cases restore with
  | hotRepair saved => cases saved <;> simp [record, other]
  | repair attempt => exact Attempt.record_other other file
  | missing | unreadable | intact => rfl

theorem Attempt.flagged_of_failed (failed : attempt ≠ .written) (allowed : attempt ≠ .refused) :
    Flagged (attempt.record id failures) id := by
  cases attempt with
  | written => exact absurd rfl failed
  | refused => exact absurd rfl allowed
  | hotFailed frozenSaved => exact ⟨.hot, by simp [record]⟩
  | frozenFailed => exact ⟨.frozen, by simp [record]⟩

theorem Attempt.flagged (unwritten : attempt ≠ .written) (flagged : Flagged failures id) :
    Flagged (attempt.record id failures) id := by
  by_cases allowed : attempt = .refused
  · subst allowed
    exact flagged
  · exact attempt.flagged_of_failed unwritten allowed

/-- The repair of a load has written the hot file. -/
def Restore.saves : Restore → Bool
  | .missing | .unreadable | .intact => false
  | .hotRepair saved => saved
  | .repair attempt => attempt = .written

theorem Restore.flagged (unsaved : restore.saves = false) (flagged : Flagged failures id) :
    Flagged (restore.record id failures) id := by
  cases restore with
  | missing | unreadable | intact => exact flagged
  | hotRepair saved =>
    cases saved with
    | false => exact ⟨.hot, by simp [record]⟩
    | true => cases unsaved
  | repair attempt => exact attempt.flagged (by simpa [saves] using unsaved) flagged

end Failures

/-- The run has written the hot file, other than to remove it. -/
def Outcome.saves : Outcome → Bool
  | .wrote attempt => attempt = .written
  | .loaded restore => restore.saves
  | .archived restore attempt => restore.saves || attempt = .written
  | .removed _ => false

namespace SessionStore

/-- No write is refused, and a write that succeeds while a state could not be written carries that
state or a newer one. -/
def heeds (s : SessionStore) (id : SessionId) (outcome : Outcome) : Bool :=
  outcome ≠ .wrote .refused &&
    (!outcome.saves || (s.ledger.unsaved.get? id).all fun unsaved =>
      (s.writers.queue id).head?.any fun request =>
        request.run.carriesState && unsaved ≤ request.run.stamp)

/-- The state, or a newer one, has been written, or a `remove` has withdrawn it. -/
def Saved (s : SessionStore) (id : SessionId) (stamp : Nat) : Prop :=
  (∃ later, s.ledger.removed.get? id = some later ∧ stamp ≤ later) ∨
    ∃ later, (id, later) ∈ s.ledger.written ∧ stamp ≤ later

def Queued (s : SessionStore) (id : SessionId) (stamp : Nat) : Prop :=
  ∃ r ∈ s.writers.queue id, r.run.carriesState = true ∧ stamp ≤ r.run.stamp

def Pending (s : SessionStore) (id : SessionId) (stamp : Nat) : Prop :=
  ∃ pending, s.pendingSaves.get? id = some pending ∧ stamp ≤ pending.2

def Failed (s : SessionStore) (id : SessionId) (stamp : Nat) : Prop :=
  (∃ later, s.ledger.unsaved.get? id = some later ∧ stamp ≤ later) ∧
    Flagged s.persistenceFailures id

def Covered (s : SessionStore) (id : SessionId) (stamp : Nat) : Prop :=
  s.Saved id stamp ∨ s.Pending id stamp ∨ s.Queued id stamp ∨ s.Failed id stamp

end SessionStore

/-- The changes, in runs whose operations end as `ok` admits. -/
inductive Change (ok : SessionStore → SessionId → Outcome → Prop) (s : SessionStore) :
    SessionStore → Prop
  | called : Change ok s s.call
  | aside (lengths counts) : Change ok s
      { s with requestedHistoryLengths := lengths, frozenCounts := counts }
  | postponed {session : PersistedSession} {stamp : Nat} : stamp ≤ s.ledger.calls →
    (∀ r ∈ s.writers.queue session.id, r.coalescible = true → r.run.stamp < stamp) →
    (∀ pending, s.pendingSaves.get? session.id = some pending → pending.2 ≤ stamp) →
    Change ok s { s with pendingSaves := s.pendingSaves.set session.id (session, stamp) }
  | superseded {id : SessionId} {run : Work} {coalescible : Bool} : run.carriesState = true →
    (coalescible = true → run.task = .snapshot) → run.stamp ≤ s.ledger.calls →
    (∀ r ∈ s.writers.queue id, r.coalescible = true → r.run.stamp < run.stamp) →
    (∀ pending, s.pendingSaves.get? id = some pending → pending.2 ≤ run.stamp) →
    Change ok s ((s.cancelDebouncedSave id).enqueueWrite id run coalescible)
  | enqueued {id : SessionId} {run : Work} : run.task ≠ .remove → run.stamp ≤ s.ledger.calls →
    Change ok s (s.enqueueWrite id run false)
  | removed {id : SessionId} {stamp : Nat} : stamp ≤ s.ledger.calls →
    (∀ r ∈ s.writers.queue id, r.run.stamp < stamp) →
    (∀ pending, s.pendingSaves.get? id = some pending → pending.2 ≤ stamp) →
    (∀ unsaved, s.ledger.unsaved.get? id = some unsaved → unsaved < stamp) →
    (∀ earlier, s.ledger.removed.get? id = some earlier → earlier ≤ stamp) →
    Change ok s { s.remove id stamp with
      ledger := { s.ledger with removed := s.ledger.removed.set id stamp } }
  | accepted {id stamp} : s.Covered id stamp → Change ok s (s.accept id stamp)
  | ended {id outcome t} : ok s id outcome → s.settle id outcome = some t → Change ok s t
  | edited {id session stamp} (historyLength : Nat) :
    s.pendingSaves.get? id = some (session, stamp) → Change ok s { s with
      pendingSaves := s.pendingSaves.set id ({ session with historyLength }, stamp) }
  | cleared : (∀ id, s.pendingSaves.get? id = none) → Change ok s { s with pendingSaves := ∅ }
  | flushCalled (awaiting) : Change ok s
      { s with flushes := s.flushes ++ [⟨s.ledger.accepted.entries, awaiting, none⟩] }
  | flushAwaits {i : Nat} {flush : Flush} (awaiting) : s.flushes[i]? = some flush →
    flush.resolved = none →
    Change ok s { s with flushes := s.flushes.set i { flush with awaiting := awaiting } }
  | flushEnded {i : Nat} {flush : Flush} : s.flushes[i]? = some flush → s.pendingSaves.size = 0 →
    s.writers.inflightWrites.size = 0 → Change ok s { s with
      flushes := s.flushes.set i
        { flush with resolved := some (s.persistenceFailures.size = 0) } }

namespace SessionStore

variable {s t u : SessionStore} {id id' : SessionId} {run : Work} {outcome : Outcome}
  {success : Bool} {request : WriteRequest} {stamp : Nat}

theorem settle_eq_some (ended : s.settle id outcome = some t) : ∃ request u success,
    s.writers.activeWriters.has id = true ∧ (s.writers.queue id).head? = some request ∧
      s.runTo id request.run outcome = some (u, success) ∧
      t = { u with writers := (u.writers.shift id request success).pumpWrites } := by
  unfold settle at ended
  split at ended
  · rename_i active
    obtain ⟨request, head, rest⟩ := Option.bind_eq_some_iff.mp ended
    obtain ⟨⟨u, success⟩, ran, rfl⟩ := Option.map_eq_some_iff.mp rest
    exact ⟨request, u, success, active, head, ran, rfl⟩
  · cases ended

/-- What a run leaves as it is. -/
structure Frame (s u : SessionStore) : Prop where
  writers : u.writers = s.writers
  pendingSaves : u.pendingSaves = s.pendingSaves
  flushes : u.flushes = s.flushes
  calls : u.ledger.calls = s.ledger.calls
  accepted : u.ledger.accepted = s.ledger.accepted
  removed : u.ledger.removed = s.ledger.removed
  written : s.ledger.written ⊆ u.ledger.written

/-- What a run does to the record of failures: the states of other sessions keep theirs, a state
that it carries is written or recorded, and one that had failed is written, recorded or removed. -/
structure Ran (s : SessionStore) (id : SessionId) (run : Work) (heeded : Prop)
    (u : SessionStore) : Prop extends Frame s u where
  unsaved_other : ∀ id' ≠ id, u.ledger.unsaved.get? id' = s.ledger.unsaved.get? id'
  flagged_other : ∀ id' ≠ id, Flagged s.persistenceFailures id' → Flagged u.persistenceFailures id'
  unsaved : ∀ stamp, u.ledger.unsaved.get? id = some stamp →
    s.ledger.unsaved.get? id = some stamp ∨ stamp = run.stamp
  carried : run.carriesState = true → heeded →
    (id, run.stamp) ∈ u.ledger.written ∨ u.Failed id run.stamp
  failed : ∀ stamp, s.Failed id stamp → heeded →
    (∃ later, (id, later) ∈ u.ledger.written ∧ stamp ≤ later) ∨ u.Failed id stamp ∨
      run.task = .remove

theorem Ledger.writes_unsaved_other {ledger : Ledger} (other : id' ≠ id) :
    (ledger.writes id stamp).unsaved.get? id' = ledger.unsaved.get? id' := by
  unfold Ledger.writes
  dsimp only
  split <;> simp [other]

theorem Ledger.writes_unsaved {ledger : Ledger} {later : Nat}
    (left : (ledger.writes id stamp).unsaved.get? id = some later) :
    ledger.unsaved.get? id = some later := by
  unfold Ledger.writes at left
  dsimp only at left
  split at left
  · simp at left
  · exact left

theorem runTo_wrote {attempt : Attempt}
    (ran : s.runTo id run (.wrote attempt) = some (u, success)) :
    s.Ran id run (attempt ≠ .refused ∧
      (attempt = .written → ∀ stamp, s.ledger.unsaved.get? id = some stamp → stamp ≤ run.stamp))
      u := by
  simp only [runTo] at ran
  split at ran
  case isFalse => cases ran
  cases ran
  by_cases written : attempt = .written
  · subst written
    simp only [if_true]
    refine ⟨⟨rfl, rfl, rfl, rfl, rfl, rfl, List.subset_append_left _ _⟩, ?_, ?_, ?_, ?_, ?_⟩
    · exact fun id' other => Ledger.writes_unsaved_other other
    · rintro id' other ⟨file, flagged⟩
      exact ⟨file, (Attempt.record_other other file).trans flagged⟩
    · exact fun stamp left => .inl (Ledger.writes_unsaved left)
    · exact fun _ _ => .inl (List.mem_append_right _ (List.mem_singleton_self _))
    · rintro stamp ⟨⟨later, unsaved, newer⟩, _⟩ ⟨_, heeded⟩
      refine .inl ⟨run.stamp, List.mem_append_right _ (List.mem_singleton_self _), ?_⟩
      exact newer.trans (heeded trivial later unsaved)
  · simp only [written, if_false]
    have recorded : ∀ stamp, stamp ≤ run.stamp ∨ (∃ later, s.ledger.unsaved.get? id = some later ∧
        stamp ≤ later) → ∃ later, (s.ledger.fails id run.stamp).unsaved.get? id = some later ∧
          stamp ≤ later := by
      rintro stamp (carried | ⟨later, unsaved, newer⟩)
      · exact ⟨_, JsMap.get?_set_self, carried.trans (le_max_left _ _)⟩
      · refine ⟨_, JsMap.get?_set_self, newer.trans ?_⟩
        rw [unsaved]
        exact le_max_right _ _
    refine ⟨⟨rfl, rfl, rfl, rfl, rfl, rfl, fun _ inside => inside⟩, ?_, ?_, ?_, ?_, ?_⟩
    · exact fun id' other => JsMap.get?_set_of_ne other
    · rintro id' other ⟨file, flagged⟩
      exact ⟨file, (Attempt.record_other other file).trans flagged⟩
    · intro stamp left
      have value := left.symm.trans JsMap.get?_set_self
      cases before : s.ledger.unsaved.get? id with
      | none => exact .inr (by simpa [before] using value)
      | some earlier =>
        rw [before, Option.getD_some, Option.some.injEq] at value
        rcases le_total earlier run.stamp with is_new | is_old
        · exact .inr (value.trans (max_eq_left is_new))
        · exact .inl (by rw [value, max_eq_right is_old])
    · intro _ heeded
      exact .inr ⟨recorded run.stamp (.inl le_rfl), attempt.flagged_of_failed written heeded.1⟩
    · rintro stamp ⟨unsaved, flagged⟩ _
      exact .inr (.inl ⟨recorded stamp (.inr unsaved), attempt.flagged written flagged⟩)

theorem Ran.of_failures {failures : JsSet (SessionFile × SessionId)} {heeded : Prop}
    (carries : run.carriesState = false)
    (others : ∀ id' ≠ id, ∀ file, failures.has (file, id') = s.persistenceFailures.has (file, id'))
    (flagged : heeded → s.Failed id 0 → Flagged failures id) :
    s.Ran id run heeded { s with persistenceFailures := failures } where
  writers := rfl
  pendingSaves := rfl
  flushes := rfl
  calls := rfl
  accepted := rfl
  removed := rfl
  written := fun _ inside => inside
  unsaved_other := fun _ _ => rfl
  flagged_other := by
    rintro id' other ⟨file, set⟩
    exact ⟨file, (others id' other file).trans set⟩
  unsaved := fun _ left => .inl left
  carried := by
    intro carried
    rw [carries] at carried
    cases carried
  failed := by
    rintro stamp ⟨⟨later, unsaved, newer⟩, set⟩ heeded
    refine .inr (.inl ⟨⟨later, unsaved, newer⟩, flagged heeded ?_⟩)
    exact ⟨⟨later, unsaved, Nat.zero_le _⟩, set⟩

theorem Ran.weaken {heeded heeded' : Prop} (ran : s.Ran id run heeded u)
    (stronger : heeded' → heeded) : s.Ran id run heeded' u :=
  { ran with
    carried := fun carries h => ran.carried carries (stronger h)
    failed := fun stamp failed h => ran.failed stamp failed (stronger h) }

theorem runTo_ran (head : (s.writers.queue id).head? = some request)
    (ran : s.runTo id request.run outcome = some (u, success)) :
    s.Ran id request.run (s.heeds id outcome = true) u := by
  cases outcome with
  | wrote attempt =>
    refine (runTo_wrote ran).weaken fun heeded => ⟨?_, fun written stamp unsaved => ?_⟩
    · rintro rfl
      simp [heeds] at heeded
    · subst written
      simp [heeds, Outcome.saves, head, unsaved] at heeded
      exact heeded.2
  | loaded restore =>
    simp only [runTo] at ran
    split at ran
    case isFalse => cases ran
    rename_i is_load
    cases ran
    refine .of_failures (by simp [Work.carriesState, is_load])
      (fun id' other file => Restore.record_other other file) ?_
    rintro heeded ⟨⟨stamp, unsaved, _⟩, flagged⟩
    refine Restore.flagged ?_ flagged
    by_contra saves
    simp [heeds, Outcome.saves, saves, unsaved, head, Work.carriesState, is_load] at heeded
  | archived restore attempt =>
    simp only [runTo] at ran
    split at ran
    case isFalse => cases ran
    rename_i is_archive
    have idle : request.run.carriesState = false := by simp [Work.carriesState, is_archive.1]
    have quiet : s.heeds id (.archived restore attempt) = true → s.Failed id 0 →
        restore.saves = false ∧ attempt ≠ .written := by
      rintro heeded ⟨⟨stamp, unsaved, _⟩, _⟩
      simp [heeds, Outcome.saves, unsaved, head, idle] at heeded
      exact heeded
    split at ran
    · cases ran
      refine .of_failures idle (fun id' other file => ?_) ?_
      · exact (Attempt.record_other other file).trans (Restore.record_other other file)
      · intro heeded failed
        obtain ⟨unsaved, unwritten⟩ := quiet heeded failed
        exact attempt.flagged unwritten (Restore.flagged unsaved failed.2)
    · cases ran
      refine .of_failures idle (fun id' other file => Restore.record_other other file) ?_
      intro heeded failed
      exact Restore.flagged (quiet heeded failed).1 failed.2
  | removed done =>
    simp only [runTo] at ran
    split at ran
    case isFalse => cases ran
    rename_i is_remove
    have idle : request.run.carriesState = false := by simp [Work.carriesState, is_remove]
    cases done with
    | false =>
      cases ran
      exact .of_failures idle (fun _ _ _ => rfl) fun _ failed => failed.2
    | true =>
      cases ran
      refine ⟨⟨rfl, rfl, rfl, rfl, rfl, rfl, fun _ inside => inside⟩, ?_, ?_, ?_, ?_, ?_⟩
      · intro id' other
        simp [other]
      · rintro id' other ⟨file, flagged⟩
        exact ⟨file, (Attempt.record_other other file).trans flagged⟩
      · intro stamp left
        simp at left
      · intro carries
        rw [idle] at carries
        cases carries
      · exact fun _ _ _ => .inr (.inr is_remove)

end SessionStore

end Takode.Sessions
