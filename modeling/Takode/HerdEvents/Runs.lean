import Takode.HerdEvents.Delivering

/-!
# Runs of the dispatcher

Every step keeps what it does not explain. The log has no repetition in a run in which no delivery
refuses a group for good after it accepted another one.
-/

namespace Takode.HerdEvents

/-- Why an entry may leave the inbox in a step; `none` as its owner says that it is pending. -/
def Label.explains (leader : JsString) (herd : HerdState) : Label → Reason
  | .workerEvent _ event _ => fun old owner =>
    INBOX_CAP ≤ herd.inbox.entries.length ∨ (owner = none ∧ old.isHeldQuietTurn = true ∧
      event.isHeldQuietTurn = true ∧ old.sessionId = event.sessionId)
  | .flush bridge answers => fun old _ =>
    Outdated leader bridge herd.operations old ∨ ∃ n, old.isStale (answers n).bridge = true
  | .forceFlush bridge _ answers later => fun old _ =>
    Outdated leader bridge herd.operations old ∨ (∃ n, old.isStale (answers n).bridge = true) ∨
      old.isStale later = true
  | .turnEnd bridge succeeded completedOwnerIds answers => fun old owner =>
    Outdated leader bridge herd.operations old ∨ (∃ n, old.isStale (answers n).bridge = true) ∨
      old.key.any bridge.committedKeys.contains = true ∨
        (succeeded = true ∧ ∃ ownerId, owner = some ownerId ∧
          (completedOwnerIds.all fun ids => ownerId.any ids.contains) = true)
  | _ => fun _ _ => False

/-- No group is refused for good after another one of the delivery was accepted. -/
def admits (leader : JsString) (herd : HerdState) (label : Label) : Bool :=
  let unbroken (answers : Nat → Answer) : Bool :=
    let prepared := herd.prepare leader label
    prepared.2.all fun pending => !refusesAfterAccepting answers 0 false prepared.1.inbox
      (groupPendingEntriesByThread pending)
  match label with
  | .flush _ answers | .forceFlush _ _ answers _ | .turnEnd _ _ _ answers => unbroken answers
  | _ => true

/-- A step that appends nothing. -/
structure Retains (reason : Reason) (before after : HerdState) : Prop where
  sound : Sound after.inbox after.log
  keeps : Keeps reason before.inbox after.inbox
  nextSeq : after.inbox.nextSeq = before.inbox.nextSeq

section Deliveries

variable {reason : Reason} {leader : JsString} {bridge : Bridge} {herd after : HerdState}
  {prepared : HerdState × Option (List InboxEntry)} {answers : Nat → Answer}

theorem Thins.andKeeps {a b c : HerdInbox} (thins : Thins reason a b) (keeps : Keeps reason b c) :
    Keeps reason a c := by
  intro old inside
  rcases thins.left old inside with gone | ⟨middle, listed, seq, event, owner⟩
  · exact .inl gone
  · rcases keeps middle listed with gone | ⟨entry, there, seq', event'⟩
    · rw [event, owner] at gone
      exact .inl gone
    · exact .inr ⟨entry, there, seq'.trans seq, event'.trans event⟩

theorem Retains.of_thins (sound : Sound herd.inbox herd.log)
    (thins : Thins reason herd.inbox after.inbox) (log : after.log = herd.log) :
    Retains reason herd after :=
  ⟨log ▸ sound.thins thins, thins.keeps, thins.nextSeq⟩

/-- More is done afterwards, for a reason that does not ask for the owner. -/
theorem Retains.trans {middle : HerdState} {gone : TakodeEvent → Prop}
    (first : Retains reason herd middle) (second : Retains (fun event _ => gone event) middle after)
    (why : ∀ event owner, gone event → reason event owner) : Retains reason herd after where
  sound := second.sound
  keeps old inside := by
    rcases first.keeps old inside with left | ⟨entry, listed, seq, event⟩
    · exact .inl left
    · rcases second.keeps entry listed with left | ⟨entry', there, seq', event'⟩
      · exact .inl (why _ _ (event ▸ left))
      · exact .inr ⟨entry', there, seq'.trans seq, event'.trans event⟩
  nextSeq := second.nextSeq.trans first.nextSeq

theorem Retains.andThins {middle : HerdState} {gone : TakodeEvent → Prop}
    (first : Retains reason herd middle)
    (thins : Thins (fun event _ => gone event) middle.inbox after.inbox)
    (log : after.log = middle.log) (why : ∀ event owner, gone event → reason event owner) :
    Retains reason herd after :=
  first.trans (.of_thins first.sound thins log) why

theorem Retains.andSame {middle : HerdState} (first : Retains reason herd middle)
    (entries : after.inbox.entries = middle.inbox.entries)
    (nextSeq : after.inbox.nextSeq = middle.inbox.nextSeq)
    (inFlightUpTo : after.inbox.inFlightUpTo = middle.inbox.inFlightUpTo)
    (log : after.log = middle.log) : Retains reason herd after :=
  have none : ∀ event owner, False → reason event owner := fun _ _ no => no.elim
  first.andThins (.of_entries entries nextSeq inFlightUpTo) log none

/-- A delivery of what a flush got ready. -/
theorem Prepares.deliver (prepares : Prepares reason herd prepared)
    (sound : Sound herd.inbox herd.log) {pending : List InboxEntry}
    (same : prepared.2 = some pending)
    (admitted : refusesAfterAccepting answers 0 false prepared.1.inbox
      (groupPendingEntriesByThread pending) = false)
    (why : ∀ n event owner, event.isStale (answers n).bridge = true → reason event owner) :
    Retains reason herd (deliverPendingEntries prepared.1 answers pending).1 := by
  have waiting (entry) (inside : entry ∈ pending) := (prepares.pending pending same entry inside).2
  have fresh : ∀ entry ∈ pending, entry.seq ∉ acceptedSince prepared.1.log := by
    intro entry inside accepted
    obtain ⟨old, there, seq, waits⟩ := waiting entry inside
    rw [prepares.log, ← seq] at accepted
    rw [(sound.marked old there).mpr accepted] at waits
    cases waits
  have bounded : ∀ entry ∈ pending, entry.seq < prepared.1.inbox.nextSeq := by
    intro entry inside
    obtain ⟨old, there, seq, -⟩ := waiting entry inside
    rw [prepares.thins.nextSeq, ← seq]
    exact sound.below old there
  obtain ⟨after, keeps, nextSeq⟩ := deliverPendingEntries_sound
    (prepares.log ▸ sound.thins prepares.thins) (sound.sorted.sublist (prepares.seqs pending same))
    fresh bounded admitted why
  exact ⟨after, prepares.thins.andKeeps keeps, nextSeq.trans prepares.thins.nextSeq⟩

theorem Prepares.flush (prepares : Prepares reason herd prepared)
    (sound : Sound herd.inbox herd.log)
    (admitted : (prepared.2.all fun pending => !refusesAfterAccepting answers 0 false
      prepared.1.inbox (groupPendingEntriesByThread pending)) = true)
    (why : ∀ n event owner, event.isStale (answers n).bridge = true → reason event owner) :
    Retains reason herd (HerdEvents.flush bridge answers prepared) := by
  obtain ⟨middle, pending⟩ := prepared
  cases pending with
  | none => exact .of_thins sound prepares.thins prepares.log
  | some pending =>
    have delivered := prepares.deliver sound rfl (by simpa using admitted) why
    unfold HerdEvents.flush
    simp only
    split
    · rename_i retried
      rw [retried] at delivered
      exact delivered.andSame rfl rfl rfl rfl
    · rename_i done
      rwa [done] at delivered

theorem Prepares.forceFlush {later : Bridge} (prepares : Prepares reason herd prepared)
    (sound : Sound herd.inbox herd.log)
    (admitted : (prepared.2.all fun pending => !refusesAfterAccepting answers 0 false
      prepared.1.inbox (groupPendingEntriesByThread pending)) = true)
    (why : ∀ n event owner, event.isStale (answers n).bridge = true → reason event owner)
    (afterwards : ∀ event owner, event.isStale later = true → reason event owner) :
    Retains reason herd (HerdEvents.forceFlush later answers prepared) := by
  obtain ⟨middle, pending⟩ := prepared
  cases pending with
  | none => exact .of_thins sound prepares.thins prepares.log
  | some pending =>
    have delivered := prepares.deliver sound rfl (by simpa using admitted) why
    unfold HerdEvents.forceFlush
    simp only
    split
    · rename_i dropped
      rw [dropped] at delivered
      exact delivered.andThins (.prune _ later fun _ _ stale => stale) rfl afterwards
    · rename_i retried
      rw [retried] at delivered
      exact delivered.andSame rfl rfl rfl rfl
    · rename_i done
      rwa [done] at delivered

theorem Sound.resetInFlight {inbox : HerdInbox} {log : List LogEntry} (sound : Sound inbox log) :
    Sound inbox.resetInFlight (.reset :: log) := by
  have ordered : InOrder (.reset :: log) := by
    intro seqs accepted inside
    rcases List.mem_cons.mp inside with none | inside
    · cases none
    · exact sound.ordered seqs accepted inside
  unfold HerdInbox.resetInFlight
  split
  · refine ⟨?_, ?_, Thins.recompute_watermarked _, fun _ none => (by cases none), ?_, ordered,
      sound.unrepeated⟩
    · show (List.map _ (inbox.entries.map _)).Pairwise _
      rw [List.map_map]
      exact sound.sorted
    · intro entry inside
      obtain ⟨old, there, rfl⟩ := List.mem_map.mp inside
      exact sound.below old there
    · intro entry inside
      obtain ⟨old, there, rfl⟩ := List.mem_map.mp inside
      exact iff_of_false Bool.noConfusion List.not_mem_nil
  · rename_i landed
    refine ⟨sound.sorted, sound.below, sound.watermark, fun _ none => (by cases none), ?_, ordered,
      sound.unrepeated⟩
    intro entry inside
    have waits := sound.watermark (Option.not_isSome_iff_eq_none.mp landed) entry inside
    rw [waits]
    exact iff_of_false Bool.noConfusion List.not_mem_nil

theorem Keeps.resetInFlight (reason : Reason) (inbox : HerdInbox) :
    Keeps reason inbox inbox.resetInFlight := by
  intro old inside
  unfold HerdInbox.resetInFlight
  split
  · exact .inr ⟨_, List.mem_map_of_mem inside, rfl, rfl⟩
  · exact .inr ⟨old, inside, rfl, rfl⟩

theorem resetInFlight_nextSeq (inbox : HerdInbox) :
    inbox.resetInFlight.nextSeq = inbox.nextSeq := by
  unfold HerdInbox.resetInFlight
  split <;> rfl

theorem onOrchestratorDisconnect_retains (sound : Sound herd.inbox herd.log) :
    Retains reason herd (onOrchestratorDisconnect herd) := by
  have reset : Retains reason herd ⟨herd.inbox.resetInFlight, herd.operations, .reset :: herd.log⟩ :=
    ⟨sound.resetInFlight, .resetInFlight _ _, resetInFlight_nextSeq _⟩
  exact reset.andSame rfl rfl rfl rfl

theorem endTurn_retains {succeeded : Bool} {completedOwnerIds : Option (List JsString)}
    (sound : Sound herd.inbox herd.log)
    (owned : succeeded = true → ∀ event owner,
      (completedOwnerIds.all fun ids => owner.any ids.contains) = true → reason event (some owner))
    (committed : ∀ event owner, event.key.any bridge.committedKeys.contains = true →
      reason event owner) :
    Retains reason herd (endTurn bridge succeeded completedOwnerIds herd) := by
  have confirms (inbox : HerdInbox) : Thins
      (fun event _ => event.key.any bridge.committedKeys.contains = true) inbox
      (inbox.confirmCommittedHerdHistory bridge) :=
    .confirmCommittedHerdHistory inbox bridge fun _ _ there => there
  cases succeeded with
  | true =>
    have confirmed : Retains reason herd
        { herd with inbox := herd.inbox.confirmOwned completedOwnerIds } :=
      .of_thins sound (.confirmOwned _ _ (owned rfl)) rfl
    exact confirmed.andThins (confirms _) rfl committed
  | false =>
    have reset : Retains reason herd
        ⟨herd.inbox.resetInFlight, herd.operations, .reset :: herd.log⟩ :=
      ⟨sound.resetInFlight, .resetInFlight _ _, resetInFlight_nextSeq _⟩
    exact reset.andThins (confirms _) rfl committed

/-- A turn end, of which the flush at its end may deliver. -/
theorem turnEnd_retains {succeeded : Bool} {completedOwnerIds : Option (List JsString)}
    (sound : Sound herd.inbox herd.log)
    (admitted : ((prepareTurnEnd leader bridge succeeded completedOwnerIds herd).2.all fun pending =>
      !refusesAfterAccepting answers 0 false
        (prepareTurnEnd leader bridge succeeded completedOwnerIds herd).1.inbox
        (groupPendingEntriesByThread pending)) = true)
    (why : ∀ event owner, Label.explains leader herd
      (.turnEnd bridge succeeded completedOwnerIds answers) event owner → reason event owner) :
    Retains reason herd (HerdEvents.flush bridge answers
      (prepareTurnEnd leader bridge succeeded completedOwnerIds herd)) := by
  have ended : Retains reason herd (endTurn bridge succeeded completedOwnerIds herd) :=
    endTurn_retains sound
      (fun done event owner owned => why _ _ (.inr (.inr (.inr ⟨done, owner, rfl, owned⟩))))
      fun event owner committed => why _ _ (.inr (.inr (.inl committed)))
  have operations : (endTurn bridge succeeded completedOwnerIds herd).operations =
      herd.operations := by
    cases succeeded <;> rfl
  unfold prepareTurnEnd at admitted ⊢
  simp only at admitted ⊢
  generalize endTurn bridge succeeded completedOwnerIds herd = middle at *
  split at admitted
  · rename_i waiting
    rw [if_pos waiting]
    have cleared : Retains reason herd
        { middle with inbox := { middle.inbox with debounceTimer := false } } :=
      ended.andSame rfl rfl rfl rfl
    have prepared : Prepares (fun event _ => Outdated leader bridge herd.operations event ∨
        ∃ n, event.isStale (answers n).bridge = true) _ (prepareFlush leader bridge
          { middle with inbox := { middle.inbox with debounceTimer := false } }) :=
      prepareFlush_prepares cleared.sound.distinct
        fun event owner outdated => .inl (operations ▸ outdated)
    exact cleared.trans
      (prepared.flush cleared.sound admitted fun n _ _ stale => .inr ⟨n, stale⟩)
      fun event owner either => why _ _ (either.imp_right .inl)
  · rename_i empty
    rw [if_neg empty]
    exact ended

end Deliveries

/-- What a step does: it explains what leaves, and an event that is appended is there afterwards,
unless the inbox was full. -/
structure Advances (leader : JsString) (before : HerdState) (label : Label) (after : HerdState) :
    Prop where
  sound : Sound after.inbox after.log
  keeps : Keeps (label.explains leader before) before.inbox after.inbox
  appended : after.inbox.nextSeq = before.inbox.nextSeq ∨
    (after.inbox.nextSeq = before.inbox.nextSeq + 1 ∧
      (INBOX_CAP ≤ before.inbox.entries.length ∨
        ∃ entry ∈ after.inbox.entries, entry.seq = before.inbox.nextSeq))

section Steps

variable {leader : JsString} {bridge : Bridge} {herd after : HerdState} {label : Label}

theorem Retains.advances (retains : Retains (label.explains leader herd) herd after) :
    Advances leader herd label after :=
  ⟨retains.sound, retains.keeps, .inl retains.nextSeq⟩

theorem Sound.unchanged (sound : Sound herd.inbox herd.log) (inbox : after.inbox = herd.inbox)
    (log : after.log = herd.log) : Advances leader herd label after :=
  (Retains.of_thins sound (inbox ▸ .refl _ _) log).advances

/-- An entry that waits is added with the next number. -/
theorem Sound.append {inbox : HerdInbox} {log : List LogEntry} (sound : Sound inbox log)
    {entry : InboxEntry} (numbered : entry.seq = inbox.nextSeq) (waits : entry.isPending = true) :
    Sound { inbox with nextSeq := inbox.nextSeq + 1, entries := inbox.entries ++ [entry] } log where
  sorted := by
    show (List.map _ (inbox.entries ++ [entry])).Pairwise _
    rw [List.map_append, List.pairwise_append]
    refine ⟨sound.sorted, List.pairwise_singleton _ _, fun seq inside other last => ?_⟩
    obtain ⟨old, there, rfl⟩ := List.mem_map.mp inside
    have same : other = inbox.nextSeq := (List.mem_singleton.mp last).trans numbered
    exact same ▸ sound.below old there
  below other inside := by
    show other.seq < inbox.nextSeq + 1
    rcases List.mem_append.mp inside with old | last
    · exact (sound.below other old).trans (Nat.lt_succ_self _)
    · rw [List.mem_singleton.mp last, numbered]
      exact Nat.lt_succ_self _
  watermark none other inside := by
    rcases List.mem_append.mp inside with old | last
    · exact sound.watermark none other old
    · rwa [List.mem_singleton.mp last]
  accepted seq inside := (sound.accepted seq inside).trans (Nat.lt_succ_self _)
  marked other inside := by
    rcases List.mem_append.mp inside with old | last
    · exact sound.marked other old
    · rw [List.mem_singleton.mp last, waits, numbered]
      exact iff_of_false Bool.noConfusion fun accepted => lt_irrefl _ (sound.accepted _ accepted)
  ordered := sound.ordered
  unrepeated := sound.unrepeated

theorem foldQuiet_thins {reason : Reason} (event : TakodeEvent) (sound : Sound herd.inbox herd.log)
    (why : ∀ previous : TakodeEvent, previous.isHeldQuietTurn = true →
      event.isHeldQuietTurn = true → previous.sessionId = event.sessionId → reason previous none) :
    Thins reason herd.inbox (foldQuiet bridge herd.inbox event).1 := by
  have same : (event.overrideQuietForBoardChange bridge.board).sessionId = event.sessionId ∧
      ((event.overrideQuietForBoardChange bridge.board).isHeldQuietTurn = true →
        event.isHeldQuietTurn = true) := by
    unfold TakodeEvent.overrideQuietForBoardChange
    split
    · rename_i quiet turn
      refine ⟨by split <;> rfl, fun _ => ?_⟩
      rw [TakodeEvent.isHeldQuietTurn, turn]
    · exact ⟨rfl, id⟩
  unfold foldQuiet
  simp only
  split
  · rename_i quiet
    exact .mergeEarlierHeldQuietTurn _ _ sound.distinct
      fun previous held worker => why previous held (same.2 quiet) (worker.trans same.1)
  · exact .refl _ _

theorem appendEvent_advances (event : TakodeEvent) (threadRoute : JsString)
    (heldBy : Option JsString) (sound : Sound herd.inbox herd.log) :
    Advances leader herd (.workerEvent bridge event threadRoute)
      (appendEvent bridge herd event threadRoute heldBy) := by
  have folded : Thins (Label.explains leader herd (.workerEvent bridge event threadRoute))
      herd.inbox (foldQuiet bridge herd.inbox event).1 :=
    foldQuiet_thins event sound fun _ held quiet worker => .inr ⟨rfl, held, quiet, worker⟩
  unfold appendEvent
  simp only
  generalize foldQuiet bridge herd.inbox event = fold at *
  have fewer : fold.1.entries.length ≤ herd.inbox.entries.length := by
    simpa using folded.seqs.length_le
  have appended : Sound ⟨fold.1.entries ++ [⟨fold.2, fold.1.nextSeq, threadRoute, heldBy, none⟩],
      fold.1.nextSeq + 1, fold.1.inFlightUpTo, fold.1.debounceTimer, fold.1.recentEventKeys⟩
      herd.log :=
    (sound.thins folded).append rfl rfl
  have finish {final : HerdInbox} (capped : Thins (fun _ _ => INBOX_CAP ≤ herd.inbox.entries.length)
      ⟨fold.1.entries ++ [⟨fold.2, fold.1.nextSeq, threadRoute, heldBy, none⟩],
        fold.1.nextSeq + 1, fold.1.inFlightUpTo, fold.1.debounceTimer, fold.1.recentEventKeys⟩
      final) : Advances leader herd (.workerEvent bridge event threadRoute)
        { herd with inbox := final } := by
    refine ⟨appended.thins capped, fun old inside => ?_, .inr ⟨?_, ?_⟩⟩
    · rcases folded.left old inside with gone | ⟨middle, listed, seq, same, -⟩
      · exact .inl gone
      · rcases capped.left middle (List.mem_append_left _ listed) with full | ⟨entry, there, found⟩
        · exact .inl (.inl full)
        · exact .inr ⟨entry, there, found.1.trans seq, found.2.1.trans same⟩
    · rw [capped.nextSeq, folded.nextSeq]
    · rcases capped.left _ (List.mem_append_right _ (List.mem_singleton_self _)) with full | found
      · exact .inl full
      · obtain ⟨entry, there, seq, -⟩ := found
        exact .inr ⟨entry, there, seq.trans folded.nextSeq⟩
  have capped : Thins (fun _ _ => INBOX_CAP ≤ herd.inbox.entries.length) _ _ := .capEntries
    ⟨fold.1.entries ++ [⟨fold.2, fold.1.nextSeq, threadRoute, heldBy, none⟩],
      fold.1.nextSeq + 1, fold.1.inFlightUpTo, fold.1.debounceTimer, fold.1.recentEventKeys⟩
    fun full _ _ => by
      rw [List.length_append, List.length_singleton] at full
      omega
  split
  · exact finish (capped.trans (.schedule _ _))
  · exact finish capped

theorem onWorkerEvent_advances (event : TakodeEvent) (threadRoute : JsString)
    (sound : Sound herd.inbox herd.log) :
    Advances leader herd (.workerEvent bridge event threadRoute)
      (onWorkerEvent leader bridge herd event threadRoute) := by
  unfold onWorkerEvent
  extract_lets injectedMessage known
  clear_value injectedMessage known
  split
  · exact sound.unchanged rfl rfl
  · split
    · exact sound.unchanged rfl rfl
    · split
      · exact sound.unchanged rfl rfl
      · split
        · have remembered : Retains
              (Label.explains leader herd (.workerEvent bridge event threadRoute)) herd
              { herd with inbox := herd.inbox.rememberDeliveredEventKeys [event] } :=
            .of_thins sound (.rememberDeliveredEventKeys _ _) rfl
          exact remembered.advances
        · split
          · exact sound.unchanged rfl rfl
          · exact appendEvent_advances event threadRoute _ sound

theorem releaseHeldRestartPrepEvents_retains {reason : Reason} (operationId : JsString)
    (sound : Sound herd.inbox herd.log) :
    Retains reason herd (releaseHeldRestartPrepEvents bridge herd operationId) := by
  unfold releaseHeldRestartPrepEvents
  split
  · exact .of_thins sound (.refl _ _) rfl
  · simp only
    split
    · exact .of_thins sound (.refl _ _) rfl
    · have released : Thins reason herd.inbox { herd.inbox with
          entries := herd.inbox.entries.map fun entry =>
            if entry.heldByRestartPrepOperationId = some operationId then
              { entry with heldByRestartPrepOperationId := none }
            else entry } :=
        .map herd.inbox fun entry => by split <;> exact ⟨rfl, rfl, rfl, rfl⟩
      refine .of_thins sound ?_ rfl
      split
      · exact released.trans (.schedule _ _)
      · exact released

theorem HerdState.step_advances (sound : Sound herd.inbox herd.log)
    (admitted : admits leader herd label = true) (taken : herd.step leader label = some after) :
    Advances leader herd label after := by
  cases label with
  | workerEvent bridge event threadRoute =>
    cases taken
    exact onWorkerEvent_advances event threadRoute sound
  | flush bridge answers =>
    rw [HerdState.step] at taken
    split at taken
    · cases taken
      have cleared : Retains (Label.explains leader herd (.flush bridge answers)) herd
          { herd with inbox := { herd.inbox with debounceTimer := false } } :=
        .of_thins sound (.of_entries rfl rfl rfl) rfl
      have prepared : Prepares (fun event _ => Outdated leader bridge herd.operations event ∨
          ∃ n, event.isStale (answers n).bridge = true) _
            (herd.prepare leader (.flush bridge answers)) :=
        prepareFlush_prepares cleared.sound.distinct fun _ _ outdated => .inl outdated
      exact (cleared.trans (prepared.flush cleared.sound admitted fun n _ _ stale => .inr ⟨n, stale⟩)
        fun _ _ => id).advances
    · cases taken
  | forceFlush bridge before answers later =>
    cases taken
    have prepared : Prepares (Label.explains leader herd (.forceFlush bridge before answers later))
        herd (herd.prepare leader (.forceFlush bridge before answers later)) :=
      prepareForceFlush_prepares sound.distinct fun _ _ outdated => .inl outdated
    exact (prepared.forceFlush sound admitted (fun n _ _ stale => .inr (.inl ⟨n, stale⟩))
      fun _ _ stale => .inr (.inr stale)).advances
  | turnEnd bridge succeeded completedOwnerIds answers =>
    cases taken
    exact (turnEnd_retains sound admitted fun _ _ => id).advances
  | disconnect =>
    cases taken
    exact (onOrchestratorDisconnect_retains sound).advances
  | beginRestartPrep operation =>
    cases taken
    exact sound.unchanged rfl rfl
  | releaseHeld bridge operationId =>
    cases taken
    exact (releaseHeldRestartPrepEvents_retains operationId sound).advances
  | endRestartPrep operationId =>
    cases taken
    exact sound.unchanged rfl rfl

theorem sound_start : Sound HerdState.start.inbox HerdState.start.log where
  sorted := List.Pairwise.nil
  below _ none := by cases none
  watermark _ _ none := by cases none
  accepted _ none := by cases none
  marked _ none := by cases none
  ordered _ _ none := by cases none
  unrepeated := trivial

theorem sound_of_reaches
    (reached : (dispatcher leader).Reaches (fun s label => admits leader s label = true) herd) :
    Sound herd.inbox herd.log :=
  reached.invariant sound_start fun _ sound admitted taken =>
    (HerdState.step_advances sound admitted taken).sound

/-- Where no delivery refuses a group after it accepted another one, events are neither lost nor
injected again, and they are injected in order. -/
theorem herd_events_delivered (leader : JsString) (s : HerdState)
    (reached : (dispatcher leader).Reaches (fun s label => admits leader s label = true) s) :
    Unrepeated s.log ∧ InOrder s.log ∧
      (∀ entry ∈ s.inbox.entries, entry.isPending = false ↔ entry.seq ∈ acceptedSince s.log) ∧
      ∀ label t, admits leader s label = true → (dispatcher leader).step s label = some t →
        (∀ old ∈ s.inbox.entries, label.explains leader s old.event old.deliveryOwnerId ∨
          ∃ entry ∈ t.inbox.entries, entry.seq = old.seq ∧ entry.event = old.event) ∧
        (t.inbox.nextSeq = s.inbox.nextSeq ∨ (t.inbox.nextSeq = s.inbox.nextSeq + 1 ∧
          (INBOX_CAP ≤ s.inbox.entries.length ∨
            ∃ entry ∈ t.inbox.entries, entry.seq = s.inbox.nextSeq))) := by
  have sound := sound_of_reaches reached
  refine ⟨sound.unrepeated, sound.ordered, sound.marked, fun label t admitted taken => ?_⟩
  have advances := HerdState.step_advances sound admitted taken
  exact ⟨advances.keeps, advances.appended⟩

end Steps

section Examples

/-- An idle leader that is not a Codex session, with an empty board. -/
def idleLeader : Bridge where
  now := 10
  isSessionIdle := true
  wakes := false
  isHostOffline := false
  isStopping := false
  isPreservingQueuedWork := false
  isCodexLeader := false
  isScribeSession _ := false
  board := []
  getBoardRow _ := none
  getBoardStallSignature _ := none
  getBoardDispatchableSignature _ := none
  committedKeys := []

def turnEndOf (id : Nat) (worker : String) : TakodeEvent where
  id := id
  sessionId := js worker
  ts := id
  actorSessionId := none
  key := none
  data := .turnEnd 1 none

/-- Two workers end a turn, on different quests. -/
def twoTurns : List Label :=
  [.workerEvent idleLeader (turnEndOf 1 "a") (js "q-1"),
    .workerEvent idleLeader (turnEndOf 2 "b") (js "q-2")]

/-- The first messages are sent, and the others are queued. -/
def sendsFirst (n : Nat) (i : Nat) : Answer :=
  ⟨if i < n then .sent else .queued, none, idleLeader⟩

/-- The events are sent, given up when the leader disconnects, and sent again. -/
def plainRun : List Label :=
  twoTurns ++ [.forceFlush idleLeader none (sendsFirst 2) idleLeader, .disconnect,
    .forceFlush idleLeader none (sendsFirst 2) idleLeader, .turnEnd idleLeader true none (sendsFirst 2)]

theorem plain_events_delivered : ∃ s,
    (dispatcher (js "leader")).Reaches (fun s label => admits (js "leader") s label = true) s ∧
      s.log = [.injected [1] true, .injected [0] true, .reset, .injected [1] true,
        .injected [0] true] ∧ s.inbox.entries.length = 0 ∧ Unrepeated s.log ∧ InOrder s.log := by
  obtain ⟨s, reached, log, empty⟩ := (dispatcher (js "leader")).exists_reaches_of_run
    (admits (js "leader"))
    (fun s => s.log = [.injected [1] true, .injected [0] true, .reset, .injected [1] true,
      .injected [0] true] ∧ s.inbox.entries.length = 0) plainRun (by decide +kernel)
  have delivered := herd_events_delivered (js "leader") s reached
  exact ⟨s, reached, log, empty, delivered.1, delivered.2.1⟩

/-- The first event is sent and the second one refused, and then both are sent. -/
def refusedRun : List Label :=
  twoTurns ++ [.forceFlush idleLeader none (sendsFirst 1) idleLeader,
    .flush idleLeader (sendsFirst 2)]

theorem herd_event_repeated : ∃ s, (dispatcher (js "leader")).Reachable s ∧
    s.log = [.injected [1] true, .injected [0] true, .injected [1] false, .injected [0] true] ∧
      ¬ Unrepeated s.log := by
  obtain ⟨s, reached, log⟩ := (dispatcher (js "leader")).exists_reaches_of_run (fun _ _ => true)
    (fun s => s.log = [.injected [1] true, .injected [0] true, .injected [1] false,
      .injected [0] true]) refusedRun (by decide +kernel)
  refine ⟨s, reached.reachable, log, ?_⟩
  rw [log]
  simp [Unrepeated, acceptedSince]

end Examples

end Takode.HerdEvents
