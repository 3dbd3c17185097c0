import Takode.CodexTurns.Queue

/-!
# What becomes of queued turns

The order in which turns are offered to the adapter, and how a turn leaves the queue.
-/

namespace Takode.CodexTurns

open CodexHistory JsString

/-- The adapter has a turn, or the provider has named it. -/
def QueuedTurn.Underway (turn : QueuedTurn) : Prop :=
  turn.status = .dispatched ∨ turn.status = .backendAcknowledged ∨ turn.turnId ≠ none

/-- The adapter has accepted a turn, from the queue or before it was queued. -/
def TurnRun.Accepted (run : TurnRun) (turn : Nat) : Prop :=
  (turn, true) ∈ run.offered ∨ turn ∈ run.steered

/-- A turn is completed. -/
def CodexTurnQueue.Completed (queue : CodexTurnQueue) (turn : Nat) : Prop :=
  queue.status turn = some .completed

structure Orderly (run : TurnRun) : Prop where
  inside : ∀ n ∈ run.queue.pendingCodexTurns, n < run.queue.turns.length
  increasing : run.queue.pendingCodexTurns.Pairwise (· < ·)
  offers : ∀ offer ∈ run.offered, offer.1 < run.queue.turns.length ∧
    ∀ n ∈ run.queue.pendingCodexTurns, offer.1 ≤ n
  sorted : (run.offered.map (·.1)).Pairwise (· ≤ ·)
  open' : ∀ head, run.queue.getCodexHeadTurn = some head → ¬ run.queue.Completed head
  underway : ∀ n turn, run.queue.turns[n]? = some turn → turn.Underway → run.Accepted n
  settled : ∀ n, run.queue.Completed n → run.Accepted n ∨ n ∈ run.dismissed
  gone : ∀ n < run.queue.turns.length, n ∉ run.queue.pendingCodexTurns → run.queue.Completed n

/-- How a run goes on: what was completed stays so, and is not offered any more. -/
structure Follows (run run' : TurnRun) : Prop where
  orderly : Orderly run'
  completed : ∀ n, run.queue.Completed n → run'.queue.Completed n
  offered : ∃ more, run'.offered = run.offered ++ more ∧
    ∀ offer ∈ more, ¬ run.queue.Completed offer.1

theorem Follows.trans {run run' run'' : TurnRun} (first : Follows run run')
    (second : Follows run' run'') : Follows run run'' := by
  obtain ⟨more, grown, fresh⟩ := first.offered
  obtain ⟨more', grown', fresh'⟩ := second.offered
  refine ⟨second.orderly, fun n done => second.completed n (first.completed n done), more ++ more',
    by rw [grown', grown, List.append_assoc], fun offer made => ?_⟩
  rcases List.mem_append.mp made with early | late
  · exact fresh offer early
  · exact fun done => fresh' offer late (first.completed offer.1 done)

theorem Follows.of_quiet {run run' : TurnRun} (orderly : Orderly run')
    (completed : ∀ n, run.queue.Completed n → run'.queue.Completed n)
    (quiet : run'.offered = run.offered) : Follows run run' :=
  ⟨orderly, completed, [], by rw [quiet, List.append_nil], fun _ made => by cases made⟩

theorem Orderly.follows {run : TurnRun} (orderly : Orderly run) : Follows run run :=
  .of_quiet orderly (fun _ done => done) rfl

/-! ## Changes of one turn -/

theorem getElem?_modify_turns (queue : CodexTurnQueue) (n m : Nat) (f : QueuedTurn → QueuedTurn) :
    (queue.modify n f).turns[m]? = if n = m then (queue.turns[m]?).map f else queue.turns[m]? := by
  unfold CodexTurnQueue.modify
  rw [List.getElem?_modify]
  by_cases same : n = m
  · simp [same]
  · simp [same]

/-- A change of a turn that neither completes it nor takes that back. -/
def Steady (queue : CodexTurnQueue) (n : Nat) (f : QueuedTurn → QueuedTurn) : Prop :=
  ∀ turn, queue.turns[n]? = some turn → ((f turn).status = .completed ↔ turn.status = .completed)

theorem completed_modify {queue : CodexTurnQueue} {n : Nat} {f : QueuedTurn → QueuedTurn}
    (steady : Steady queue n f) (m : Nat) :
    (queue.modify n f).Completed m ↔ queue.Completed m := by
  unfold CodexTurnQueue.Completed CodexTurnQueue.status
  rw [getElem?_modify_turns]
  by_cases same : n = m
  · subst same
    rw [if_pos rfl]
    cases found : queue.turns[n]? with
    | none => simp
    | some turn => simpa using steady turn found
  · rw [if_neg same]

theorem Orderly.modify {run : TurnRun} (orderly : Orderly run) {n : Nat}
    {f : QueuedTurn → QueuedTurn} (steady : Steady run.queue n f)
    (underway : ∀ turn, run.queue.turns[n]? = some turn → (f turn).Underway →
      turn.Underway ∨ run.Accepted n) :
    Follows run { run with queue := run.queue.modify n f } := by
  refine .of_quiet ?_ (fun m => (completed_modify steady m).mpr) rfl
  have length : (run.queue.modify n f).turns.length = run.queue.turns.length :=
    List.length_modify ..
  refine ⟨fun m listed => ?_, orderly.increasing, fun offer made => ?_, orderly.sorted,
    fun head first => ?_, fun m turn found busy => ?_, fun m completed => ?_, fun m below absent => ?_⟩
  · rw [length]
    exact orderly.inside m listed
  · rw [length]
    exact orderly.offers offer made
  · rw [completed_modify steady]
    exact orderly.open' head first
  · rw [getElem?_modify_turns] at found
    by_cases same : n = m
    · subst same
      rw [if_pos rfl] at found
      obtain ⟨before, there, rfl⟩ := Option.map_eq_some_iff.mp found
      rcases underway before there busy with earlier | accepted
      · exact orderly.underway n before there earlier
      · exact accepted
    · rw [if_neg same] at found
      exact orderly.underway m turn found busy
  · exact orderly.settled m ((completed_modify steady m).mp completed)
  · rw [length] at below
    exact (completed_modify steady m).mpr (orderly.gone m below absent)

/-- The turn at the head is offered. -/
theorem Orderly.offer {run : TurnRun} (orderly : Orderly run) {head : Nat}
    (first : run.queue.getCodexHeadTurn = some head) (accepted : Bool) :
    Follows run { run with offered := run.offered ++ [(head, accepted)] } := by
  have fresh : ∀ offer ∈ [(head, accepted)], ¬ run.queue.Completed offer.1 := by
    intro offer made
    obtain rfl := List.mem_singleton.mp made
    exact orderly.open' head first
  refine ⟨?_, fun _ done => done, _, rfl, fresh⟩
  obtain ⟨tail, pending⟩ := List.head?_eq_some_iff.mp first
  have increasing := orderly.increasing
  rw [pending, List.pairwise_cons] at increasing
  have more : ∀ n, run.Accepted n →
      TurnRun.Accepted { run with offered := run.offered ++ [(head, accepted)] } n := by
    rintro n (offered | steered)
    · exact .inl (List.mem_append_left _ offered)
    · exact .inr steered
  refine ⟨orderly.inside, orderly.increasing, fun offer made => ?_, ?_, orderly.open',
    fun n turn found busy => more n (orderly.underway n turn found busy),
    fun n completed => (orderly.settled n completed).imp_left (more n), orderly.gone⟩
  · rcases List.mem_append.mp made with earlier | now
    · exact orderly.offers offer earlier
    · obtain rfl := List.mem_singleton.mp now
      refine ⟨orderly.inside head (by rw [pending]; exact List.mem_cons_self), fun n listed => ?_⟩
      dsimp only at listed ⊢
      rw [pending] at listed
      rcases List.mem_cons.mp listed with rfl | later
      · exact Nat.le_refl _
      · exact Nat.le_of_lt (increasing.1 n later)
  · rw [List.map_append, List.pairwise_append]
    refine ⟨orderly.sorted, List.pairwise_singleton _ _, fun a before b now => ?_⟩
    obtain ⟨offer, made, rfl⟩ := List.mem_map.mp before
    obtain rfl : b = head := by simpa using now
    exact (orderly.offers offer made).2 b (by rw [pending]; exact List.mem_cons_self)

/-! ## Turns that are queued and completed -/

theorem Orderly.enqueue {run : TurnRun} (orderly : Orderly run) {turn : QueuedTurn}
    (fresh : turn.status ≠ .completed) (steered : List Nat)
    (busy : turn.Underway → run.queue.turns.length ∈ steered) :
    Follows run { run with
      queue := run.queue.enqueueCodexTurn turn, steered := run.steered ++ steered } := by
  have length : (run.queue.enqueueCodexTurn turn).turns.length = run.queue.turns.length + 1 :=
    List.length_append
  have old : ∀ n < run.queue.turns.length,
      (run.queue.enqueueCodexTurn turn).turns[n]? = run.queue.turns[n]? :=
    fun n below => List.getElem?_append_left below
  have new : (run.queue.enqueueCodexTurn turn).turns[run.queue.turns.length]? = some turn :=
    List.getElem?_concat_length
  have completed : ∀ n, (run.queue.enqueueCodexTurn turn).Completed n ↔ run.queue.Completed n := by
    intro n
    unfold CodexTurnQueue.Completed CodexTurnQueue.status
    rcases Nat.lt_trichotomy n run.queue.turns.length with below | rfl | above
    · rw [old n below]
    · rw [new, List.getElem?_eq_none (Nat.le_refl _)]
      simpa using fresh
    · rw [List.getElem?_eq_none (by omega), List.getElem?_eq_none (by omega)]
  refine .of_quiet ?_ (fun n => (completed n).mpr) rfl
  have more : ∀ n, run.Accepted n → TurnRun.Accepted { run with
      queue := run.queue.enqueueCodexTurn turn, steered := run.steered ++ steered } n := by
    rintro n (offered | before)
    · exact .inl offered
    · exact .inr (List.mem_append_left _ before)
  refine ⟨fun n listed => ?_, ?_, fun offer made => ?_, orderly.sorted, fun head first => ?_,
    fun n other found underway => ?_, fun n done => ?_, fun n below absent => ?_⟩
  · rw [length]
    rcases List.mem_append.mp listed with earlier | last
    · have below := orderly.inside n earlier
      omega
    · obtain rfl := List.mem_singleton.mp last
      omega
  · refine List.pairwise_append.mpr ⟨orderly.increasing, List.pairwise_singleton _ _, ?_⟩
    intro a earlier b last
    obtain rfl := List.mem_singleton.mp last
    exact orderly.inside a earlier
  · have before := orderly.offers offer made
    refine ⟨by rw [length]; omega, fun n listed => ?_⟩
    rcases List.mem_append.mp listed with earlier | last
    · exact before.2 n earlier
    · obtain rfl := List.mem_singleton.mp last
      exact Nat.le_of_lt before.1
  · rw [completed]
    unfold CodexTurnQueue.getCodexHeadTurn CodexTurnQueue.enqueueCodexTurn at first
    dsimp only at first
    rw [List.head?_append] at first
    cases pending : run.queue.pendingCodexTurns.head? with
    | some other =>
      rw [pending] at first
      obtain rfl : other = head := by simpa using first
      exact orderly.open' other pending
    | none =>
      rw [pending] at first
      obtain rfl : run.queue.turns.length = head := by simpa using first
      unfold CodexTurnQueue.Completed CodexTurnQueue.status
      rw [List.getElem?_eq_none (Nat.le_refl _)]
      simp
  · dsimp only at found
    rcases Nat.lt_trichotomy n run.queue.turns.length with below | rfl | above
    · rw [old n below] at found
      exact more n (orderly.underway n other found underway)
    · rw [new] at found
      cases found
      exact .inr (List.mem_append_right _ (busy underway))
    · rw [List.getElem?_eq_none (by omega)] at found
      cases found
  · exact (orderly.settled n ((completed n).mp done)).imp_left (more n)
  · rw [length] at below
    have other : n ≠ run.queue.turns.length := by
      rintro rfl
      exact absent (List.mem_append_right _ (List.mem_singleton_self _))
    exact (completed n).mpr
      (orderly.gone n (by omega) fun listed => absent (List.mem_append_left _ listed))

theorem getElem?_markCompleted (queue : CodexTurnQueue) (completed : List Nat) (updatedAt m : Nat) :
    (queue.markCompleted completed updatedAt).turns[m]? =
      (queue.turns[m]?).map fun turn => if m ∈ completed then turn.completed updatedAt else turn :=
  List.getElem?_mapIdx

theorem completed_markCompleted {queue : CodexTurnQueue} {completed : List Nat} {updatedAt m : Nat} :
    (queue.markCompleted completed updatedAt).Completed m ↔
      queue.Completed m ∨ m ∈ completed ∧ m < queue.turns.length := by
  unfold CodexTurnQueue.Completed CodexTurnQueue.status
  rw [getElem?_markCompleted]
  cases found : queue.turns[m]? with
  | none =>
    have beyond := List.getElem?_eq_none_iff.mp found
    simp [beyond]
  | some turn =>
    have below := (List.getElem?_eq_some_iff.mp found).1
    by_cases listed : m ∈ completed
    · simp [listed, below, QueuedTurn.completed]
    · simp [listed]

/-- Turns are completed, and those at the head are removed. -/
theorem Orderly.complete {run : TurnRun} (orderly : Orderly run) {completed dismissed : List Nat}
    (updatedAt : Nat)
    (owned : ∀ n ∈ completed, n < run.queue.turns.length → run.Accepted n ∨ n ∈ dismissed) :
    Follows run { run with
      queue := (run.queue.markCompleted completed updatedAt).removeCompletedCodexTurns.1
      dismissed := run.dismissed ++ dismissed } := by
  refine .of_quiet ?_ (fun n done => completed_markCompleted.mpr (.inl done)) rfl
  have length : (run.queue.markCompleted completed updatedAt).turns.length =
      run.queue.turns.length := List.length_mapIdx
  have left : ((run.queue.markCompleted completed updatedAt).removeCompletedCodexTurns.1
      ).pendingCodexTurns.Sublist run.queue.pendingCodexTurns := List.dropWhile_sublist _
  refine ⟨fun n listed => ?_, orderly.increasing.sublist left, fun offer made => ?_, orderly.sorted,
    fun head first => ?_, fun n turn found busy => ?_, fun n done => ?_, fun n below absent => ?_⟩
  · exact length ▸ orderly.inside n (left.mem listed)
  · exact ⟨length ▸ (orderly.offers offer made).1,
      fun n listed => (orderly.offers offer made).2 n (left.mem listed)⟩
  · intro done
    have open' := List.head?_dropWhile_not
      (fun turn => decide ((run.queue.markCompleted completed updatedAt).status turn = some .completed))
      run.queue.pendingCodexTurns
    unfold CodexTurnQueue.getCodexHeadTurn CodexTurnQueue.removeCompletedCodexTurns at first
    dsimp only at first
    have same : (run.queue.markCompleted completed updatedAt).pendingCodexTurns =
        run.queue.pendingCodexTurns := rfl
    rw [same] at first
    rw [first] at open'
    have unfinished : ¬ (run.queue.markCompleted completed updatedAt).status head = some .completed :=
      of_decide_eq_false open'
    exact unfinished done
  · have found' : (run.queue.markCompleted completed updatedAt).turns[n]? = some turn := found
    rw [getElem?_markCompleted] at found'
    obtain ⟨before, there, rfl⟩ := Option.map_eq_some_iff.mp found'
    by_cases listed : n ∈ completed
    · rw [if_pos listed] at busy
      have named : before.turnId ≠ none := by
        rcases busy with other | other | named
        · cases other
        · cases other
        · exact named
      exact orderly.underway n before there (.inr (.inr named))
    · rw [if_neg listed] at busy
      exact orderly.underway n before there busy
  · rcases completed_markCompleted.mp done with earlier | ⟨listed, below⟩
    · exact (orderly.settled n earlier).imp_right (List.mem_append_left _)
    · exact (owned n listed below).imp_right (List.mem_append_right _)
  · refine completed_markCompleted.mpr ?_
    by_cases pending : n ∈ run.queue.pendingCodexTurns
    · rw [← List.takeWhile_append_dropWhile (p := fun turn => decide
        ((run.queue.markCompleted completed updatedAt).status turn = some .completed))
        (l := run.queue.pendingCodexTurns)] at pending
      rcases List.mem_append.mp pending with dropped | kept
      · have satisfied := List.mem_takeWhile_imp dropped
        have done : (run.queue.markCompleted completed updatedAt).status n = some .completed :=
          of_decide_eq_true satisfied
        exact completed_markCompleted.mp done
      · exact absurd kept absent
    · exact .inl (orderly.gone n (length ▸ below) pending)

theorem accepted_of_ofProviderTurn {run : TurnRun} (orderly : Orderly run) {turnId : JsString}
    {p : QueuedTurn → Bool} {n : Nat} (listed : n ∈ run.queue.ofProviderTurn turnId p) :
    run.Accepted n := by
  unfold CodexTurnQueue.ofProviderTurn at listed
  obtain ⟨-, matching⟩ := List.mem_filter.mp listed
  obtain ⟨turn, found, names⟩ := (Option.any_eq_true ..).mp matching
  rw [Bool.and_eq_true, decide_eq_true_eq] at names
  refine orderly.underway n turn found (.inr (.inr ?_))
  rw [names.1]
  exact Option.some_ne_none _

theorem Orderly.completeCodexTurn {run : TurnRun} (orderly : Orderly run) (turn : Option Nat)
    (updatedAt : Nat) : Follows run { run with
      queue := (run.queue.completeCodexTurn turn updatedAt).1
      dismissed := run.dismissed ++ turn.toList } := by
  cases turn with
  | none =>
    rw [show run.dismissed ++ (none : Option Nat).toList = run.dismissed from List.append_nil _]
    exact orderly.follows
  | some index =>
    unfold CodexTurnQueue.completeCodexTurn
    dsimp only
    generalize (run.queue.turns[index]?).bind _ = coOwners
    cases coOwners with
    | some turnId =>
      exact orderly.complete updatedAt fun n listed _ =>
        .inl (accepted_of_ofProviderTurn orderly listed)
    | none => exact orderly.complete updatedAt fun n listed _ => .inr listed

theorem Orderly.completeCodexTurnsForResult {run : TurnRun} (orderly : Orderly run)
    (codexTurnId : Option JsString) (updatedAt : Nat) : Follows run { run with
      queue := (run.queue.completeCodexTurnsForResult codexTurnId updatedAt).1
      dismissed := run.dismissed ++
        if (codexTurnId.filter (· ≠ [])).isSome then [] else run.queue.getCodexHeadTurn.toList } := by
  unfold CodexTurnQueue.completeCodexTurnsForResult
  cases codexTurnId.filter (· ≠ []) with
  | none => exact orderly.completeCodexTurn _ updatedAt
  | some turnId =>
    dsimp only
    by_cases unknown : run.queue.ofProviderTurn turnId (fun _ => true) = []
    · rw [if_pos unknown, if_pos Option.isSome_some, List.append_nil]
      exact orderly.follows
    · rw [if_neg unknown, if_pos Option.isSome_some]
      exact orderly.complete updatedAt fun n listed _ =>
        .inl (accepted_of_ofProviderTurn orderly listed)

/-! ## Steps -/

/-- What a dispatch does: nothing but an unblocked head, or an offer of the head. -/
theorem dispatchQueuedCodexTurns_cases (queue : CodexTurnQueue) (adapter : AdapterState)
    (reason : JsString) (now : Nat) :
    (∃ queue' head cancelled, queue.dispatchQueuedCodexTurns adapter reason now =
        (queue', .noop, head, cancelled) ∧
      (queue' = queue ∨ ∃ head, queue.getCodexHeadTurn = some head ∧
        queue' = queue.modify head (·.unblocked now))) ∨
    (∃ head cancelled, queue.getCodexHeadTurn = some head ∧
      queue.dispatchQueuedCodexTurns adapter reason now =
        ((queue.modify head (·.unblocked now)).modify head (·.accepted now), .dispatched, some head,
          cancelled)) ∨
    (∃ head cancelled, queue.getCodexHeadTurn = some head ∧
      queue.dispatchQueuedCodexTurns adapter reason now =
        ((queue.modify head (·.unblocked now)).modify head (·.rejected reason now), .adapterRejected,
          some head, cancelled)) := by
  unfold CodexTurnQueue.dispatchQueuedCodexTurns
  split
  · exact .inl ⟨_, _, _, rfl, .inl rfl⟩
  · split
    · exact .inl ⟨_, _, _, rfl, .inl rfl⟩
    · rename_i head first
      dsimp only
      split
      · exact .inl ⟨_, _, _, rfl, .inr ⟨head, first, rfl⟩⟩
      · exact .inl ⟨_, _, _, rfl, .inr ⟨head, first, rfl⟩⟩
      · exact .inl ⟨_, _, _, rfl, .inr ⟨head, first, rfl⟩⟩
      · split
        · exact .inr (.inl ⟨head, _, first, rfl⟩)
        · exact .inr (.inr ⟨head, _, first, rfl⟩)

theorem steady_unblocked (queue : CodexTurnQueue) (n now : Nat) :
    Steady queue n (·.unblocked now) := by
  intro turn _
  change (turn.unblocked now).status = .completed ↔ _
  unfold QueuedTurn.unblocked
  split
  · rename_i blocked
    simp [blocked]
  · exact Iff.rfl

theorem Orderly.unblocked {run : TurnRun} (orderly : Orderly run) (n now : Nat) :
    Follows run { run with queue := run.queue.modify n (·.unblocked now) } := by
  refine orderly.modify (steady_unblocked _ n now) fun turn _ busy => .inl ?_
  unfold QueuedTurn.unblocked at busy
  split at busy
  · rcases busy with other | other | named
    · cases other
    · cases other
    · exact absurd rfl named
  · exact busy

theorem Orderly.steady_head {run : TurnRun} (orderly : Orderly run) {head : Nat}
    (first : run.queue.getCodexHeadTurn = some head) {f : QueuedTurn → QueuedTurn}
    (unfinished : ∀ turn, (f turn).status ≠ .completed) : Steady run.queue head f := by
  intro turn found
  refine ⟨fun other => absurd other (unfinished turn), fun done => ?_⟩
  refine absurd ?_ (orderly.open' head first)
  unfold CodexTurnQueue.Completed CodexTurnQueue.status
  rw [found, Option.map_some, done]

theorem Orderly.follows_of_step {run run' : TurnRun} {event : CodexTurnEvent}
    (orderly : Orderly run) (taken : run.step event = some run') : Follows run run' := by
  cases event with
  | enqueue turn =>
    unfold TurnRun.step at taken
    dsimp only at taken
    split at taken
    · rename_i queued
      cases taken
      have fresh : turn.status ≠ .completed := by
        rcases queued.1 with status | status <;> simp [status]
      have idle : ¬ turn.Underway := by
        rintro (busy | busy | named)
        · rcases queued.1 with status | status <;> simp [status] at busy
        · rcases queued.1 with status | status <;> simp [status] at busy
        · exact named queued.2
      have queued := orderly.enqueue fresh [] (fun busy => absurd busy idle)
      rwa [List.append_nil] at queued
    · split at taken
      · rename_i steered
        cases taken
        refine orderly.enqueue ?_ _ fun _ => List.mem_singleton_self _
        rw [steered]
        exact fun other => by cases other
      · cases taken
  | dispatch adapter reason now =>
    unfold TurnRun.step at taken
    dsimp only at taken
    rcases dispatchQueuedCodexTurns_cases run.queue adapter reason now with
      ⟨queue, head, cancelled, same, rfl | ⟨head, first, rfl⟩⟩ | ⟨head, cancelled, first, same⟩ |
        ⟨head, cancelled, first, same⟩
    · rw [same] at taken
      dsimp only at taken
      rw [if_pos rfl, List.append_nil] at taken
      cases taken
      exact orderly.follows
    · rw [same] at taken
      dsimp only at taken
      rw [if_pos rfl, List.append_nil] at taken
      cases taken
      exact orderly.unblocked head now
    · rw [same] at taken
      cases taken
      have unblocked := orderly.unblocked head now
      have offered := unblocked.trans (unblocked.orderly.offer first true)
      refine offered.trans (offered.orderly.modify
        (offered.orderly.steady_head first fun turn other => by cases other) ?_)
      exact fun turn _ _ => .inr (.inl (List.mem_append_right _ (List.mem_singleton_self _)))
    · rw [same] at taken
      cases taken
      have unblocked := orderly.unblocked head now
      have offered := unblocked.trans (unblocked.orderly.offer first false)
      refine offered.trans (offered.orderly.modify
        (offered.orderly.steady_head first fun turn other => by cases other) ?_)
      rintro turn _ (other | other | named)
      · cases other
      · cases other
      · exact .inl (.inr (.inr named))
  | acknowledge turnId receiptAwareAdapter now =>
    obtain ⟨head, awaiting, rfl⟩ := Option.map_eq_some_iff.mp taken
    obtain ⟨first, dispatched⟩ := Option.filter_eq_some_iff.mp awaiting
    have dispatched := of_decide_eq_true dispatched
    have started : ∀ turn, (QueuedTurn.started turn turnId receiptAwareAdapter now).status =
        .backendAcknowledged := by
      intro turn
      unfold QueuedTurn.started
      cases receiptAwareAdapter <;> rfl
    refine orderly.modify (orderly.steady_head first fun turn other => ?_) fun turn found _ =>
      .inl (.inl ?_)
    · rw [started] at other
      cases other
    · unfold CodexTurnQueue.status at dispatched
      rw [found] at dispatched
      exact Option.some.inj dispatched
  | complete turn now =>
    cases taken
    exact orderly.completeCodexTurn turn now
  | result codexTurnId now =>
    cases taken
    exact orderly.completeCodexTurnsForResult codexTurnId now
  | breakSession error now =>
    obtain ⟨head, first, rfl⟩ := Option.map_eq_some_iff.mp taken
    refine orderly.modify (orderly.steady_head first fun turn other => by cases other) ?_
    rintro turn _ (other | other | named)
    · cases other
    · cases other
    · exact .inl (.inr (.inr named))
  | stage turn plan =>
    unfold TurnRun.step at taken
    dsimp only at taken
    split at taken
    · rename_i allowed
      cases taken
      refine orderly.modify (fun before found => ⟨fun other => (by cases other), fun done => ?_⟩) ?_
      · refine absurd ?_ allowed.2
        unfold CodexTurnQueue.status
        rw [found, Option.map_some, done]
      · rintro before _ (other | other | named)
        · cases other
        · cases other
        · exact .inl (.inr (.inr named))
    · cases taken
  | observe turn historyIncorporation historyTrackingUnknown =>
    cases taken
    exact orderly.modify (fun _ _ => Iff.rfl) fun _ _ busy => .inl busy

theorem orderly_of_reachable {run : TurnRun} (reached : codexTurns.Reachable run) : Orderly run := by
  refine reached.invariant ?_ ?_
  · refine ⟨fun n listed => ?_, .nil, fun offer made => ?_, .nil, fun head first => ?_,
      fun n turn found => ?_, fun n done => ?_, fun n below => ?_⟩
    · cases listed
    · cases made
    · cases first
    · cases found
    · cases done
    · cases below
  · intro run event run' _ orderly _ taken
    exact (orderly.follows_of_step taken).orderly

/-! ## Runs -/

theorem Follows.of_leads {run run' : TurnRun} (orderly : Orderly run)
    (leads : codexTurns.Leads (fun _ _ => True) run run') : Follows run run' := by
  induction leads with
  | refl => exact orderly.follows
  | tail _ step ih =>
    obtain ⟨event, -, taken⟩ := step
    exact ih.trans (ih.orderly.follows_of_step taken)

theorem Orderly.not_offered {run : TurnRun} (orderly : Orderly run) {n : Nat}
    (behind : n ∈ run.queue.pendingCodexTurns.tail) : ∀ offer ∈ run.offered, offer.1 ≠ n := by
  intro offer made same
  cases pending : run.queue.pendingCodexTurns with
  | nil =>
    rw [pending] at behind
    cases behind
  | cons head tail =>
    rw [pending] at behind
    have increasing := orderly.increasing
    rw [pending, List.pairwise_cons] at increasing
    have early := (orderly.offers offer made).2 head (by rw [pending]; exact List.mem_cons_self)
    have late := increasing.1 n behind
    omega

/-- The adapter works on a turn. -/
def CodexTurnQueue.InFlight (queue : CodexTurnQueue) (turn : Nat) : Prop :=
  queue.status turn = some .dispatched ∨ queue.status turn = some .backendAcknowledged

instance (queue : CodexTurnQueue) (turn : Nat) : Decidable (queue.InFlight turn) :=
  inferInstanceAs (Decidable (_ ∨ _))

instance (run : TurnRun) (turn : Nat) : Decidable (run.Accepted turn) :=
  inferInstanceAs (Decidable (_ ∨ _))

theorem Orderly.steered_of_inFlight {run : TurnRun} (orderly : Orderly run) {n : Nat}
    (behind : n ∈ run.queue.pendingCodexTurns.tail) (busy : run.queue.InFlight n) :
    n ∈ run.steered := by
  unfold CodexTurnQueue.InFlight CodexTurnQueue.status at busy
  cases found : run.queue.turns[n]? with
  | none =>
    rw [found] at busy
    rcases busy with other | other <;> cases other
  | some turn =>
    rw [found, Option.map_some, Option.some.injEq, Option.some.injEq] at busy
    have underway : turn.Underway := by
      rcases busy with dispatched | acknowledged
      · exact .inl dispatched
      · exact .inr (.inl acknowledged)
    rcases orderly.underway n turn found underway with offered | steered
    · exact absurd rfl (orderly.not_offered behind _ offered)
    · exact steered

/-- Turns are offered to the adapter in the order in which they were queued, one at a time; what is
completed is neither at the head nor offered again; and a turn that the adapter never accepted
leaves the queue only on its own account, or if a result that names no turn finds it at the head. -/
theorem codex_turns_in_order {run : TurnRun} (reached : codexTurns.Reachable run) :
    (run.offered.map (·.1)).Pairwise (· ≤ ·) ∧
    (∀ n ∈ run.queue.pendingCodexTurns.tail, (∀ offer ∈ run.offered, offer.1 ≠ n) ∧
      (run.queue.InFlight n → n ∈ run.steered)) ∧
    (∀ head, run.queue.getCodexHeadTurn = some head → ¬ run.queue.Completed head) ∧
    (∀ n, run.queue.Completed n → ∀ run', codexTurns.Leads (fun _ _ => True) run run' →
      run'.queue.Completed n ∧
        run'.offered.filter (·.1 = n) = run.offered.filter (·.1 = n)) ∧
    (∀ n < run.queue.turns.length, n ∉ run.queue.pendingCodexTurns →
      run.Accepted n ∨ n ∈ run.dismissed) := by
  have orderly := orderly_of_reachable reached
  refine ⟨orderly.sorted, fun n behind => ?_, orderly.open', fun n done run' leads => ?_,
    fun n below absent => ?_⟩
  · exact ⟨orderly.not_offered behind, orderly.steered_of_inFlight behind⟩
  · have follows := Follows.of_leads orderly leads
    refine ⟨follows.completed n done, ?_⟩
    obtain ⟨more, grown, fresh⟩ := follows.offered
    have none : more.filter (·.1 = n) = [] := by
      refine List.filter_eq_nil_iff.mpr fun offer made same => ?_
      rw [decide_eq_true_eq] at same
      exact fresh offer made (same ▸ done)
    rw [grown, List.filter_append, none, List.append_nil]
  · exact orderly.settled n (orderly.gone n below absent)

/-- A turn of one input. -/
def inputTurn (status : CodexOutboundTurnStatus) : QueuedTurn where
  adapterMsg := ⟨.codexStartPending, [js "in-1"], none⟩
  userMessageId := js "in-1"
  status

theorem codex_turns_in_order_dispatched : ∃ run : TurnRun, run.offered = [(0, true)] ∧
    (run.offered.map (·.1)).Pairwise (· ≤ ·) ∧
    (∀ head, run.queue.getCodexHeadTurn = some head → ¬ run.queue.Completed head) := by
  obtain ⟨run, reached, offered⟩ := codexTurns.exists_reaches_of_run (fun _ _ => true)
    (fun run => run.offered = [(0, true)])
    [.enqueue (inputTurn .queued), .dispatch ⟨false, true, true, true, true⟩ (js "user") 1] rfl
  have ordered := codex_turns_in_order reached.reachable
  exact ⟨run, offered, ordered.1, ordered.2.2.1⟩

/-- A result that names no turn, or its completion, takes out a turn that was never sent; and a
steered turn is in flight beside the head. -/
theorem unsent_turn_leaves :
    (∃ run, codexTurns.Reachable run ∧ run.queue.turns.length = 1 ∧
      run.queue.pendingCodexTurns = [] ∧ run.offered = [] ∧ ¬ run.Accepted 0 ∧
      ∃ before, codexTurns.Reachable before ∧ before.queue.pendingCodexTurns = [0] ∧
        before.step (.result none 1) = some run) ∧
    (∃ run, codexTurns.Reachable run ∧ run.queue.turns.length = 1 ∧
      run.queue.pendingCodexTurns = [] ∧ run.offered = [] ∧ ¬ run.Accepted 0 ∧
      ∃ before, codexTurns.Reachable before ∧ before.queue.pendingCodexTurns = [0] ∧
        before.step (.complete (some 0) 1) = some run) ∧
    (∃ run, codexTurns.Reachable run ∧ run.queue.pendingCodexTurns = [0, 1] ∧
      run.queue.InFlight 0 ∧ run.queue.InFlight 1) := by
  have queued : codexTurns.Reachable ⟨⟨[inputTurn .queued], [0]⟩, [], [], []⟩ :=
    .step (l := .enqueue (inputTurn .queued)) .start trivial rfl
  refine ⟨⟨_, .step (l := .result none 1) queued trivial rfl, by decide, by decide, rfl, by decide,
    _, queued, rfl, rfl⟩, ⟨_, .step (l := .complete (some 0) 1) queued trivial rfl, by decide,
    by decide, rfl, by decide, _, queued, rfl, rfl⟩, ?_⟩
  obtain ⟨run, reached, busy⟩ := codexTurns.exists_reaches_of_run (fun _ _ => true)
    (fun run => run.queue.pendingCodexTurns = [0, 1] ∧ run.queue.InFlight 0 ∧ run.queue.InFlight 1)
    [.enqueue (inputTurn .queued), .dispatch ⟨false, true, true, true, true⟩ (js "user") 1,
      .acknowledge (js "t") true 2, .enqueue (inputTurn .backendAcknowledged)] rfl
  exact ⟨run, reached.reachable, busy⟩

end Takode.CodexTurns
