import Takode.TurnLifecycle.Lifecycle

/-!
# Turns and their queue

The lists of the queue stay of one length, turns start and end in turn, and queued turns start in the
order in which they were queued.
-/

namespace Takode.TurnLifecycle

/-- Starts and ends alternate, the last of them a start while the session generates. -/
def Alternates : Bool → List LogEntry → Prop
  | false, [] => True
  | generating, .drained _ _ _ :: older => Alternates generating older
  | true, .turnStart _ _ :: older => Alternates false older
  | false, .turnEnd reason :: older =>
    reason ∉ SUPPRESSED_TAKODE_TURN_END_REASONS ∧ Alternates true older
  | false, .silentEnd reason :: older =>
    reason ∈ SUPPRESSED_TAKODE_TURN_END_REASONS ∧ Alternates true older
  | _, _ => False

/-- The queued turns that started, the newest first. -/
def startedTickets (log : List LogEntry) : List Nat :=
  log.filterMap fun
    | .turnStart _ queued => queued
    | _ => none

/-- A queued turn was dropped when a turn ended for a recovery reason, without a recovery. -/
def Dropped (log : List LogEntry) (ticket : Nat) : Prop :=
  ∃ tickets reason, .drained tickets reason false ∈ log ∧ ticket ∈ tickets ∧
    reason ∈ RECOVERY_REASONS

/-- The lists of the queue have one length. -/
structure Aligned (starts : Nat) (reasons : List JsString) (userMessageIds : List (List Nat))
    (interruptSources : List (Option InterruptSource))
    (activeRoutes : Option (List (Option ActiveTurnRoute))) (tickets : List Nat) : Prop where
  reasons : reasons.length = starts
  userMessageIds : userMessageIds.length = starts
  interruptSources : interruptSources.length = starts
  activeRoutes : (activeRoutes.getD []).length = starts
  tickets : tickets.length = starts

/-- A tracked message is in one turn. -/
structure Apart (tracked thisTurn : List Nat) (queued : List (List Nat)) : Prop where
  distinct : (thisTurn ++ queued.flatten).Nodup
  among : ∀ index ∈ thisTurn ++ queued.flatten, index ∈ tracked

/-- Queued turns start in the order of their tickets, and leave the queue otherwise only when it is
dropped. -/
structure Orderly (queued : List Nat) (next : Nat) (log : List LogEntry) : Prop where
  ordered : ((startedTickets log).reverse ++ queued).Pairwise (· < ·)
  numbered : ∀ ticket ∈ (startedTickets log).reverse ++ queued, ticket < next
  kept : ∀ ticket < next, ticket ∈ queued ∨ ticket ∈ startedTickets log ∨ Dropped log ticket

structure Sound (tracked : List Nat) (s : Session) : Prop where
  aligned : Aligned s.queuedTurnStarts s.queuedTurnReasons s.queuedTurnUserMessageIds
    s.queuedTurnInterruptSources s.queuedTurnActiveRoutes s.queuedTickets
  started : s.generationStartedAt.isSome = s.isGenerating
  apart : Apart tracked s.userMessageIdsThisTurn s.queuedTurnUserMessageIds
  alternates : Alternates s.isGenerating s.log
  orderly : Orderly s.queuedTickets s.nextTicket s.log

section Queue

variable {s : Session} {tracked : List Nat} {deps : Deps}

theorem map_range_getD {α : Type} {list : List α} {n : Nat} (default : α) (length : list.length = n) :
    (List.range n).map (fun i => list[i]?.getD default) = list := by
  subst length
  apply List.ext_getElem
  · simp
  · intro i bound bound'
    simp [bound']

/-- The entries of the queue, list by list. -/
theorem Sound.entries (sound : Sound tracked s) :
    s.getQueuedTurnLifecycleEntries.length = s.queuedTurnStarts ∧
      s.getQueuedTurnLifecycleEntries.map (·.userMessageIds) = s.queuedTurnUserMessageIds ∧
      s.getQueuedTurnLifecycleEntries.map (·.ticket) = s.queuedTickets := by
  obtain ⟨reasons, userMessageIds, interruptSources, activeRoutes, tickets⟩ := sound.aligned
  have count : max (max s.queuedTurnStarts s.queuedTurnReasons.length)
      (max (max s.queuedTurnUserMessageIds.length s.queuedTurnInterruptSources.length)
        ((s.queuedTurnActiveRoutes.map (·.length)).getD 0)) = s.queuedTurnStarts := by
    have routes : (s.queuedTurnActiveRoutes.map (·.length)).getD 0 = s.queuedTurnStarts := by
      rw [← activeRoutes]
      cases s.queuedTurnActiveRoutes <;> rfl
    rw [routes, reasons, userMessageIds, interruptSources]
    simp
  unfold Session.getQueuedTurnLifecycleEntries
  simp only [count, List.length_map, List.length_range, List.map_map, Function.comp_def]
  exact ⟨trivial, map_range_getD _ userMessageIds, map_range_getD _ tickets⟩

theorem replaced_aligned (entries : List QueuedTurnLifecycleEntry) :
    Aligned entries.length (entries.map (·.reason)) (entries.map (·.userMessageIds))
      (entries.map (·.interruptSource)) (some (entries.map (·.activeTurnRoute)))
      (entries.map (·.ticket)) :=
  ⟨List.length_map _, List.length_map _, List.length_map _, List.length_map _, List.length_map _⟩

theorem alternates_drained {generating : Bool} {tickets : List Nat} {reason : JsString}
    {recovered : Bool} {log : List LogEntry} :
    Alternates generating (.drained tickets reason recovered :: log) ↔ Alternates generating log := by
  cases generating <;> exact Iff.rfl

theorem Dropped.mono {log : List LogEntry} {ticket : Nat} (dropped : Dropped log ticket)
    (entry : LogEntry) : Dropped (entry :: log) ticket := by
  obtain ⟨tickets, reason, inside, there⟩ := dropped
  exact ⟨tickets, reason, List.mem_cons_of_mem _ inside, there⟩

/-- An entry of the log that starts no queued turn. -/
theorem Orderly.cons {queued : List Nat} {next : Nat} {log : List LogEntry}
    (orderly : Orderly queued next log) {entry : LogEntry}
    (plain : startedTickets (entry :: log) = startedTickets log) :
    Orderly queued next (entry :: log) := by
  refine ⟨plain ▸ orderly.ordered, plain ▸ orderly.numbered, fun ticket below => ?_⟩
  rw [plain]
  exact (orderly.kept ticket below).imp_right (·.imp_right (·.mono entry))

/-- The queue is dropped, for a recovery reason and without a recovery. -/
theorem Sound.drain (sound : Sound tracked s) {reason : JsString}
    (recovery : reason ∈ RECOVERY_REASONS) : Sound tracked (s.drain reason false) where
  aligned := replaced_aligned []
  started := sound.started
  apart := by
    obtain ⟨distinct, among⟩ := sound.apart
    refine ⟨?_, fun index inside => ?_⟩
    · show (s.userMessageIdsThisTurn ++ []).Nodup
      rw [List.append_nil]
      exact distinct.of_append_left
    · have inside : index ∈ s.userMessageIdsThisTurn ++ [] := inside
      rw [List.append_nil] at inside
      exact among index (List.mem_append_left _ inside)
  alternates := by
    show Alternates s.isGenerating (.drained _ _ _ :: s.log)
    rw [alternates_drained]
    exact sound.alternates
  orderly := by
    obtain ⟨ordered, numbered, kept⟩ := sound.orderly
    refine ⟨?_, fun ticket inside => ?_, fun ticket below => ?_⟩
    · show ((startedTickets s.log).reverse ++ []).Pairwise _
      rw [List.append_nil]
      exact ordered.sublist (List.sublist_append_left _ _)
    · have inside : ticket ∈ (startedTickets s.log).reverse ++ [] := inside
      rw [List.append_nil] at inside
      exact numbered ticket (List.mem_append_left _ inside)
    · rcases kept ticket below with queued | left
      · exact .inr (.inr ⟨_, reason, List.mem_cons_self, queued, recovery⟩)
      · exact .inr (left.imp_right (·.mono _))

theorem Sound.endTurn (sound : Sound tracked s) (generating : s.isGenerating = true)
    (reason : JsString) : Sound tracked (s.endTurn reason) where
  aligned := sound.aligned
  started := rfl
  apart := sound.apart
  alternates := by
    have before : Alternates true s.log := generating ▸ sound.alternates
    show Alternates false ((if SUPPRESSED_TAKODE_TURN_END_REASONS.contains reason then
      LogEntry.silentEnd reason else .turnEnd reason) :: s.log)
    split
    · rename_i silent
      exact ⟨by simpa using silent, before⟩
    · rename_i told
      exact ⟨by simpa using told, before⟩
  orderly := by
    refine sound.orderly.cons ?_
    split <;> rfl

theorem Sound.startTurn (sound : Sound tracked s) (idle : s.isGenerating = false)
    (reason : JsString) (route : Option ActiveTurnRoute) :
    Sound tracked (s.startTurn deps reason none [] route) where
  aligned := sound.aligned
  started := rfl
  apart := by
    obtain ⟨distinct, among⟩ := sound.apart
    exact ⟨distinct.of_append_right, fun index inside => among index (List.mem_append_right _ inside)⟩
  alternates := by
    show Alternates false s.log
    exact idle ▸ sound.alternates
  orderly := sound.orderly.cons rfl

theorem Sound.promoteNextQueuedTurn (sound : Sound tracked s) (idle : s.isGenerating = false)
    (suffix : JsString) : Sound tracked (s.promoteNextQueuedTurn deps suffix) := by
  obtain ⟨-, userMessageIds, tickets⟩ := sound.entries
  unfold Session.promoteNextQueuedTurn
  split
  · exact sound
  · rename_i entry entries listed
    rw [listed, List.map_cons] at userMessageIds tickets
    have started : Sound tracked ((s.replaceQueuedTurnLifecycleEntries entries).startTurn deps
        (entry.reason ++ js ":" ++ suffix) (some entry.ticket) entry.userMessageIds
        entry.activeTurnRoute) := by
      refine ⟨replaced_aligned entries, rfl, ?_, ?_, ?_⟩
      · obtain ⟨distinct, among⟩ := sound.apart
        rw [← userMessageIds, List.flatten_cons] at distinct among
        exact ⟨distinct.of_append_right,
          fun index inside => among index (List.mem_append_right _ inside)⟩
      · show Alternates false s.log
        exact idle ▸ sound.alternates
      · obtain ⟨ordered, numbered, kept⟩ := sound.orderly
        rw [← tickets] at ordered numbered kept
        have more : (startedTickets (.turnStart (entry.reason ++ js ":" ++ suffix)
            (some entry.ticket) :: s.log)).reverse ++ entries.map (·.ticket) =
              (startedTickets s.log).reverse ++ entry.ticket :: entries.map (·.ticket) := by
          show (entry.ticket :: startedTickets s.log).reverse ++ _ = _
          rw [List.reverse_cons, List.append_assoc]
          rfl
        refine ⟨more ▸ ordered, more ▸ numbered, fun ticket below => ?_⟩
        rcases kept ticket below with queued | old | dropped
        · rcases List.mem_cons.mp queued with rfl | queued
          · exact .inr (.inl List.mem_cons_self)
          · exact .inl queued
        · exact .inr (.inl (List.mem_cons_of_mem _ old))
        · exact .inr (.inr (dropped.mono _))
    unfold Session.startQueuedTurn
    simp only
    split
    · exact started
    · exact ⟨started.aligned, started.started, started.apart, started.alternates, started.orderly⟩

theorem Sound.setGenerating (sound : Sound tracked s) (generating : Bool) (reason : JsString) :
    Sound tracked (s.setGenerating deps generating reason) := by
  unfold Session.setGenerating
  split
  · exact sound
  · rename_i other
    split
    · rename_i starts
      rw [starts] at other
      exact sound.startTurn (by simpa using other) reason none
    · rename_i ends
      have running : s.isGenerating = true := by
        cases running : s.isGenerating with
        | true => rfl
        | false =>
          cases generating with
          | true => exact absurd rfl ends
          | false => exact absurd running other
      have ended := sound.endTurn running reason
      simp only
      split
      · exact ended.promoteNextQueuedTurn rfl _
      · split
        · rename_i recovery
          split
          · exact ended.drain (by simpa using recovery)
          · exact ended
        · exact ended

theorem Sound.markTurnInterrupted (sound : Sound tracked s) (source : InterruptSource) :
    Sound tracked (s.markTurnInterrupted source) := by
  unfold Session.markTurnInterrupted
  split
  · exact sound
  · exact ⟨sound.aligned, sound.started, sound.apart, sound.alternates, sound.orderly⟩

/-- The queue after the response timeout is empty, unless the recovery callback kept it. -/
theorem entries_of_timeout (sound : Sound tracked s) (running : s.isGenerating = true)
    (gives : deps.recovers = false ∨ s.queuedTurnStarts = 0) :
    (s.setGenerating deps false (js "user_message_timeout")).getQueuedTurnLifecycleEntries.length =
      0 := by
  have notResult : js "user_message_timeout" ≠ js "result" := by decide
  have recovery : RECOVERY_REASONS.contains (js "user_message_timeout") = true := by decide
  have ended := (sound.endTurn running (js "user_message_timeout")).entries.1
  unfold Session.setGenerating
  rw [running, if_neg (by decide), if_neg (by decide)]
  simp only
  rw [if_neg notResult, if_pos recovery]
  split
  · rfl
  · rename_i none_dropped
    rcases gives with no | empty
    · rw [no, Bool.not_false, Bool.and_true, decide_eq_true_eq, not_lt, Nat.le_zero] at none_dropped
      exact none_dropped
    · exact ended.trans empty

theorem Sound.responseTimeout (sound : Sound tracked s) (timer : Nat)
    (gives : s.optimisticRunningTimer = some timer → s.isGenerating = true →
      0 < s.queuedTurnStarts → deps.recovers = false) :
    Sound tracked (s.responseTimeout deps timer) := by
  unfold Session.responseTimeout
  split
  · exact sound
  · rename_i current
    have cleared : Sound tracked { s with optimisticRunningTimer := none } :=
      ⟨sound.aligned, sound.started, sound.apart, sound.alternates, sound.orderly⟩
    simp only
    split
    · exact cleared
    · rename_i running
      have running : s.isGenerating = true := by simpa using running
      have marked := cleared.markTurnInterrupted .system
      have still : (Session.markTurnInterrupted { s with optimisticRunningTimer := none }
          .system).isGenerating = true := by
        unfold Session.markTurnInterrupted
        split <;> exact running
      have starts : (Session.markTurnInterrupted { s with optimisticRunningTimer := none }
          .system).queuedTurnStarts = s.queuedTurnStarts := by
        unfold Session.markTurnInterrupted
        split <;> rfl
      rw [entries_of_timeout marked still, if_neg (lt_irrefl 0)]
      · exact marked.setGenerating false _
      · rw [starts]
        rcases Nat.eq_zero_or_pos s.queuedTurnStarts with empty | some'
        · exact .inr empty
        · exact .inl (gives (not_not.mp current) running some')

/-- A history index that was not passed in before goes to a turn. -/
theorem Apart.track {thisTurn : List Nat} {queued : List (List Nat)} {thisTurn' : List Nat}
    {queued' : List (List Nat)} (apart : Apart tracked thisTurn queued) {indices : List Nat}
    (fresh : ∀ index ∈ indices, index ∉ tracked) (distinct : indices.Nodup)
    (perm : (thisTurn' ++ queued'.flatten).Perm (indices ++ (thisTurn ++ queued.flatten))) :
    Apart (tracked ++ indices) thisTurn' queued' := by
  refine ⟨perm.nodup_iff.mpr (List.nodup_append.mpr ⟨distinct, apart.distinct, ?_⟩), ?_⟩
  · rintro index inside other there rfl
    exact fresh index inside (apart.among index there)
  · intro index inside
    rcases List.mem_append.mp (perm.mem_iff.mp inside) with new | old
    · exact List.mem_append_right _ new
    · exact List.mem_append_left _ (apart.among index old)

theorem flatten_modify_last (queued : List (List Nat)) (index : Nat) (filled : queued ≠ []) :
    (queued.modify (queued.length - 1) (· ++ [index])).flatten = queued.flatten ++ [index] := by
  induction queued with
  | nil => exact absurd rfl filled
  | cons first queued ih =>
    cases queued with
    | nil => simp [List.modify]
    | cons second queued =>
      have rest := ih (List.cons_ne_nil _ _)
      rw [List.length_cons, Nat.add_sub_cancel, List.length_cons, List.modify_succ_cons,
        List.flatten_cons]
      rw [List.length_cons, Nat.add_sub_cancel] at rest
      rw [rest, List.flatten_cons (l := first), List.append_assoc]

theorem Sound.markRunningFromUserDispatch (sound : Sound tracked s) (reason : JsString)
    (source : Option InterruptSource) (index : Option Nat) (route : Option ActiveTurnRoute)
    (fresh : ∀ i ∈ index.toList, i ∉ tracked) :
    Sound (tracked ++ index.toList)
      (s.markRunningFromUserDispatch deps reason source index route).1 := by
  have distinct : index.toList.Nodup := by cases index <;> simp
  have waiting : Sound tracked
      (if deps.isHerdedWorker then s else s.restartOptimisticRunningTimer deps) := by
    split
    · exact sound
    · exact ⟨sound.aligned, sound.started, sound.apart, sound.alternates, sound.orderly⟩
  have same : (if deps.isHerdedWorker then s else
      s.restartOptimisticRunningTimer deps).isGenerating = s.isGenerating := by
    split <;> rfl
  unfold Session.markRunningFromUserDispatch
  simp only
  generalize (if deps.isHerdedWorker then s else s.restartOptimisticRunningTimer deps) = t at *
  rw [← same]
  split
  · obtain ⟨reasons, userMessageIds, interruptSources, activeRoutes, tickets⟩ := waiting.aligned
    obtain ⟨ordered, numbered, kept⟩ := waiting.orderly
    refine ⟨⟨?_, ?_, ?_, ?_, ?_⟩, waiting.started, waiting.apart.track fresh distinct ?_,
      waiting.alternates, ⟨?_, fun ticket inside => ?_, fun ticket below => ?_⟩⟩
    · rw [List.length_append, reasons, List.length_singleton]
    · rw [List.length_append, userMessageIds, List.length_singleton]
    · rw [List.length_append, interruptSources, List.length_singleton]
    · simp [activeRoutes]
    · rw [List.length_append, tickets, List.length_singleton]
    · rw [List.flatten_append, List.flatten_singleton, ← List.append_assoc]
      exact List.perm_append_comm
    · rw [← List.append_assoc, List.pairwise_append]
      refine ⟨ordered, List.pairwise_singleton _ _, fun ticket inside other last => ?_⟩
      rw [List.mem_singleton.mp last]
      exact numbered ticket inside
    · rw [← List.append_assoc] at inside
      rcases List.mem_append.mp inside with old | last
      · exact (numbered ticket old).trans (Nat.lt_succ_self _)
      · rw [List.mem_singleton.mp last]
        exact Nat.lt_succ_self _
    · rcases Nat.lt_succ_iff_lt_or_eq.mp below with old | rfl
      · exact (kept ticket old).imp_left (List.mem_append_left _)
      · exact .inl (List.mem_append_right _ (List.mem_singleton_self _))
  · rename_i idle
    have idle : t.isGenerating = false := by simpa using idle
    have started : Sound tracked (t.startTurn deps reason none [] none) :=
      waiting.startTurn idle reason none
    have set : t.setGenerating deps true reason = t.startTurn deps reason none [] none := by
      unfold Session.setGenerating
      rw [idle, if_neg (by decide), if_pos rfl]
    rw [set]
    cases index with
    | none =>
      have all : tracked ++ (none : Option Nat).toList = tracked := List.append_nil _
      rw [all]
      exact ⟨started.aligned, started.started, started.apart, started.alternates, started.orderly⟩
    | some i =>
      exact ⟨started.aligned, started.started,
        started.apart.track fresh distinct (List.Perm.refl _), started.alternates, started.orderly⟩

theorem Sound.trackUserMessageForTurn (sound : Sound tracked s) (index : Nat)
    (target : UserDispatchTurnTarget) (fresh : index ∉ tracked) :
    Sound (tracked ++ [index]) (s.trackUserMessageForTurn index target) := by
  have fresh : ∀ i ∈ [index], i ∉ tracked := by simpa using fresh
  unfold Session.trackUserMessageForTurn
  split
  · rename_i queued
    simp only [Bool.and_eq_true, decide_eq_true_eq] at queued
    have filled : s.queuedTurnUserMessageIds ≠ [] := List.ne_nil_of_length_pos queued.2
    refine ⟨⟨sound.aligned.reasons, ?_, sound.aligned.interruptSources, sound.aligned.activeRoutes,
      sound.aligned.tickets⟩, sound.started, sound.apart.track fresh (List.nodup_singleton _) ?_,
      sound.alternates, sound.orderly⟩
    · rw [List.length_modify]
      exact sound.aligned.userMessageIds
    · show (s.userMessageIdsThisTurn ++ (s.queuedTurnUserMessageIds.modify _ _).flatten).Perm _
      rw [flatten_modify_last _ _ filled, ← List.append_assoc]
      exact List.perm_append_comm
  · refine ⟨sound.aligned, sound.started, sound.apart.track fresh (List.nodup_singleton _) ?_,
      sound.alternates, sound.orderly⟩
    show ((s.userMessageIdsThisTurn ++ [index]) ++ _).Perm _
    rw [← List.append_assoc]
    exact List.perm_append_comm.append_right _

theorem Sound.reconcileTerminalResultState (sound : Sound tracked s) (reason : JsString) :
    Sound tracked (s.reconcileTerminalResultState deps reason) := by
  have cleared : Sound tracked s.clearOptimisticRunningTimer :=
    ⟨sound.aligned, sound.started, sound.apart, sound.alternates, sound.orderly⟩
  unfold Session.reconcileTerminalResultState
  simp only
  split
  · exact cleared.setGenerating false reason
  · rename_i idle
    split
    · exact cleared
    · have idle : s.isGenerating = false := eq_false_of_ne_true idle
      refine ⟨sound.aligned, ?_, ⟨sound.apart.distinct.of_append_right, fun index inside =>
        sound.apart.among index (List.mem_append_right _ inside)⟩, sound.alternates, sound.orderly⟩
      show false = s.isGenerating
      exact idle.symm

end Queue

/-- The response timer of a running turn does not fire while turns are queued, if the recovery callback
then reports a recovery. -/
def admits (s : State) : Event → Bool
  | .responseTimeout deps timer =>
    !(s.session.optimisticRunningTimer = some timer && s.session.isGenerating &&
      0 < s.session.queuedTurnStarts && deps.recovers)
  | _ => true

theorem Sound.step {s t : State} (sound : Sound s.tracked s.session) {event : Event}
    (admitted : admits s event = true) (taken : s.step event = some t) :
    Sound t.tracked t.session := by
  cases event with
  | markRunning deps reason source index route =>
    rw [State.step] at taken
    split at taken
    · cases taken
    · rename_i fresh
      cases taken
      refine sound.markRunningFromUserDispatch reason source index route fun i inside known => ?_
      rw [Option.mem_toList] at inside
      rw [inside] at fresh
      exact fresh (by simpa using known)
  | trackUserMessage index target =>
    rw [State.step] at taken
    split at taken
    · cases taken
    · rename_i fresh
      cases taken
      exact sound.trackUserMessageForTurn index target (by simpa using fresh)
  | markInterrupted source =>
    cases taken
    exact sound.markTurnInterrupted source
  | setGenerating deps generating reason =>
    cases taken
    exact sound.setGenerating generating reason
  | reconcile deps reason =>
    cases taken
    exact sound.reconcileTerminalResultState reason
  | promote deps suffix =>
    rw [State.step] at taken
    split at taken
    · cases taken
    · rename_i idle
      cases taken
      exact sound.promoteNextQueuedTurn (by simpa using idle) suffix
  | responseTimeout deps timer =>
    cases taken
    refine sound.responseTimeout timer fun current running some' => ?_
    simpa [admits, current, running, some'] using admitted

/-- In every run in which no such timer fires, turns and their queue are in order. -/
theorem turn_lifecycle_sound (s : State)
    (reached : lifecycle.Reaches (fun s event => admits s event = true) s) :
    Sound s.tracked s.session := by
  induction reached with
  | start =>
    exact ⟨⟨rfl, rfl, rfl, rfl, rfl⟩, rfl, ⟨List.nodup_nil, nofun⟩, trivial,
      ⟨List.Pairwise.nil, nofun, nofun⟩⟩
  | step _ admitted taken sound => exact sound.step admitted taken

section Runs

def depsAt (now timer : Nat) (recovers : Bool) : Deps := ⟨now, timer, false, recovers⟩

/-- Two turns are queued behind a turn. The first one starts at its result, is interrupted and ends,
and then the second one starts and its response timer fires. -/
def plainRun : List Event :=
  [.markRunning (depsAt 1 1 false) (js "user_message") none (some 4) none,
    .markRunning (depsAt 2 2 false) (js "user_message") none (some 6) none, .trackUserMessage 5 .current,
    .markRunning (depsAt 3 3 false) (js "user_message") none none none, .trackUserMessage 8 .queued,
    .setGenerating (depsAt 4 4 false) false (js "result"), .markInterrupted .user,
    .reconcile (depsAt 5 5 false) (js "interrupted"), .promote (depsAt 6 6 false) (js "queued"),
    .responseTimeout (depsAt 7 7 true) 6]

theorem plain_turns_sound : ∃ s,
    lifecycle.Reaches (fun s event => admits s event = true) s ∧ Sound s.tracked s.session ∧
      startedTickets s.session.log = [1, 0] ∧ s.session.queuedTickets = [] ∧
      s.session.userMessageIdsThisTurn = [8] := by
  obtain ⟨s, reached, started⟩ := lifecycle.exists_reaches_of_run admits
    (fun s => startedTickets s.session.log = [1, 0] ∧ s.session.queuedTickets = [] ∧
      s.session.userMessageIdsThisTurn = [8]) plainRun (by decide +kernel)
  exact ⟨s, reached, turn_lifecycle_sound s reached, started⟩

/-- The response timer fires while a turn is queued, and the recovery callback reports a recovery. -/
def recoveredRun : List Event :=
  [.markRunning (depsAt 1 1 false) (js "user_message") none none none,
    .markRunning (depsAt 2 2 false) (js "user_message") none none none,
    .responseTimeout (depsAt 3 3 true) 2]

theorem recovered_turn_dropped : ∃ s, lifecycle.Reachable s ∧ s.session.nextTicket = 1 ∧
    0 ∉ s.session.queuedTickets ∧ 0 ∉ startedTickets s.session.log ∧ ¬ Dropped s.session.log 0 := by
  obtain ⟨s, reached, next, queued, log⟩ := lifecycle.exists_reaches_of_run (fun _ _ => true)
    (fun s => s.session.nextTicket = 1 ∧ s.session.queuedTickets = [] ∧ s.session.log =
      [.drained [0] (js "user_message_timeout") true, .turnEnd (js "user_message_timeout"),
        .turnStart (js "user_message") none]) recoveredRun (by decide +kernel)
  refine ⟨s, reached.reachable, next, by simp [queued], by simp [log, startedTickets], ?_⟩
  rintro ⟨tickets, reason, inside, -⟩
  simp [log] at inside

end Runs

end Takode.TurnLifecycle
