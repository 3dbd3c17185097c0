import Mathlib.Data.List.Nodup
import Takode.Lib.JsString
import Takode.Lib.Machine

/-!
# The turn lifecycle of a session

`generation-lifecycle.ts`, for one session. The callbacks leave the lifecycle fields alone. The log,
the newest entry first, tells which turns started and ended and when the queue was dropped; tickets
number the queued turns in the order in which they were queued.
-/

namespace Takode.TurnLifecycle

def RECOVERY_REASONS : List JsString :=
  [js "stuck_auto_recovery", js "restart_prep_codex_fallback", js "system_init_reset",
    js "cli_disconnect", js "user_message_timeout", js "interrupt_without_backend_turn"]

def SUPPRESSED_TAKODE_TURN_END_REASONS : List JsString :=
  [js "codex_retry_pending_turn_restart", js "codex_provider_result_retry",
    js "codex_steer_no_active_turn", js "codex_init_error", js "codex_recovery_suppressed",
    js "codex_interrupted_turn_continuation"]

inductive InterruptSource
  | user
  | leader
  | system
deriving DecidableEq

structure ActiveTurnRoute where
  threadKey : JsString
  questId : Option JsString
deriving DecidableEq

structure ProvisionalStuckRecovery where
  turnId : JsString
  notifiedAt : Nat
  terminalAfter : Nat
deriving DecidableEq

structure QueuedTurnLifecycleEntry where
  reason : JsString
  userMessageIds : List Nat
  interruptSource : Option InterruptSource
  activeTurnRoute : Option ActiveTurnRoute
  ticket : Nat

/-- What happened. The events are those of `emitTakodeEvent`. -/
inductive LogEntry
  | turnStart (reason : JsString) (queued : Option Nat)
  | turnEnd (reason : JsString)
  /-- A turn ended without an event. -/
  | silentEnd (reason : JsString)
  /-- The queue was dropped when a turn ended, and whether the recovery callback reported a recovery. -/
  | drained (tickets : List Nat) (reason : JsString) (recovered : Bool)
deriving DecidableEq

structure Session where
  isGenerating : Bool
  generationStartedAt : Option Nat
  stuckNotifiedAt : Option Nat
  interruptedDuringTurn : Bool
  interruptSourceDuringTurn : Option InterruptSource
  compactedDuringTurn : Bool
  provisionalStuckRecovery : Option ProvisionalStuckRecovery
  userMessageIdsThisTurn : List Nat
  activeTurnRoute : Option ActiveTurnRoute
  queuedTurnStarts : Nat
  queuedTurnReasons : List JsString
  queuedTurnUserMessageIds : List (List Nat)
  queuedTurnInterruptSources : List (Option InterruptSource)
  queuedTurnActiveRoutes : Option (List (Option ActiveTurnRoute))
  optimisticRunningTimer : Option Nat
  /-- The tickets of the queued turns, and the next one. -/
  queuedTickets : List Nat
  nextTicket : Nat
  log : List LogEntry

/-- What the clock, `setTimeout` and the callbacks give in a call. -/
structure Deps where
  now : Nat
  timer : Nat
  isHerdedWorker : Bool
  /-- What `recoverPendingCodexTurnBeforeQueueDrain` answers. -/
  recovers : Bool

inductive UserDispatchTurnTarget
  | current
  | queued
deriving DecidableEq

def interruptSourcePriority : Option InterruptSource → Nat
  | some .user | some .leader => 2
  | some .system => 1
  | none => 0

namespace Session

variable (session : Session)

def markTurnInterrupted (source : InterruptSource) : Session :=
  if !session.isGenerating then session
  else
    { session with
      interruptedDuringTurn := true
      interruptSourceDuringTurn :=
        if interruptSourcePriority session.interruptSourceDuringTurn <
            interruptSourcePriority (some source) then some source
        else session.interruptSourceDuringTurn }

def clearOptimisticRunningTimer : Session := { session with optimisticRunningTimer := none }

def restartOptimisticRunningTimer (deps : Deps) : Session :=
  { session with optimisticRunningTimer := some deps.timer }

def getQueuedTurnLifecycleEntries : List QueuedTurnLifecycleEntry :=
  let count := max (max session.queuedTurnStarts session.queuedTurnReasons.length)
    (max (max session.queuedTurnUserMessageIds.length session.queuedTurnInterruptSources.length)
      ((session.queuedTurnActiveRoutes.map (·.length)).getD 0))
  (List.range count).map fun idx =>
    { reason := session.queuedTurnReasons[idx]?.getD (js "queued_user_message")
      userMessageIds := session.queuedTurnUserMessageIds[idx]?.getD []
      interruptSource := session.queuedTurnInterruptSources[idx]?.getD none
      activeTurnRoute := (session.queuedTurnActiveRoutes.bind (·[idx]?)).getD none
      ticket := session.queuedTickets[idx]?.getD 0 }

def replaceQueuedTurnLifecycleEntries (entries : List QueuedTurnLifecycleEntry) : Session :=
  { session with
    queuedTurnStarts := entries.length
    queuedTurnReasons := entries.map (·.reason)
    queuedTurnUserMessageIds := entries.map (·.userMessageIds)
    queuedTurnInterruptSources := entries.map (·.interruptSource)
    queuedTurnActiveRoutes := some (entries.map (·.activeTurnRoute))
    queuedTickets := entries.map (·.ticket) }

/-- The queue is replaced by an empty one. -/
def drain (reason : JsString) (recovered : Bool) : Session :=
  { session.replaceQueuedTurnLifecycleEntries [] with
    log := .drained session.queuedTickets reason recovered :: session.log }

/-- What `startQueuedTurn` and `setGenerating` set alike for a new turn. -/
def startTurn (deps : Deps) (reason : JsString) (queued : Option Nat) (userMessageIds : List Nat)
    (route : Option ActiveTurnRoute) : Session :=
  { session with
    isGenerating := true
    generationStartedAt := some deps.now
    stuckNotifiedAt := none
    interruptedDuringTurn := false
    interruptSourceDuringTurn := none
    compactedDuringTurn := false
    provisionalStuckRecovery := none
    userMessageIdsThisTurn := userMessageIds
    activeTurnRoute := route
    log := .turnStart reason queued :: session.log }

def startQueuedTurn (deps : Deps) (entry : QueuedTurnLifecycleEntry) (suffix : JsString) : Session :=
  let started := session.startTurn deps (entry.reason ++ js ":" ++ suffix) (some entry.ticket)
    entry.userMessageIds entry.activeTurnRoute
  if deps.isHerdedWorker then started else started.restartOptimisticRunningTimer deps

def promoteNextQueuedTurn (deps : Deps) (suffix : JsString) : Session :=
  match session.getQueuedTurnLifecycleEntries with
  | [] => session
  | nextEntry :: entries =>
    (session.replaceQueuedTurnLifecycleEntries entries).startQueuedTurn deps nextEntry suffix

/-- The end of a turn, without what becomes of the queue. -/
def endTurn (reason : JsString) : Session :=
  { session.clearOptimisticRunningTimer with
    isGenerating := false
    generationStartedAt := none
    stuckNotifiedAt := none
    interruptedDuringTurn := false
    interruptSourceDuringTurn := none
    compactedDuringTurn := false
    provisionalStuckRecovery := none
    activeTurnRoute := none
    log := (if SUPPRESSED_TAKODE_TURN_END_REASONS.contains reason then .silentEnd reason
      else .turnEnd reason) :: session.log }

def setGenerating (deps : Deps) (generating : Bool) (reason : JsString) : Session :=
  if session.isGenerating = generating then session
  else if generating then session.startTurn deps reason none [] none
  else
    let ended := session.endTurn reason
    if reason = js "result" then ended.promoteNextQueuedTurn deps (js "queued")
    else if RECOVERY_REASONS.contains reason then
      if 0 < ended.getQueuedTurnLifecycleEntries.length && !deps.recovers then
        ended.drain reason false
      else ended
    else ended

/-- The callback of the timer. -/
def responseTimeout (deps : Deps) (timer : Nat) : Session :=
  if session.optimisticRunningTimer ≠ some timer then session
  else
    let cleared := { session with optimisticRunningTimer := none }
    if !cleared.isGenerating then cleared
    else
      let ended := (cleared.markTurnInterrupted .system).setGenerating deps false
        (js "user_message_timeout")
      if 0 < ended.getQueuedTurnLifecycleEntries.length then
        ended.drain (js "user_message_timeout") deps.recovers
      else ended

def markRunningFromUserDispatch (deps : Deps) (reason : JsString)
    (queuedInterruptSource : Option InterruptSource) (userMessageHistoryIndex : Option Nat)
    (activeTurnRoute : Option ActiveTurnRoute) : Session × UserDispatchTurnTarget :=
  let wasGenerating := session.isGenerating
  let session := if deps.isHerdedWorker then session else session.restartOptimisticRunningTimer deps
  if wasGenerating then
    let routes := session.queuedTurnActiveRoutes.getD []
    let routes := routes ++ List.replicate (session.queuedTurnStarts - routes.length) none
    ({ session with
      queuedTurnStarts := session.queuedTurnStarts + 1
      queuedTurnReasons := session.queuedTurnReasons ++ [reason]
      queuedTurnUserMessageIds :=
        session.queuedTurnUserMessageIds ++ [userMessageHistoryIndex.toList]
      queuedTurnInterruptSources := session.queuedTurnInterruptSources ++ [queuedInterruptSource]
      queuedTurnActiveRoutes := some (routes ++ [activeTurnRoute])
      queuedTickets := session.queuedTickets ++ [session.nextTicket]
      nextTicket := session.nextTicket + 1 }, .queued)
  else
    let started := session.setGenerating deps true reason
    let started := match userMessageHistoryIndex with
      | some index => { started with userMessageIdsThisTurn := [index] }
      | none => started
    ({ started with activeTurnRoute }, .current)

def trackUserMessageForTurn (historyIndex : Nat) (target : UserDispatchTurnTarget) : Session :=
  if target = .queued && 0 < session.queuedTurnUserMessageIds.length then
    { session with
      queuedTurnUserMessageIds := session.queuedTurnUserMessageIds.modify
        (session.queuedTurnUserMessageIds.length - 1) (· ++ [historyIndex]) }
  else { session with userMessageIdsThisTurn := session.userMessageIdsThisTurn ++ [historyIndex] }

def reconcileTerminalResultState (deps : Deps) (reason : JsString) : Session :=
  let session := session.clearOptimisticRunningTimer
  if session.isGenerating then session.setGenerating deps false reason
  else
    let hadResidualState := session.generationStartedAt.isSome || session.stuckNotifiedAt.isSome ||
      session.interruptedDuringTurn || session.interruptSourceDuringTurn.isSome ||
      session.compactedDuringTurn || session.provisionalStuckRecovery.isSome ||
      0 < session.userMessageIdsThisTurn.length
    if !hadResidualState then session
    else
      { session with
        generationStartedAt := none
        stuckNotifiedAt := none
        interruptedDuringTurn := false
        interruptSourceDuringTurn := none
        compactedDuringTurn := false
        provisionalStuckRecovery := none
        userMessageIdsThisTurn := [] }

def idle : Session where
  isGenerating := false
  generationStartedAt := none
  stuckNotifiedAt := none
  interruptedDuringTurn := false
  interruptSourceDuringTurn := none
  compactedDuringTurn := false
  provisionalStuckRecovery := none
  userMessageIdsThisTurn := []
  activeTurnRoute := none
  queuedTurnStarts := 0
  queuedTurnReasons := []
  queuedTurnUserMessageIds := []
  queuedTurnInterruptSources := []
  queuedTurnActiveRoutes := none
  optimisticRunningTimer := none
  queuedTickets := []
  nextTicket := 0
  log := []

end Session

/-- A session, and the history indices that were passed in so far. -/
structure State where
  session : Session
  tracked : List Nat

inductive Event
  | markRunning (deps : Deps) (reason : JsString) (queuedInterruptSource : Option InterruptSource)
      (userMessageHistoryIndex : Option Nat) (activeTurnRoute : Option ActiveTurnRoute)
  | trackUserMessage (historyIndex : Nat) (target : UserDispatchTurnTarget)
  | markInterrupted (source : InterruptSource)
  | setGenerating (deps : Deps) (generating : Bool) (reason : JsString)
  | reconcile (deps : Deps) (reason : JsString)
  | promote (deps : Deps) (suffix : JsString)
  | responseTimeout (deps : Deps) (timer : Nat)

/-- A history index is passed in at most once, and a turn is promoted only while idle. -/
def State.step (s : State) : Event → Option State
  | .markRunning deps reason source index route =>
    if index.any s.tracked.contains then none
    else some ⟨(s.session.markRunningFromUserDispatch deps reason source index route).1,
      s.tracked ++ index.toList⟩
  | .trackUserMessage index target =>
    if s.tracked.contains index then none
    else some ⟨s.session.trackUserMessageForTurn index target, s.tracked ++ [index]⟩
  | .markInterrupted source => some { s with session := s.session.markTurnInterrupted source }
  | .setGenerating deps generating reason =>
    some { s with session := s.session.setGenerating deps generating reason }
  | .reconcile deps reason =>
    some { s with session := s.session.reconcileTerminalResultState deps reason }
  | .promote deps suffix =>
    if s.session.isGenerating then none
    else some { s with session := s.session.promoteNextQueuedTurn deps suffix }
  | .responseTimeout deps timer =>
    some { s with session := s.session.responseTimeout deps timer }

def lifecycle : Machine State Event := ⟨⟨.idle, []⟩, State.step⟩

end Takode.TurnLifecycle
