import Takode.Lib.JsMap
import Takode.ThreadRouting.Markers
import Takode.TurnLifecycle.Lifecycle

/-!
# How a turn starts

A turn is started by a dispatch, or from the queue when another one has ended. The session with all that
belongs to one turn, and when both ways give the same (`generation-lifecycle.ts`,
`codex-reasoning-preview-state.ts`).
-/

namespace Takode.TurnLifecycle

open JsString

structure ActiveCodexReasoningPreview where
  text : JsString
  updatedAt : Nat
  turnId : Option JsString
  threadKey : JsString
  questId : Option JsString
deriving DecidableEq

structure QuestThreadReminderInjection where
  content : JsString
  route : Option ActiveTurnRoute
deriving DecidableEq

/-- A session with what else a turn sets. A record or list that is missing is empty. -/
structure TurnSession extends Session where
  claimedQuestStatus : Option JsString
  messageCount : Nat
  questStatusAtTurnStart : Option JsString
  messageCountAtTurnStart : Nat
  restartPrepInterruptOperationId : Option JsString
  restartPrepInterruptOrigin : Option JsString
  questThreadRemindersThisTurn : List QuestThreadReminderInjection
  activeReasoningAttributionRoute : Option ActiveTurnRoute
  activeCodexReasoningPreview : Option ActiveCodexReasoningPreview
  codexReasoningPreviews : JsMap JsString ActiveCodexReasoningPreview
  recentAskVisibleResponseThreads : JsSet JsString

def codexReasoningThreadKey (threadKey : Option JsString) : Option JsString :=
  (ThreadRouting.normalizeThreadTarget (threadKey.getD [])).map (·.threadKey)

/-- What is in force in a turn. -/
@[ext]
structure TurnScope where
  isGenerating : Bool
  generationStartedAt : Option Nat
  stuckNotifiedAt : Option Nat
  questStatusAtTurnStart : Option JsString
  messageCountAtTurnStart : Nat
  interruptedDuringTurn : Bool
  interruptSourceDuringTurn : Option InterruptSource
  restartPrepInterruptOperationId : Option JsString
  restartPrepInterruptOrigin : Option JsString
  compactedDuringTurn : Bool
  provisionalStuckRecovery : Option ProvisionalStuckRecovery
  userMessageIdsThisTurn : List Nat
  questThreadRemindersThisTurn : List QuestThreadReminderInjection
  activeTurnRoute : Option ActiveTurnRoute
  activeReasoningAttributionRoute : Option ActiveTurnRoute
  activeCodexReasoningPreview : Option ActiveCodexReasoningPreview
  codexReasoningPreviews : JsMap JsString ActiveCodexReasoningPreview
  recentAskVisibleResponseThreads : JsSet JsString

namespace TurnSession

variable (session : TurnSession)

def clearCodexReasoningPreviewForRoute (route : Option ActiveTurnRoute) : TurnSession :=
  match codexReasoningThreadKey (route.map (·.threadKey)) with
  | none => session
  | some threadKey =>
    { session with
      codexReasoningPreviews := session.codexReasoningPreviews.delete threadKey
      activeCodexReasoningPreview := session.activeCodexReasoningPreview.filter fun preview =>
        codexReasoningThreadKey (some preview.threadKey) ≠ some threadKey }

def retainCodexReasoningPreview (preview : ActiveCodexReasoningPreview) : TurnSession :=
  match codexReasoningThreadKey (some preview.threadKey) with
  | none => session
  | some threadKey =>
    if trim preview.text = [] then session
    else { session with
      codexReasoningPreviews := session.codexReasoningPreviews.set threadKey preview }

/-- The reminders of an assistant's text, of a turn that no reminder triggered. -/
def queueQuestThreadReminders (reminders : List QuestThreadReminderInjection) : TurnSession :=
  { session with
    questThreadRemindersThisTurn := reminders.foldl (fun queued reminder =>
      if reminder ∈ queued then queued else queued ++ [reminder]) session.questThreadRemindersThisTurn }

/-- What `setGenerating` and `startQueuedTurn` set alike. -/
def startTurn (started : Session) (route : Option ActiveTurnRoute) : TurnSession :=
  { session with
    toSession := started
    questStatusAtTurnStart := session.claimedQuestStatus
    messageCountAtTurnStart := session.messageCount
    restartPrepInterruptOperationId := none
    restartPrepInterruptOrigin := none
    activeReasoningAttributionRoute := route
    activeCodexReasoningPreview := none }

def startQueuedTurn (deps : Deps) (entry : QueuedTurnLifecycleEntry) (suffix : JsString) : TurnSession :=
  session.startTurn (session.toSession.startQueuedTurn deps entry suffix) entry.activeTurnRoute

def promoteNextQueuedTurn (deps : Deps) (suffix : JsString) : TurnSession :=
  match session.getQueuedTurnLifecycleEntries with
  | [] => session
  | nextEntry :: entries =>
    { session with toSession := session.replaceQueuedTurnLifecycleEntries entries }.startQueuedTurn
      deps nextEntry suffix

/-- The end of a turn, without what becomes of the queue. -/
def endTurn (reason : JsString) : TurnSession :=
  { session with
    toSession := session.toSession.endTurn reason
    recentAskVisibleResponseThreads := ∅
    restartPrepInterruptOperationId := none
    restartPrepInterruptOrigin := none
    activeReasoningAttributionRoute := none
    activeCodexReasoningPreview := none }

def setGenerating (deps : Deps) (generating : Bool) (reason : JsString) : TurnSession :=
  if session.isGenerating = generating then session
  else if generating then
    { session.startTurn (session.toSession.startTurn deps reason none [] none) none with
      recentAskVisibleResponseThreads := ∅
      questThreadRemindersThisTurn := [] }
  else
    let ended := session.endTurn reason
    if reason = js "result" then ended.promoteNextQueuedTurn deps (js "queued")
    else { ended with toSession := session.toSession.setGenerating deps false reason }

def markRunningFromUserDispatch (deps : Deps) (reason : JsString)
    (queuedInterruptSource : Option InterruptSource) (userMessageHistoryIndex : Option Nat)
    (activeTurnRoute : Option ActiveTurnRoute) : TurnSession × UserDispatchTurnTarget :=
  let dispatched := session.toSession.markRunningFromUserDispatch deps reason queuedInterruptSource
    userMessageHistoryIndex activeTurnRoute
  if session.isGenerating then
    ({ session.clearCodexReasoningPreviewForRoute activeTurnRoute with
      toSession := dispatched.1
      activeReasoningAttributionRoute := activeTurnRoute
      activeCodexReasoningPreview := none }, dispatched.2)
  else
    let started := (session.setGenerating deps true reason).clearCodexReasoningPreviewForRoute activeTurnRoute
    ({ started with
      toSession := dispatched.1
      activeReasoningAttributionRoute := activeTurnRoute
      activeCodexReasoningPreview := none }, dispatched.2)

def trackUserMessageForTurn (historyIndex : Nat) (target : UserDispatchTurnTarget) : TurnSession :=
  { session with toSession := session.toSession.trackUserMessageForTurn historyIndex target }

/-- What is in force. -/
def scope : TurnScope where
  isGenerating := session.isGenerating
  generationStartedAt := session.generationStartedAt
  stuckNotifiedAt := session.stuckNotifiedAt
  questStatusAtTurnStart := session.questStatusAtTurnStart
  messageCountAtTurnStart := session.messageCountAtTurnStart
  interruptedDuringTurn := session.interruptedDuringTurn
  interruptSourceDuringTurn := session.interruptSourceDuringTurn
  restartPrepInterruptOperationId := session.restartPrepInterruptOperationId
  restartPrepInterruptOrigin := session.restartPrepInterruptOrigin
  compactedDuringTurn := session.compactedDuringTurn
  provisionalStuckRecovery := session.provisionalStuckRecovery
  userMessageIdsThisTurn := session.userMessageIdsThisTurn
  questThreadRemindersThisTurn := session.questThreadRemindersThisTurn
  activeTurnRoute := session.activeTurnRoute
  activeReasoningAttributionRoute := session.activeReasoningAttributionRoute
  activeCodexReasoningPreview := session.activeCodexReasoningPreview
  codexReasoningPreviews := session.codexReasoningPreviews
  recentAskVisibleResponseThreads := session.recentAskVisibleResponseThreads

/-- The session once its turn, if there is one, has ended. -/
def afterTurn (reason : JsString) : TurnSession :=
  if session.isGenerating then session.endTurn reason else session

/-- An entry's turn, started by a dispatch with the entry's route and messages. -/
def startDirectly (deps : Deps) (reason : JsString) (entry : QueuedTurnLifecycleEntry) : TurnSession :=
  entry.userMessageIds.tail.foldl (fun session index => session.trackUserMessageForTurn index .current)
    (session.markRunningFromUserDispatch deps reason none entry.userMessageIds.head?
      entry.activeTurnRoute).1

/-- What is in force in a turn that starts with nothing of another one, but what is shown of other
threads. -/
def freshScope (deps : Deps) (entry : QueuedTurnLifecycleEntry) : TurnScope where
  isGenerating := true
  generationStartedAt := some deps.now
  stuckNotifiedAt := none
  questStatusAtTurnStart := session.claimedQuestStatus
  messageCountAtTurnStart := session.messageCount
  interruptedDuringTurn := false
  interruptSourceDuringTurn := none
  restartPrepInterruptOperationId := none
  restartPrepInterruptOrigin := none
  compactedDuringTurn := false
  provisionalStuckRecovery := none
  userMessageIdsThisTurn := entry.userMessageIds
  questThreadRemindersThisTurn := []
  activeTurnRoute := entry.activeTurnRoute
  activeReasoningAttributionRoute := entry.activeTurnRoute
  activeCodexReasoningPreview := none
  codexReasoningPreviews :=
    (session.clearCodexReasoningPreviewForRoute entry.activeTurnRoute).codexReasoningPreviews
  recentAskVisibleResponseThreads := ∅

/-! ## Both ways -/

variable {session}

theorem scope_promoteNextQueuedTurn {deps : Deps} {suffix : JsString} {entry : QueuedTurnLifecycleEntry}
    {entries : List QueuedTurnLifecycleEntry}
    (queued : session.getQueuedTurnLifecycleEntries = entry :: entries) :
    (session.promoteNextQueuedTurn deps suffix).scope =
      { session.freshScope deps entry with
        questThreadRemindersThisTurn := session.questThreadRemindersThisTurn
        codexReasoningPreviews := session.codexReasoningPreviews
        recentAskVisibleResponseThreads := session.recentAskVisibleResponseThreads } := by
  unfold promoteNextQueuedTurn
  rw [queued]
  dsimp only
  unfold startQueuedTurn startTurn Session.startQueuedTurn
  dsimp only
  split
  · rfl
  · rfl

theorem scope_foldl_track (indices : List Nat) (session : TurnSession) :
    (indices.foldl (fun session index => session.trackUserMessageForTurn index .current) session).scope =
      { session.scope with userMessageIdsThisTurn := session.userMessageIdsThisTurn ++ indices } := by
  induction indices generalizing session with
  | nil =>
    rw [List.foldl_nil, List.append_nil]
    rfl
  | cons index rest ih =>
    have tracked : (session.trackUserMessageForTurn index .current).scope =
        { session.scope with userMessageIdsThisTurn := session.userMessageIdsThisTurn ++ [index] } := rfl
    have own : (session.trackUserMessageForTurn index .current).userMessageIdsThisTurn =
        session.userMessageIdsThisTurn ++ [index] := rfl
    rw [List.foldl_cons, ih, tracked, own, List.append_assoc]
    rfl

theorem scope_markRunning {deps : Deps} {reason : JsString} {index : Option Nat}
    {entry : QueuedTurnLifecycleEntry} (idle : session.isGenerating = false) :
    (session.markRunningFromUserDispatch deps reason none index entry.activeTurnRoute).1.scope =
      { session.freshScope deps entry with userMessageIdsThisTurn := index.toList } := by
  have started : ∀ started : Session, started.isGenerating = false →
      started.setGenerating deps true reason = started.startTurn deps reason none [] none := by
    intro started idle
    unfold Session.setGenerating
    rw [idle, if_neg (by decide), if_pos rfl]
  have timed : (if deps.isHerdedWorker then session.toSession else
      session.toSession.restartOptimisticRunningTimer deps).isGenerating = false := by
    split
    · exact idle
    · exact idle
  have set : session.setGenerating deps true reason =
      { session.startTurn (session.toSession.startTurn deps reason none [] none) none with
        recentAskVisibleResponseThreads := ∅
        questThreadRemindersThisTurn := [] } := by
    unfold setGenerating
    rw [idle, if_neg (by decide), if_pos rfl]
  unfold markRunningFromUserDispatch Session.markRunningFromUserDispatch
  dsimp only
  rw [started _ timed, idle, if_neg (by decide), if_neg (by decide), set]
  unfold freshScope clearCodexReasoningPreviewForRoute
  cases codexReasoningThreadKey (entry.activeTurnRoute.map (·.threadKey)) with
  | none =>
    cases index with
    | none => rfl
    | some index => rfl
  | some key =>
    cases index with
    | none => rfl
    | some index => rfl

theorem scope_startDirectly {deps : Deps} {reason : JsString} {entry : QueuedTurnLifecycleEntry}
    (idle : session.isGenerating = false) :
    (session.startDirectly deps reason entry).scope = session.freshScope deps entry := by
  have dispatched : (session.markRunningFromUserDispatch deps reason none entry.userMessageIds.head?
      entry.activeTurnRoute).1.scope = _ := scope_markRunning idle
  have ids : (session.markRunningFromUserDispatch deps reason none entry.userMessageIds.head?
      entry.activeTurnRoute).1.userMessageIdsThisTurn = entry.userMessageIds.head?.toList :=
    congrArg TurnScope.userMessageIdsThisTurn dispatched
  unfold startDirectly
  rw [scope_foldl_track, dispatched, ids]
  have whole : entry.userMessageIds.head?.toList ++ entry.userMessageIds.tail = entry.userMessageIds := by
    cases entry.userMessageIds with
    | nil => rfl
    | cons first rest => rfl
  exact TurnScope.ext rfl rfl rfl rfl rfl rfl rfl rfl rfl rfl rfl whole rfl rfl rfl rfl rfl rfl

theorem freshScope_endTurn {deps : Deps} {reason : JsString} {entry : QueuedTurnLifecycleEntry} :
    (session.endTurn reason).freshScope deps entry = session.freshScope deps entry := by
  unfold freshScope clearCodexReasoningPreviewForRoute
  cases codexReasoningThreadKey (entry.activeTurnRoute.map (·.threadKey)) with
  | none => rfl
  | some key => rfl

theorem scope_afterTurn_startDirectly {deps : Deps} {reason endReason : JsString}
    {entry : QueuedTurnLifecycleEntry} :
    ((session.afterTurn endReason).startDirectly deps reason entry).scope =
      session.freshScope deps entry := by
  unfold afterTurn
  by_cases generating : session.isGenerating
  · rw [if_pos generating]
    have idle : (session.endTurn endReason).isGenerating = false := rfl
    rw [scope_startDirectly idle, freshScope_endTurn]
  · rw [if_neg generating]
    exact scope_startDirectly (Bool.not_eq_true _ ▸ generating)

end TurnSession

/-- No preview is shown of the thread of a route. -/
def NoPreview (session : TurnSession) (route : Option ActiveTurnRoute) : Prop :=
  ∀ threadKey, codexReasoningThreadKey (route.map (·.threadKey)) = some threadKey →
    session.codexReasoningPreviews.get? threadKey = none

theorem clearPreview_eq_iff {session : TurnSession} {route : Option ActiveTurnRoute} :
    session.codexReasoningPreviews =
        (session.clearCodexReasoningPreviewForRoute route).codexReasoningPreviews ↔
      NoPreview session route := by
  unfold NoPreview TurnSession.clearCodexReasoningPreviewForRoute
  cases codexReasoningThreadKey (route.map (·.threadKey)) with
  | none => exact ⟨fun _ threadKey none => (by cases none), fun _ => rfl⟩
  | some threadKey =>
    dsimp only
    constructor
    · intro same key found
      cases found
      rw [same, JsMap.get?_delete, if_pos rfl]
    · intro absent
      exact (JsMap.delete_of_absent (absent threadKey rfl)).symm

theorem scope_promote_eq_iff {session : TurnSession} {deps : Deps} {suffix : JsString}
    {entry : QueuedTurnLifecycleEntry} {entries : List QueuedTurnLifecycleEntry}
    (queued : session.getQueuedTurnLifecycleEntries = entry :: entries) :
    (session.promoteNextQueuedTurn deps suffix).scope = session.freshScope deps entry ↔
      session.questThreadRemindersThisTurn = [] ∧ session.recentAskVisibleResponseThreads = ∅ ∧
        NoPreview session entry.activeTurnRoute := by
  rw [TurnSession.scope_promoteNextQueuedTurn queued, ← clearPreview_eq_iff]
  constructor
  · intro same
    exact ⟨congrArg TurnScope.questThreadRemindersThisTurn same,
      congrArg TurnScope.recentAskVisibleResponseThreads same,
      congrArg TurnScope.codexReasoningPreviews same⟩
  · rintro ⟨reminders, boundaries, previews⟩
    exact TurnScope.ext rfl rfl rfl rfl rfl rfl rfl rfl rfl rfl rfl rfl reminders rfl rfl rfl previews
      boundaries

/-- A queued turn starts as clean as one of a dispatch, exactly if the turn before it has left no
reminder, no response boundary and no preview of the entry's thread. A turn that ends with a result
leaves no boundary. -/
theorem queued_turn_starts_clean (session : TurnSession) (deps : Deps) (suffix reason endReason : JsString)
    (entry : QueuedTurnLifecycleEntry) (entries : List QueuedTurnLifecycleEntry)
    (queued : session.getQueuedTurnLifecycleEntries = entry :: entries) :
    ((session.promoteNextQueuedTurn deps suffix).scope =
          ((session.afterTurn endReason).startDirectly deps reason entry).scope ↔
        session.questThreadRemindersThisTurn = [] ∧ session.recentAskVisibleResponseThreads = ∅ ∧
          NoPreview session entry.activeTurnRoute) ∧
      (session.isGenerating →
        ((session.setGenerating deps false (js "result")).scope =
            ((session.afterTurn (js "result")).startDirectly deps reason entry).scope ↔
          session.questThreadRemindersThisTurn = [] ∧ NoPreview session entry.activeTurnRoute)) := by
  rw [TurnSession.scope_afterTurn_startDirectly, TurnSession.scope_afterTurn_startDirectly]
  refine ⟨scope_promote_eq_iff queued, fun generating => ?_⟩
  have ended : session.setGenerating deps false (js "result") =
      (session.endTurn (js "result")).promoteNextQueuedTurn deps (js "queued") := by
    unfold TurnSession.setGenerating
    rw [generating, if_neg (by decide), if_neg (by decide), if_pos rfl]
  have still : (session.endTurn (js "result")).getQueuedTurnLifecycleEntries = entry :: entries := queued
  rw [ended, ← TurnSession.freshScope_endTurn, scope_promote_eq_iff still]
  exact and_congr_right fun _ => and_iff_right rfl

section Runs

def idleTurnSession : TurnSession where
  toSession := .idle
  claimedQuestStatus := none
  messageCount := 3
  questStatusAtTurnStart := none
  messageCountAtTurnStart := 0
  restartPrepInterruptOperationId := none
  restartPrepInterruptOrigin := none
  questThreadRemindersThisTurn := []
  activeReasoningAttributionRoute := none
  activeCodexReasoningPreview := none
  codexReasoningPreviews := ∅
  recentAskVisibleResponseThreads := ∅

def mainRoute : ActiveTurnRoute := ⟨js "main", none⟩
def questRoute : ActiveTurnRoute := ⟨js "q-1", some (js "q-1")⟩

/-- A turn runs in the main thread, and a turn for a quest is queued behind it. -/
def queuedBehind : TurnSession :=
  ((idleTurnSession.markRunningFromUserDispatch ⟨1, 1, false, false⟩ (js "user_message") none (some 0)
    (some mainRoute)).1.markRunningFromUserDispatch ⟨2, 2, false, false⟩ (js "user_message") none
    (some 2) (some questRoute)).1

def queuedEntry : QueuedTurnLifecycleEntry where
  reason := js "user_message"
  userMessageIds := [2]
  interruptSource := none
  activeTurnRoute := some questRoute
  ticket := 0

/-- The queued turn starts clean when the first one ends with a result. -/
theorem queued_turn_starts_clean_result :
    (queuedBehind.setGenerating ⟨3, 3, false, false⟩ false (js "result")).scope =
      ((queuedBehind.afterTurn (js "result")).startDirectly ⟨3, 3, false, false⟩ (js "user_message")
        queuedEntry).scope := by
  refine ((queued_turn_starts_clean queuedBehind ⟨3, 3, false, false⟩ (js "queued") (js "user_message")
    (js "result") queuedEntry [] (by rfl)).2 (by rfl)).mpr ⟨by rfl, ?_⟩
  intro threadKey _
  rfl

/-- A reminder of a turn that could not be started stays in force in the queued one, and so does, after
a result, what was last shown of the thread of the queued one. -/
theorem reminder_outlives_turn :
    let reminder : QuestThreadReminderInjection := ⟨js "Thread reminder: attach q-1", none⟩
    let preview : ActiveCodexReasoningPreview := ⟨js "Thinking", 2, none, js "q-1", none⟩
    let deps : Deps := ⟨3, 3, false, false⟩
    let reminded := (queuedBehind.queueQuestThreadReminders [reminder]).setGenerating deps false
      (js "codex_turn_start_terminal_failure")
    let direct := reminded.startDirectly deps (js "user_message") queuedEntry
    let shown := queuedBehind.retainCodexReasoningPreview preview
    let shownDirect := (shown.afterTurn (js "result")).startDirectly deps (js "user_message") queuedEntry
    ((reminded.promoteNextQueuedTurn deps (js "queued")).questThreadRemindersThisTurn = [reminder] ∧
        direct.questThreadRemindersThisTurn = [] ∧
        (reminded.promoteNextQueuedTurn deps (js "queued")).scope ≠ direct.scope) ∧
      (shown.setGenerating deps false (js "result")).codexReasoningPreviews.get? (js "q-1") =
          some preview ∧
        shownDirect.codexReasoningPreviews.get? (js "q-1") = none := by
  intro reminder preview deps reminded direct shown shownDirect
  have kept : (reminded.promoteNextQueuedTurn deps (js "queued")).questThreadRemindersThisTurn =
      [reminder] := by decide
  have clean : direct.questThreadRemindersThisTurn = [] := by decide
  refine ⟨⟨kept, clean, fun same => ?_⟩, by decide, by decide⟩
  have both := congrArg TurnScope.questThreadRemindersThisTurn same
  have both := kept.symm.trans (both.trans clean)
  cases both

end Runs

end Takode.TurnLifecycle
