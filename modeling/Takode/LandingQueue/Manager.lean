import Takode.Lib.JsValue
import Takode.Lib.Machine
import Takode.Lib.Program

/-!
# The landing queue

`LandingQueueManager` (`landing-queue-manager.ts`): changes wait as entries, a
launch is a runner the queue has started, and a run is the batch of entries that
a runner took. Operations run one at a time; `pump` waits for its runner outside
of them, and owners are told their results later. Left out are the file on disk,
the runners' tokens, bundles, the texts of messages to sessions, alerts, and what
the queue releases at the lease manager, whose answers are arbitrary.
-/

namespace Takode.LandingQueue

/-! ## Data -/

/-- `LandingTarget`. -/
structure LandingTarget where
  repo : JsString
  branch : JsString
  deriving DecidableEq

/-- `LandingCommitMapping`. -/
structure LandingCommitMapping where
  source : JsString
  target : JsString
  subject : JsString
  integrated : Bool := false
  deriving DecidableEq

inductive LandingEntryState where
  | pending
  | running
  | landed
  | bounced
  | withdrawn
  deriving DecidableEq

def LandingEntryState.text : LandingEntryState → JsString
  | pending => js "pending"
  | running => js "running"
  | landed => js "landed"
  | bounced => js "bounced"
  | withdrawn => js "withdrawn"

/-- `LandingEntry`. -/
structure LandingEntry where
  id : JsString
  key : JsString
  target : LandingTarget
  sessionId : JsString
  hostId : Option JsString
  baseCheckout : JsString
  preparationId : Option JsString
  submittedAt : Nat
  state : LandingEntryState
  runId : Option JsString := none
  resolvedAt : Option Nat := none
  mapping : Option (List LandingCommitMapping) := none
  pushedTip : Option JsString := none
  reason : Option JsString := none
  details : Option JsString := none
  deriving DecidableEq

/-- It waits or is in a run. -/
def LandingEntry.isActive (entry : LandingEntry) : Bool :=
  entry.state = .pending || entry.state = .running

/-- `LandingPushPlan`. -/
structure LandingPushPlan where
  base : JsString
  tip : JsString
  mapping : Record (List LandingCommitMapping)
  reconciled : Bool := false
  deriving DecidableEq

inductive LandingRunState where
  | running
  | finished
  | abandoned
  deriving DecidableEq

def LandingRunState.text : LandingRunState → JsString
  | running => js "running"
  | finished => js "finished"
  | abandoned => js "abandoned"

/-- `LandingRun`. -/
structure LandingRun where
  id : JsString
  key : JsString
  target : LandingTarget
  ownerSessionId : JsString
  launchId : Option JsString
  hostId : Option JsString
  startedAt : Nat
  heartbeatAt : Nat
  phase : JsString
  entryIds : List JsString
  state : LandingRunState
  plan : Option LandingPushPlan := none
  finishedAt : Option Nat := none
  deriving DecidableEq

/-- `isUnreconciled`: an abandoned run whose push plan nobody has checked. -/
def LandingRun.isUnreconciled (run : LandingRun) : Bool :=
  run.state = .abandoned && run.plan.any fun plan => !plan.reconciled

/-- `LandingRunnerLaunch`. -/
structure LandingRunnerLaunch where
  id : JsString
  key : JsString
  target : LandingTarget
  hostId : Option JsString
  baseCheckout : JsString
  launchedAt : Nat
  runId : Option JsString := none
  endedAt : Option Nat := none
  deriving DecidableEq

/-- `Boolean(launch.endedAt)`. -/
def LandingRunnerLaunch.ended (launch : LandingRunnerLaunch) : Bool := launch.endedAt.any (0 < ·)

/-- `launch.endedAt = now`, unless it has ended. -/
def LandingRunnerLaunch.endOnce (launch : LandingRunnerLaunch) (now : Nat) : LandingRunnerLaunch :=
  if launch.ended then launch else { launch with endedAt := some now }

/-- `LandingEntryOutcome`. -/
inductive LandingEntryOutcome where
  | landed (entryId : JsString) (mapping : List LandingCommitMapping)
  | bounced (entryId reason : JsString) (details : Option JsString)
  | requeue (entryId reason : JsString)
  deriving DecidableEq

namespace LandingEntryOutcome

def entryId : LandingEntryOutcome → JsString
  | landed entryId _ => entryId
  | bounced entryId _ _ => entryId
  | requeue entryId _ => entryId

def isRequeue : LandingEntryOutcome → Bool
  | requeue .. => true
  | _ => false

def isLanded : LandingEntryOutcome → Bool
  | landed .. => true
  | _ => false

end LandingEntryOutcome

/-- `LandingRunReport`. -/
structure LandingRunReport where
  outcomes : List LandingEntryOutcome
  pushedTip : Option JsString := none
  deriving DecidableEq

def isSha (text : JsString) : Bool :=
  text.length = 40 && text.all fun c => JsString.isDigit c || (97 ≤ c && c ≤ 102)

/-- An outcome as `parseReport` lets it through (`routes/landing-queue.ts:353-363`). -/
def LandingEntryOutcome.isParsed : LandingEntryOutcome → Bool
  | landed _ mapping => !mapping.isEmpty && mapping.all fun commit =>
      isSha commit.source && isSha commit.target && commit.subject.length ≤ 300
  | bounced _ reason _ => !reason.isEmpty && reason.length ≤ 1000
  | requeue _ reason => !reason.isEmpty && reason.length ≤ 1000

/-- A report as `parseReport` lets it through. -/
def LandingRunReport.isParsed (report : LandingRunReport) : Bool :=
  report.outcomes.all LandingEntryOutcome.isParsed && report.pushedTip.all isSha

/-- `QueueTrouble`. -/
structure QueueTrouble where
  failures : Nat
  at' : Nat
  retryAt : Nat
  deriving DecidableEq

/-- What `verifyRunner` makes of a runner's credentials. -/
structure LandingRunnerCaller where
  launchId : JsString
  ownerId : JsString
  deriving DecidableEq

/-- `LandingSubmitInput`; of the commits only their number is looked at. -/
structure LandingSubmitInput where
  callerSessionId : JsString
  hostId : Option JsString := none
  target : LandingTarget
  baseCheckout : JsString
  preparationId : Option JsString := none
  commits : Nat

/-- `LandingRunnerRequest`. -/
structure LandingRunnerRequest where
  launchId : JsString
  target : LandingTarget
  hostId : Option JsString
  baseCheckout : JsString
  deriving DecidableEq

/-- How an operation fails: a `LandingQueueError`, a save that failed, or a lease call that did. -/
inductive Failure where
  | error (status : Nat) (message : JsString)
  | store
  | leases
  deriving DecidableEq

/-- A `pump` that waits for its runner to start; `failed` once `launchRunner` has rejected. -/
structure Starting where
  launchId : JsString
  key : JsString
  failed : Bool := false
  deriving DecidableEq

/-- An entry when it was recorded as landed. -/
structure Landing where
  entryId : JsString
  sessionId : JsString
  preparationId : Option JsString
  deriving DecidableEq

/-- `LandingQueueManager` with its `LandingQueueFile`. `starting` and `announcing` are what it does
in the background. The last five fields are history: ids drawn, entries that `onEntryResolved` was
called with, entries whose owner got the queue's message, reports by run, and landings. -/
structure LandingQueueManager where
  entries : List LandingEntry := []
  runs : List LandingRun := []
  launches : List LandingRunnerLaunch := []
  trouble : JsMap JsString QueueTrouble := ∅
  launching : JsSet JsString := ∅
  starting : List Starting := []
  announcing : List JsString := []
  drawn : List JsString := []
  resolvedCalls : List JsString := []
  notified : List JsString := []
  reported : List (JsString × LandingRunReport) := []
  landings : List Landing := []
  deriving DecidableEq

/-- What `leases.acquire` comes to. -/
inductive AcquireAnswer where
  | held
  | queued
  | unavailable (owners : List JsString)
  | failed
  deriving DecidableEq

/-- What an operation is told: the clock and the saves, each in the order in which it asks, the
lease manager, the saved gate, and the random bytes of an id. -/
structure World where
  now : Nat → Nat
  saved : Nat → Bool := fun _ => true
  holdsLease : Bool := true
  acquired : AcquireAnswer := .held
  renewed : Bool := true
  gate : Bool := true
  random : JsString := []

def LANDING_BATCH_LIMIT : Nat := 8
def LANDING_RUN_RECLAIM_MS : Nat := 3 * 60000
def LAUNCH_CLAIM_TIMEOUT_MS : Nat := 2 * 60000
def HISTORY_RETENTION_MS : Nat := 14 * 24 * 60 * 60000
def MAX_KEPT_RUNS : Nat := 100
def MAX_KEPT_LAUNCHES : Nat := 100
def MAX_DETAILS : Nat := 6000
def RETRY_DELAYS_MS : List Nat := [0, 60000, 5 * 60000, 15 * 60000]
def LANDING_QUEUE_OWNER_PREFIX : JsString := js "landing-queue:"

/-- `path.isAbsolute` (POSIX). -/
def isAbsolute (path : JsString) : Bool := path.startsWith (js "/")

/-- The last `n` elements: `slice(-n)`. -/
def takeLast {α : Type} (n : Nat) (list : List α) : List α := list.drop (list.length - n)

/-! ## Entries and outcomes -/

/-- `prune` keeps the entry (`:953-955`). -/
def LandingEntry.isKept (entry : LandingEntry) (now : Nat) : Bool :=
  entry.isActive || entry.resolvedAt.all fun t => now < t + HISTORY_RETENTION_MS

/-- What an outcome makes of its entry (`applyOutcomes`, `:833-865`). -/
def LandingEntry.settle (entry : LandingEntry) (pushedTip : Option JsString) (now : Nat) :
    LandingEntryOutcome → LandingEntry
  | .requeue _ reason => { entry with state := .pending, runId := none, reason := some reason }
  | .landed _ mapping =>
    { entry with
      resolvedAt := some now
      reason := none
      details := none
      state := .landed
      mapping := some mapping
      pushedTip := pushedTip <|> entry.pushedTip }
  | .bounced _ reason details =>
    { entry with
      resolvedAt := some now
      state := .bounced
      reason := some reason
      details := (details.filter (!·.isEmpty)).map (takeLast MAX_DETAILS) }

/-- `withdraw` of an entry (`:481-483`). -/
def LandingEntry.withdraw (entry : LandingEntry) (callerSessionId : JsString) (now : Nat) :
    LandingEntry :=
  { entry with
    state := .withdrawn
    resolvedAt := some now
    reason := some (if callerSessionId = entry.sessionId then js "Withdrawn by its owner."
      else js "Withdrawn by its leader.") }

/-- An entry whose run is taken back (`:825-826`). -/
def LandingEntry.release (entry : LandingEntry) : LandingEntry :=
  { entry with state := .pending, runId := none }

/-- An entry that joins a run (`:370-371`). -/
def LandingEntry.join (entry : LandingEntry) (runId : JsString) : LandingEntry :=
  { entry with state := .running, runId := some runId }

def LandingRun.abandon (run : LandingRun) (now : Nat) : LandingRun :=
  { run with state := .abandoned, finishedAt := some now }

def LandingRun.finish (run : LandingRun) (now : Nat) : LandingRun :=
  { run with state := .finished, finishedAt := some now }

def LandingRun.reconcile (run : LandingRun) : LandingRun :=
  { run with plan := run.plan.map fun plan => { plan with reconciled := true } }

/-- The entries after one outcome. -/
def settleOne (pushedTip : Option JsString) (now : Nat) (entries : List LandingEntry)
    (outcome : LandingEntryOutcome) : List LandingEntry :=
  entries.map fun entry =>
    if entry.id = outcome.entryId then entry.settle pushedTip now outcome else entry

/-- The entries after a report. -/
def settleAll (report : LandingRunReport) (now : Nat) (entries : List LandingEntry) :
    List LandingEntry :=
  report.outcomes.foldl (settleOne report.pushedTip now) entries

/-- The report `reconcile` makes of a plan (`:457-465`). -/
def LandingRun.reconcileReport (run : LandingRun) (pushed : Bool) : LandingRunReport where
  outcomes := run.entryIds.map fun entryId =>
    if pushed then
      match run.plan.bind fun plan => plan.mapping.get? entryId with
      | some mapping => .landed entryId mapping
      | none => .bounced entryId (js "It was dropped from the interrupted run's push.") none
    else .requeue entryId (js "The interrupted run did not push.")
  pushedTip := if pushed then run.plan.map LandingPushPlan.tip else none

/-- The failures of a queue key, one more than `previous`. -/
def QueueTrouble.next (previous : Option QueueTrouble) (now : Nat) : QueueTrouble :=
  let failures := (previous.map QueueTrouble.failures).getD 0 + 1
  ⟨failures, now, now + RETRY_DELAYS_MS.getD (min failures RETRY_DELAYS_MS.length - 1) 0⟩

/-! ## Changes of the tables -/

namespace LandingQueueManager

variable (m : LandingQueueManager)

def activeRun (key : JsString) : Option LandingRun :=
  m.runs.find? fun run => run.key = key && run.state = .running

def unreconciled (key : JsString) : List LandingRun :=
  m.runs.filter fun run => run.key = key && run.isUnreconciled

/-- The waiting entries of a queue, the oldest first. -/
def pending (key : JsString) : List LandingEntry :=
  (m.entries.filter fun entry => entry.key = key && entry.state = .pending).insertionSort
    fun a b => a.submittedAt ≤ b.submittedAt

def runEntries (run : LandingRun) : List LandingEntry :=
  run.entryIds.flatMap fun id => m.entries.filter fun entry => entry.id = id

def updateRun (id : JsString) (f : LandingRun → LandingRun) : LandingQueueManager :=
  { m with runs := m.runs.map fun run => if run.id = id then f run else run }

def updateLaunch (id : JsString) (f : LandingRunnerLaunch → LandingRunnerLaunch) :
    LandingQueueManager :=
  { m with launches := m.launches.map fun launch => if launch.id = id then f launch else launch }

def updateEntry (id : JsString) (f : LandingEntry → LandingEntry) : LandingQueueManager :=
  { m with entries := m.entries.map fun entry => if entry.id = id then f entry else entry }

def addEntry (entry : LandingEntry) : LandingQueueManager :=
  { m with entries := m.entries ++ [entry], drawn := entry.id :: m.drawn }

def addLaunch (launch : LandingRunnerLaunch) : LandingQueueManager :=
  { m with launches := m.launches ++ [launch], drawn := launch.id :: m.drawn }

/-- `launch.endedAt = now`. -/
def endLaunch (id : JsString) (now : Nat) : LandingQueueManager :=
  m.updateLaunch id fun launch => { launch with endedAt := some now }

/-- `endLaunchOf` (`:812-815`). -/
def endLaunchOf (run : LandingRun) (now : Nat) : LandingQueueManager :=
  match run.launchId with
  | none => m
  | some id => m.updateLaunch id fun launch => launch.endOnce now

/-- Ends what is open of a queue (`startRunnerByHand`, `:292-293`). -/
def endLaunches (key : JsString) (now : Nat) : LandingQueueManager :=
  { m with launches := m.launches.map fun launch =>
      if launch.key = key then launch.endOnce now else launch }

/-- `recordFailureFor` (`:773-801`). -/
def recordFailureFor (key : JsString) (now : Nat) : LandingQueueManager :=
  { m with trouble := m.trouble.set key (.next (m.trouble.get? key) now) }

def clearTrouble (key : JsString) : LandingQueueManager :=
  { m with trouble := m.trouble.delete key }

/-- What `abandon` does before it saves (`:817-830`). -/
def abandonRun (run : LandingRun) (now now' : Nat) : LandingQueueManager :=
  let after := (m.updateRun run.id fun run => run.abandon now).endLaunchOf run now'
  if run.plan.isSome then after
  else { after with entries := m.entries.map fun entry =>
      if entry.id ∈ run.entryIds then entry.release else entry }

/-- What `claim` does for its new run before it saves (`:369-374`). -/
def addRun (run : LandingRun) (launchId : JsString) : LandingQueueManager :=
  let entries := m.entries.map fun entry =>
    if entry.id ∈ run.entryIds then entry.join run.id else entry
  let started := m.updateLaunch launchId fun launch => { launch with runId := some run.id }
  { started with entries := entries, runs := m.runs ++ [run], drawn := run.id :: m.drawn }

/-- The entries a report resolves, outcome by outcome. -/
def resolvedBy (report : LandingRunReport) : List JsString :=
  report.outcomes.filterMap fun outcome =>
    if outcome.isRequeue then none
    else (m.entries.find? fun entry => entry.id = outcome.entryId).map LandingEntry.id

/-- The entries a report records as landed. -/
def landedBy (report : LandingRunReport) : List Landing :=
  report.outcomes.filterMap fun outcome =>
    if outcome.isLanded then
      (m.entries.find? fun entry => entry.id = outcome.entryId).map fun entry =>
        ⟨entry.id, entry.sessionId, entry.preparationId⟩
    else none

/-- `applyOutcomes` (`:833-865`). Owners are told later, and only if its save succeeds. -/
def applyOutcomes (run : LandingRun) (report : LandingRunReport) (now : Nat) (saved : Bool) :
    LandingQueueManager :=
  { m with
    entries := settleAll report now m.entries
    announcing := m.announcing ++ if saved then m.resolvedBy report else []
    reported := m.reported ++ [(run.id, report)]
    landings := m.landings ++ m.landedBy report }

/-- What `finish` does up to the save of `applyOutcomes` (`:429-441`). -/
def finishRun (run : LandingRun) (report : LandingRunReport) (now : Nat → Nat) (saved : Bool) :
    LandingQueueManager :=
  let ended := (m.updateRun run.id fun run => run.finish (now 0)).endLaunchOf run (now 1)
  let settled := report.outcomes.any fun outcome => !outcome.isRequeue
  let counted := if settled then ended.clearTrouble run.key
    else ended.recordFailureFor run.key (now 2)
  counted.applyOutcomes run report (now 3) saved

/-- What `reconcile` does up to the save of `applyOutcomes` (`:466-468`). -/
def reconcileRun (run : LandingRun) (pushed : Bool) (now : Nat) (saved : Bool) :
    LandingQueueManager :=
  (m.updateRun run.id LandingRun.reconcile).applyOutcomes run (run.reconcileReport pushed) now
    saved

/-- What `withdraw` does, up to its save and after it (`:481-488`). -/
def withdrawEntry (entry : LandingEntry) (callerSessionId : JsString) (now : Nat) (saved : Bool) :
    LandingQueueManager :=
  let withdrawn := m.updateEntry entry.id fun entry => entry.withdraw callerSessionId now
  { withdrawn with resolvedCalls := m.resolvedCalls ++ if saved then [entry.id] else [] }

/-- `prune` (`:951-962`). -/
def prune (now : Nat) : LandingQueueManager :=
  let recent := fun time : Option Nat => now < time.getD 0 + HISTORY_RETENTION_MS
  let keeps := fun run : LandingRun => run.state = .running || run.isUnreconciled
  let keep := m.runs.filter keeps
  let done := m.runs.filter fun run => !keeps run && recent run.finishedAt
  let open' := m.launches.filter fun launch => !launch.ended
  let ended := m.launches.filter fun launch => launch.ended && recent launch.endedAt
  { m with
    entries := m.entries.filter fun entry => entry.isKept now
    runs := (takeLast MAX_KEPT_RUNS done ++ keep).insertionSort
      fun a b => a.startedAt ≤ b.startedAt
    launches := (takeLast MAX_KEPT_LAUNCHES ended ++ open').insertionSort
      fun a b => a.launchedAt ≤ b.launchedAt }

/-- A machine as a runner can be started on it. -/
abbrev Machine := Option JsString × JsString

/-- `pickMachine` (`:740-760`). -/
def pickMachine (pending : List LandingEntry) (unreconciled : List LandingRun) (failures : Nat) :
    Option Machine :=
  let ofEntry := fun entry : LandingEntry => (entry.hostId, entry.baseCheckout)
  let launches := m.launches.filter fun launch =>
    unreconciled.any fun run => run.launchId = some launch.id
  let sources : List Machine := pending.map ofEntry ++
    (unreconciled.flatMap m.runEntries).map ofEntry ++
    launches.map fun launch => (launch.hostId, launch.baseCheckout)
  let candidates := (sources.filter fun source => !source.2.isEmpty).foldl
    (fun found source => if found.contains source then found else found ++ [source]) []
  candidates[failures % candidates.length]?

/-- `attestsLanding` (`:497-514`). -/
def attestsLanding (entryId callerSessionId preparationId source target : JsString) : Bool :=
  (m.entries.find? fun entry => entry.id = entryId).any fun entry =>
    entry.sessionId = callerSessionId && entry.state = .landed &&
      entry.preparationId = some preparationId &&
      (entry.mapping.getD []).any fun commit => commit.source = source && commit.target = target

/-- `attestsUnlanded` (`:520-527`). -/
def attestsUnlanded (preparationId callerSessionId : JsString) : Bool :=
  let entries := m.entries.filter fun entry =>
    entry.preparationId = some preparationId && entry.sessionId = callerSessionId
  !entries.isEmpty && entries.all fun entry => entry.state = .bounced || entry.state = .withdrawn

end LandingQueueManager

/-! ## Operations -/

/-- An operation of the queue. -/
abbrev Queue := Program LandingQueueManager Failure

open Program

section Operations

-- `String.prototype.toLowerCase`, whatever it does.
variable (toLowerCase : JsString → JsString)

def landingQueueKey (target : LandingTarget) : JsString :=
  toLowerCase (target.repo ++ js ":" ++ target.branch)

def landingLeaseKey (target : LandingTarget) : JsString :=
  js "port:" ++ landingQueueKey toLowerCase target

def save (w : World) (n : Nat) : Queue Unit := Program.require (w.saved n) .store

def abandon (w : World) (run : LandingRun) : Queue Unit := do
  modify fun m => m.abandonRun run (w.now 0) (w.now 1)
  save w 0

/-- `submit` (`:176-224`): the entry, how many are ahead, and the run under way. -/
def submit (w : World) (input : LandingSubmitInput) :
    Queue (LandingEntry × Nat × Option JsString) := do
  Program.require (input.commits ≠ 0) (.error 400 (js "An entry needs at least one commit."))
  Program.require (isAbsolute input.baseCheckout)
    (.error 400 (js "baseCheckout must be the absolute path of the base checkout."))
  let key := landingQueueKey toLowerCase input.target
  Program.require w.gate (.error 409 (js "No landing gate is saved for " ++ key ++
    js (", so it does not land through the landing queue. Use the classic port flow in " ++
      "/port-changes, or save a gate with `takode land gate save`.")))
  let m ← get
  refuse ((m.entries.find? fun entry =>
    entry.sessionId = input.callerSessionId && entry.isActive).map fun active =>
      .error 409 (js "Entry " ++ active.id ++ js " from this session is still " ++
        active.state.text ++ js ". Withdraw it before submitting another."))
  let waiting := m.entries.filter fun entry => entry.key = key && entry.isActive
  let entry : LandingEntry :=
    { id := js "le-" ++ w.random
      key := key
      target := ⟨toLowerCase input.target.repo, input.target.branch⟩
      sessionId := input.callerSessionId
      hostId := input.hostId.filter (!·.isEmpty)
      baseCheckout := input.baseCheckout
      preparationId := input.preparationId.filter (!·.isEmpty)
      submittedAt := w.now 0
      state := .pending }
  modify fun m => m.addEntry entry
  save w 0
  return (entry, waiting.length, (m.activeRun key).map LandingRun.id)

/-- `newLaunch` (`:711-736`). -/
def newLaunch (w : World) (target : LandingTarget) (machine : LandingQueueManager.Machine) :
    LandingRunnerLaunch where
  id := js "ll-" ++ w.random
  key := landingQueueKey toLowerCase target
  target := target
  hostId := machine.1.filter (!·.isEmpty)
  baseCheckout := machine.2
  launchedAt := w.now 4

def LandingRunnerLaunch.request (launch : LandingRunnerLaunch) : LandingRunnerRequest :=
  ⟨launch.id, launch.target, launch.hostId, launch.baseCheckout⟩

/-- Takes the port lease for a runner that is started by hand (`:275-290`). -/
def acquireByHand (w : World) (target : LandingTarget) : Queue Unit :=
  if w.holdsLease then pure ()
  else match w.acquired with
    | .failed => throw .leases
    | .unavailable owners => throw (.error 409 (landingLeaseKey toLowerCase target ++
        js " is held by " ++ (js ", ").intercalate owners ++
        js (" (a classic port or another landing). The queue starts its run as soon as it is " ++
          "free.")))
    | .held | .queued => pure ()

/-- `startRunnerByHand` (`:255-299`). -/
def startRunnerByHand (w : World) (target : LandingTarget) (hostId : Option JsString)
    (baseCheckout : JsString) : Queue LandingRunnerRequest := do
  let key := landingQueueKey toLowerCase target
  Program.require (isAbsolute baseCheckout)
    (.error 400 (js "baseCheckout must be the absolute path of the base checkout."))
  let m ← get
  let active := m.activeRun key
  refuse ((active.filter fun run => w.now 2 < run.heartbeatAt + LANDING_RUN_RECLAIM_MS).map
    fun run => .error 409 (js "Landing run " ++ run.id ++ js " is under way (phase: " ++
      run.phase ++ js "); it takes every waiting change."))
  Program.require (!(m.pending key).isEmpty || active.isSome || !(m.unreconciled key).isEmpty)
    (.error 409 (js "Nothing is waiting to land on " ++ key ++ js "."))
  Program.require (!m.launching.has key) (.error 409 (js "The server is starting a runner right now."))
  acquireByHand toLowerCase w target
  each (abandon w) active.toList
  modify fun m => m.endLaunches key (w.now 3)
  modify fun m => m.clearTrouble key
  let launch := newLaunch toLowerCase w target (hostId, baseCheckout)
  modify fun m => m.addLaunch launch
  save w 1
  return launch.request

/-- `currentLaunch` (`:805-810`). -/
def currentLaunch (runner : LandingRunnerCaller) (key : JsString) : Queue LandingRunnerLaunch := do
  let m ← get
  Program.orThrow (.error 409 (js "This runner is not the queue's current runner any more."))
    ((m.launches.find? fun launch => launch.id = runner.launchId).filter fun launch =>
      launch.key = key && !launch.ended)

/-- `LandingClaimResult`. -/
structure LandingClaimResult where
  run : Option LandingRun := none
  entries : List LandingEntry := []
  unreconciled : List LandingRun := []
  deriving DecidableEq

/-- The end of `claim` where nothing waits (`:349-354`). -/
def claimNothing (w : World) (launch : LandingRunnerLaunch) : Queue LandingClaimResult := do
  modify fun m => m.endLaunch launch.id (w.now 2)
  save w 1
  return {}

/-- The run `claim` starts for its entries (`:355-368`). -/
def newRun (w : World) (runner : LandingRunnerCaller) (launch : LandingRunnerLaunch)
    (key : JsString) (target : LandingTarget) (entries : List LandingEntry) : LandingRun where
  id := js "lr-" ++ w.random
  key := key
  target := target
  ownerSessionId := runner.ownerId
  launchId := some launch.id
  hostId := launch.hostId
  startedAt := w.now 2
  heartbeatAt := w.now 2
  phase := js "starting"
  entryIds := entries.map LandingEntry.id
  state := .running

/-- `claim` (`:327-380`). -/
def claim (w : World) (runner : LandingRunnerCaller) (target : LandingTarget) :
    Queue LandingClaimResult := do
  let key := landingQueueKey toLowerCase target
  let launch ← currentLaunch runner key
  refuse (launch.runId.map fun runId => .error 409
    (js "Runner " ++ launch.id ++ js " already claimed run " ++ runId ++ js "."))
  Program.require w.holdsLease (.error 409
    (js "The landing queue no longer holds " ++ landingLeaseKey toLowerCase target ++ js "."))
  let m ← get
  each (abandon w) (m.activeRun key).toList
  let m ← get
  match m.unreconciled key with
  | [] =>
    match (m.pending key).take LANDING_BATCH_LIMIT with
    | [] => claimNothing w launch
    | first :: rest => do
      let entries := first :: rest
      let run := newRun w runner launch key first.target entries
      modify fun m => m.addRun run launch.id
      save w 1
      return { run := some run, entries := entries }
  | unreconciled => return { unreconciled := unreconciled }

/-- `ownedRunningRun` (`:916-922`). -/
def ownedRunningRun (runId : JsString) (runner : LandingRunnerCaller) : Queue LandingRun := do
  let m ← get
  let run ← Program.orThrow (.error 404 (js "No landing run " ++ runId ++ js "."))
    (m.runs.find? fun run => run.id = runId)
  Program.require (run.launchId = some runner.launchId)
    (.error 403 (js "Only the run's runner can update it."))
  Program.require (run.state = .running)
    (.error 409 (js "Landing run " ++ runId ++ js " is " ++ run.state.text ++ js "."))
  return run

/-- `heartbeat` (`:393-410`). -/
def heartbeat (w : World) (runId : JsString) (runner : LandingRunnerCaller)
    (phase : Option JsString) : Queue LandingRun := do
  let run ← ownedRunningRun runId runner
  Program.require w.holdsLease (.error 409 (js "The landing run no longer holds the port lease."))
  Program.require w.renewed .leases
  let beat := { run with
    heartbeatAt := w.now 0
    phase := ((phase.filter (!·.isEmpty)).map (·.take 200)).getD run.phase }
  modify fun m => m.updateRun run.id fun _ => beat
  save w 0
  return beat

/-- `recordPlan` (`:413-427`); `base`, `tip` and `mapping` are all that `parsePlan` keeps. -/
def recordPlan (w : World) (runId : JsString) (runner : LandingRunnerCaller)
    (base tip : JsString) (mapping : Record (List LandingCommitMapping)) : Queue LandingRun := do
  let run ← ownedRunningRun runId runner
  Program.require w.holdsLease
    (.error 409 (js "The landing run no longer holds the port lease; do not push."))
  refuse ((mapping.ownKeys.find? fun entryId => entryId ∉ run.entryIds).map fun entryId =>
    .error 400 (js "Entry " ++ entryId ++ js " is not in this run."))
  let planned := { run with
    plan := some { base := base, tip := tip, mapping := mapping }
    heartbeatAt := w.now 0
    phase := js "pushing" }
  modify fun m => m.updateRun run.id fun _ => planned
  save w 0
  return planned

/-- `finish` (`:422-447`). -/
def finish (w : World) (runId : JsString) (runner : LandingRunnerCaller)
    (report : LandingRunReport) : Queue LandingRun := do
  let run ← ownedRunningRun runId runner
  let reported := JsSet.ofList (report.outcomes.map LandingEntryOutcome.entryId)
  refuse ((run.entryIds.find? fun entryId => !reported.has entryId).map fun entryId =>
    .error 400 (js "No outcome reported for entry " ++ entryId ++ js "."))
  modify fun m => m.finishRun run report w.now (w.saved 0)
  save w 0
  return run.finish (w.now 0)

/-- `reconcile` (`:449-471`). -/
def reconcile (w : World) (runId : JsString) (runner : LandingRunnerCaller) (pushed : Bool) :
    Queue LandingRun := do
  let m ← get
  let run ← Program.orThrow (.error 404 (js "No unreconciled run " ++ runId ++ js "."))
    ((m.runs.find? fun run => run.id = runId).filter LandingRun.isUnreconciled)
  let _ ← currentLaunch runner run.key
  Program.require w.holdsLease (.error 409
    (js "The landing queue no longer holds " ++ landingLeaseKey toLowerCase run.target ++ js "."))
  modify fun m => m.reconcileRun run pushed (w.now 0) (w.saved 0)
  save w 0
  return run.reconcile

/-- `withdraw` (`:473-490`); the entry as it was. -/
def withdraw (w : World) (entryId callerSessionId : JsString)
    (callerIsLeaderOf : JsString → Bool) : Queue LandingEntry := do
  let m ← get
  let entry ← Program.orThrow (.error 404 (js "No landing entry " ++ entryId ++ js "."))
    (m.entries.find? fun entry => entry.id = entryId)
  Program.require (entry.sessionId = callerSessionId || callerIsLeaderOf entry.sessionId)
    (.error 403 (js "Only the entry's owner or its leader can withdraw it."))
  Program.require (entry.state = .pending) (.error 409 (js "Entry " ++ entryId ++ js " is " ++
    entry.state.text ++ js "; only waiting entries can be withdrawn."))
  modify fun m => m.withdrawEntry entry callerSessionId (w.now 0) (w.saved 0)
  save w 0
  return entry

/-- `launchFailed` (`:762-773`). -/
def launchFailed (w : World) (launch : LandingRunnerLaunch) : Queue Unit := do
  modify fun m => m.endLaunch launch.id (w.now 2)
  modify fun m => m.recordFailureFor launch.key (w.now 3)
  save w 1

/-- What `runnerExited` does for a launch it knows (`:569-583`). -/
def launchExited (w : World) (m : LandingQueueManager) (launch : LandingRunnerLaunch) :
    Queue Unit :=
  match (launch.runId.bind fun runId => m.runs.find? fun run => run.id = runId).filter
      fun run => run.state = .running with
  | some run => do
    abandon w run
    modify fun m => m.recordFailureFor run.key (w.now 2)
  | none =>
    if launch.runId.isNone && !launch.ended then launchFailed w launch
    else do
      modify fun m => m.updateLaunch launch.id fun launch =>
        { launch with endedAt := launch.endedAt <|> some (w.now 2) }
      save w 1

/-- `runnerExited` (`:565-586`). -/
def runnerExited (w : World) (launchId : JsString) : Queue (Option JsString) := do
  let m ← get
  let found := m.launches.find? fun launch => launch.id = launchId
  each (launchExited w m) found.toList
  return found.map LandingRunnerLaunch.key

/-- `sweep` for a run (`:595-603`). -/
def sweepRun (now : Nat) (w : World) (run : LandingRun) : Queue Unit :=
  if !w.holdsLease then abandon w run
  else if run.heartbeatAt + LANDING_RUN_RECLAIM_MS < now then do
    abandon w run
    modify fun m => m.recordFailureFor run.key (w.now 2)
  else pure ()

/-- `sweep` for a launch (`:604-617`). Its runner may have started since: then `launching` has its
key no more. -/
def sweepLaunch (now : Nat) (w : World) (started : Bool) (launch : LandingRunnerLaunch) :
    Queue Unit := do
  let m ← get
  if m.launching.has launch.key && !started then pure ()
  else if !w.holdsLease then do
    modify fun m => m.endLaunch launch.id now
    save w 0
  else if launch.launchedAt + LAUNCH_CLAIM_TIMEOUT_MS < now then launchFailed w launch
  else pure ()

/-- `sweep` (`:592-627`) without the pumps at its end. `ofRun` and `ofLaunch` are what it is told at
each run and each launch that it comes to. -/
def sweep (now pruned : Nat) (ofRun ofLaunch : Nat → World) (started : Nat → Bool) :
    Queue Unit := do
  let m ← get
  eachFrom (fun n run => sweepRun now (ofRun n) run) 0
    (m.runs.filter fun run => run.state = .running)
  let m ← get
  eachFrom (fun n launch => sweepLaunch now (ofLaunch n) (started n) launch) 0
    (m.launches.filter fun launch => !launch.ended && launch.runId.isNone)
  modify fun m => m.prune pruned

/-- Takes the port lease for a runner that the server starts, or a place in its queue. -/
def acquireLease (w : World) : Queue Bool :=
  if w.holdsLease then pure true
  else match w.acquired with
    | .failed => throw .leases
    | .queued => pure false
    | .held | .unavailable _ => pure true

/-- The end of `planLaunch`, where the queue holds the lease (`:698-708`). -/
def planOn (w : World) (key : JsString) (target : LandingTarget) :
    Queue (Option LandingRunnerRequest) := do
  let m ← get
  let failures := ((m.trouble.get? key).map QueueTrouble.failures).getD 0
  match m.pickMachine (m.pending key) (m.unreconciled key) failures with
  | none => do
    modify fun m => m.recordFailureFor key (w.now 3)
    return none
  | some machine => do
    let launch := newLaunch toLowerCase w target machine
    modify fun m => m.addLaunch launch
    save w 0
    modify fun m => { m with
      launching := m.launching.add key
      starting := m.starting ++ [{ launchId := launch.id, key := key }] }
    return some launch.request

/-- `planLaunch` (`:664-709`), which is what `pump` does before it waits for its runner. -/
def planLaunch (w : World) (key : JsString) : Queue (Option LandingRunnerRequest) := do
  let m ← get
  if m.launching.has key || (m.activeRun key).isSome then return none
  else match ((m.pending key).map LandingEntry.target ++
      (m.unreconciled key).map LandingRun.target).head? with
    | none => do
      modify fun m => m.clearTrouble key
      return none
    | some target => do
      let opened := m.launches.any fun launch =>
        launch.key = key && !launch.ended && launch.runId.isNone
      let early := (m.trouble.get? key).any fun trouble => w.now 0 < trouble.retryAt
      if opened || early then return none
      else do
        let acquired ← acquireLease w
        if acquired then planOn toLowerCase w key target else return none

/-- What `pump` does when `launchRunner` rejects (`:653-657`). -/
def startFailed (w : World) (launchId : JsString) : Queue Unit := do
  modify fun m => { m with starting := m.starting.map fun start =>
    if start.launchId = launchId then { start with failed := true } else start }
  let m ← get
  each (launchFailed w)
    ((m.launches.find? fun launch => launch.id = launchId).filter fun launch =>
      !launch.ended).toList

end Operations

/-! ## Runs -/

/-- An operation with what it is given, the end of a `pump`, or one owner told by `announce`. -/
inductive Operation where
  | submit (w : World) (input : LandingSubmitInput)
  | startRunnerByHand (w : World) (target : LandingTarget) (hostId : Option JsString)
      (baseCheckout : JsString)
  | claim (w : World) (runner : LandingRunnerCaller) (target : LandingTarget)
  | heartbeat (w : World) (runId : JsString) (runner : LandingRunnerCaller)
      (phase : Option JsString)
  | recordPlan (w : World) (runId : JsString) (runner : LandingRunnerCaller) (base tip : JsString)
      (mapping : Record (List LandingCommitMapping))
  | finish (w : World) (runId : JsString) (runner : LandingRunnerCaller) (report : LandingRunReport)
  | reconcile (w : World) (runId : JsString) (runner : LandingRunnerCaller) (pushed : Bool)
  | withdraw (w : World) (entryId callerSessionId : JsString) (callerIsLeaderOf : JsString → Bool)
  | runnerExited (w : World) (launchId : JsString)
  | sweep (now pruned : Nat) (ofRun ofLaunch : Nat → World) (started : Nat → Bool)
  | pump (w : World) (key : JsString)
  | startFailed (w : World) (launchId : JsString)
  | startSettled (launchId : JsString)
  | announce (entryId : JsString) (handled : Bool)

namespace LandingQueueManager

variable (m : LandingQueueManager)

/-- No id made of these random bytes has been drawn. -/
def isFresh (random : JsString) : Bool :=
  [js "le-", js "lr-", js "ll-"].all fun start => (start ++ random) ∉ m.drawn

/-- The `finally` of `pump` (`:659`). -/
def settleStart (launchId : JsString) : Option LandingQueueManager := do
  let start ← m.starting.find? fun start => start.launchId = launchId
  return { m with
    launching := m.launching.delete start.key
    starting := m.starting.filter fun start => start.launchId ≠ launchId }

/-- One round of `announce` (`:868-875`); `handled` is what `onEntryResolved` comes to. -/
def announce (entryId : JsString) (handled : Bool) : Option LandingQueueManager :=
  if entryId ∈ m.announcing then
    some { m with
      announcing := m.announcing.erase entryId
      resolvedCalls := m.resolvedCalls ++ [entryId]
      notified := if handled then m.notified else m.notified ++ [entryId] }
  else none

/-- The queue after an operation. An id that is drawn is a new one. -/
def perform (toLowerCase : JsString → JsString) : Operation → Option LandingQueueManager
  | .submit w input =>
    if m.isFresh w.random then some ((submit toLowerCase w input).after m) else none
  | .startRunnerByHand w target hostId baseCheckout =>
    if m.isFresh w.random then
      some ((startRunnerByHand toLowerCase w target hostId baseCheckout).after m)
    else none
  | .claim w runner target =>
    if m.isFresh w.random then some ((claim toLowerCase w runner target).after m) else none
  | .heartbeat w runId runner phase => some ((heartbeat w runId runner phase).after m)
  | .recordPlan w runId runner base tip mapping =>
    some ((recordPlan w runId runner base tip mapping).after m)
  | .finish w runId runner report => some ((finish w runId runner report).after m)
  | .reconcile w runId runner pushed =>
    some ((reconcile toLowerCase w runId runner pushed).after m)
  | .withdraw w entryId callerSessionId callerIsLeaderOf =>
    some ((withdraw w entryId callerSessionId callerIsLeaderOf).after m)
  | .runnerExited w launchId => some ((runnerExited w launchId).after m)
  | .sweep now pruned ofRun ofLaunch started =>
    some ((sweep now pruned ofRun ofLaunch started).after m)
  | .pump w key =>
    if m.isFresh w.random then some ((planLaunch toLowerCase w key).after m) else none
  | .startFailed w launchId =>
    if m.starting.any fun start => start.launchId = launchId && !start.failed then
      some ((startFailed w launchId).after m)
    else none
  | .startSettled launchId => m.settleStart launchId
  | .announce entryId handled => m.announce entryId handled

end LandingQueueManager

/-- The runs of a landing queue from the empty file. -/
def landingRuns (toLowerCase : JsString → JsString) : Machine LandingQueueManager Operation where
  start := {}
  step := fun m operation => m.perform toLowerCase operation

end Takode.LandingQueue
