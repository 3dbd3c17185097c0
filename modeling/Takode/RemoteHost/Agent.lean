import Takode.RemoteHost.Protocol

/-!
# The host's side of a host link

`HostAgent` (`host-agent.ts`): one `takode node` process. A function returns the
agent after it and the frames it sends on its socket, which `send` drops unless
the socket is open. A child process is known here only by the events its
listeners record; what the operating system makes of a `spawn` is an argument.
-/

namespace Takode.RemoteHost

structure PendingEvent where
  seq : Nat
  event : HostedEvent
  deriving DecidableEq, Repr

/-- `HostedProcess` (`host-agent.ts:109-122`), with the local `spawned` of `spawn`'s
listeners (`:574`). `pruned` is history: the stdout that left `pending` since the process
started or a coordinator took it over. -/
structure HostedProcess where
  nextSeq : Nat := 1
  /-- Events the coordinator has not acknowledged yet, oldest first. -/
  pending : List PendingEvent := []
  /-- Acknowledged stdout after its last newline. -/
  unfinishedLine : Bytes := []
  exited : Bool := false
  spawned : Bool := false
  pruned : Bytes := []
  deriving DecidableEq, Repr

/-- The stdout of a list of events. -/
def stdoutOf (pending : List PendingEvent) : Bytes := pending.flatMap fun p => p.event.stdoutBytes

/-- What is left of a process's events once those up to `seq` are known to have arrived. -/
def HostedProcess.prune (seq : Nat) (hosted : HostedProcess) : HostedProcess :=
  { hosted with
    pending := hosted.pending.filter fun p => seq < p.seq
    pruned := hosted.pruned ++ stdoutOf (hosted.pending.filter fun p => p.seq ≤ seq) }

/-- What starting a child comes to: it runs, or starting it throws. -/
inductive StartResult where
  | started
  | failed (message : JsString)
  deriving DecidableEq, Repr

/-- `HostAgent` (`:138-172`). `socketOpen` is the `OPEN` ready state of the current socket.
The last two fields are history: the tickets of the commands `apply` was called with, and
the events `emit` recorded for each process. -/
structure HostAgent where
  instanceId : Nat
  socket : Option Nat := none
  socketOpen : Bool := false
  coordinatorInstanceId : Option Uuid := none
  /-- Highest coordinator epoch seen by this `takode node` process. -/
  highestEpoch : Nat := 0
  appliedCommandSeq : Nat := 0
  processes : JsMap ProcId HostedProcess := ∅
  preparedLaunches : List Uuid := []
  updating : Bool := false
  stopped : Bool := false
  applied : List Nat := []
  emitted : ProcId → List HostedEvent := fun _ => []

/-- The newline byte. -/
def newline : UInt8 := 0x0a

/-- The bytes after the last newline of `bytes`; all of them when there is none. -/
def afterLastNewline : Bytes → Bytes
  | [] => []
  | b :: rest =>
    if newline ∈ rest then afterLastNewline rest
    else if b = newline then rest
    else b :: rest

/-- `lineRemainder` (`:857-862`). -/
def lineRemainder (previous : Bytes) (data : JsString) : Bytes :=
  let chunk := fromBase64 data
  if newline ∈ chunk then afterLastNewline chunk else previous ++ chunk

/-- The text of the error for a prepared launch that is gone (`:521`). -/
def preparedLaunchGone : JsString :=
  "The prepared launch is gone; the host may have restarted".toList.map fun c => c.val.toUInt16

namespace HostAgent

variable (a : HostAgent)

/-- `connected` (`:196-198`). -/
def connected : Bool := a.socket.isSome && a.socketOpen && a.coordinatorInstanceId.isSome

/-- `connect` (`:200-210`): a new socket that is not open yet. -/
def connect (socket : Nat) : HostAgent := { a with socket := some socket, socketOpen := false }

/-- `socket.onopen` (`:211-237`). -/
def onOpen : HostAgent × List HostToCoordinator :=
  ({ a with socketOpen := true },
    [.hello {
      protocol := hostProtocolVersion
      instanceId := a.instanceId
      appliedCommandSeq := a.appliedCommandSeq
      appliedFrom := a.coordinatorInstanceId
      processes := some a.processes.keys }])

/-- `socket.onclose` (`:258-263`), the heartbeat timeout and a close from this side. -/
def onClose : HostAgent := { a with socket := none, socketOpen := false }

/-- `emit` (`:614-621`). -/
def emit (procId : ProcId) (event : HostedEvent) : HostAgent × List HostToCoordinator :=
  match a.processes.get? procId with
  | none => (a, [])
  | some hosted =>
    if hosted.exited then (a, [])
    else
      let seq := hosted.nextSeq
      let recorded : HostedProcess :=
        { hosted with
          exited := event.isExit
          nextSeq := seq + 1
          pending := hosted.pending ++ [⟨seq, event⟩] }
      ({ a with
          processes := a.processes.set procId recorded
          emitted := Function.update a.emitted procId (a.emitted procId ++ [event]) },
        if a.connected then [.event procId seq event] else [])

/-- Several `emit` calls for one process. -/
def emitAll (procId : ProcId) : HostAgent → List HostedEvent → HostAgent × List HostToCoordinator
  | a, [] => (a, [])
  | a, event :: rest =>
    let first := a.emit procId event
    let others := emitAll procId first.1 rest
    (others.1, first.2 ++ others.2)

/-- The `error` and `exit` of a child that did not start. -/
def startFailure (message : JsString) : List HostedEvent := [.error message, .exit none none]

/-- `spawn` (`:502-574`) up to the registration of the child's listeners. -/
def spawn (procId : ProcId) (preparedLaunchId : Option Uuid) (start : StartResult) :
    HostAgent × List HostToCoordinator :=
  let registered : HostAgent :=
    { a with
      processes := a.processes.set procId {}
      preparedLaunches := match preparedLaunchId with
        | some id => a.preparedLaunches.filter (· ≠ id)
        | none => a.preparedLaunches }
  let gone := match preparedLaunchId with
    | some id => !a.preparedLaunches.contains id
    | none => false
  if gone then emitAll procId registered (startFailure preparedLaunchGone)
  else
    match start with
    | .started => (registered, [])
    | .failed message => emitAll procId registered (startFailure message)

/-- `spawnTerminal` (`:576-603`). -/
def spawnTerminal (procId : ProcId) (start : StartResult) : HostAgent × List HostToCoordinator :=
  match start with
  | .started =>
    { a with processes := a.processes.set procId { spawned := true } }.emit procId (.spawned none)
  | .failed message =>
    emitAll procId { a with processes := a.processes.set procId {} } (startFailure message)

/-- `apply` (`:470-500`). Input, signals and sizes go to the child and change nothing here. -/
def apply (start : StartResult) : HostCommand → HostAgent × List HostToCoordinator
  | .spawn procId preparedLaunchId => a.spawn procId preparedLaunchId start
  | .spawnTerminal procId _ _ => a.spawnTerminal procId start
  | _ => (a, [])

/-- `case "command"` of `handleMessage` (`:313-322`). -/
def handleCommand (start : StartResult) (queued : QueuedCommand) :
    HostAgent × List HostToCoordinator :=
  if queued.seq ≤ a.appliedCommandSeq then (a, [.commandAck queued.seq])
  else if queued.seq ≠ a.appliedCommandSeq + 1 then (a, [])
  else
    let done := a.apply start queued.command
    ({ done.1 with
        appliedCommandSeq := queued.seq
        applied := done.1.applied ++ [queued.ticket] },
      done.2 ++ [.commandAck queued.seq])

/-- `forgetIfDone` (`:623-625`). -/
def forgetIfDone (procId : ProcId) (hosted : HostedProcess) : HostAgent :=
  if hosted.exited && hosted.pending.isEmpty then
    { a with processes := a.processes.delete procId }
  else { a with processes := a.processes.set procId hosted }

/-- The partial line after one more acknowledged event. -/
def foldLine (line : Bytes) (p : PendingEvent) : Bytes :=
  match p.event with
  | .stdout data => lineRemainder line data
  | _ => line

/-- The loop of `case "event_ack"` (`:326-329`): the acknowledged stdout, folded into the
partial line, up to the first event that is not acknowledged. -/
def foldAcknowledged (seq : Nat) (hosted : HostedProcess) : Bytes :=
  (hosted.pending.takeWhile fun p => p.seq ≤ seq).foldl foldLine hosted.unfinishedLine

/-- `case "event_ack"` of `handleMessage` (`:323-333`). -/
def handleEventAck (procId : ProcId) (seq : Nat) : HostAgent :=
  match a.processes.get? procId with
  | none => a
  | some hosted =>
    a.forgetIfDone procId
      { hosted.prune seq with unfinishedLine := foldAcknowledged seq hosted }

/-- What a hosted process becomes for a new coordinator: what is pending, after the partial
line, numbered from 1. -/
def carryOver (hosted : HostedProcess) : HostedProcess :=
  let events := hosted.pending.map PendingEvent.event
  let events := if hosted.unfinishedLine.isEmpty then events
    else .stdout (toBase64 hosted.unfinishedLine) :: events
  { hosted with
    unfinishedLine := []
    pending := events.mapIdx fun index event => ⟨index + 1, event⟩
    nextSeq := events.length + 1
    pruned := [] }

/-- The pending events of every process, as sent after a welcome. -/
def replay : List HostToCoordinator :=
  a.processes.entries.flatMap fun entry =>
    entry.2.pending.map fun p => .event entry.1 p.seq p.event

/-- `adoptBy` (`:407-429`). -/
def adoptBy (coordinatorInstanceId : Uuid) (received : JsMap ProcId Nat) :
    HostAgent × List HostToCoordinator :=
  let adopted : HostAgent :=
    { a with
      coordinatorInstanceId := some coordinatorInstanceId
      appliedCommandSeq := 0
      preparedLaunches := []
      processes := a.processes.filterMap fun procId hosted =>
        (received.get? procId).map fun _ => carryOver hosted }
  (adopted, adopted.replay)

/-- `handleWelcome` (`:378-398`). -/
def handleWelcome (coordinatorInstanceId : Uuid) (received : JsMap ProcId Nat) :
    HostAgent × List HostToCoordinator :=
  if a.coordinatorInstanceId ≠ some coordinatorInstanceId then
    a.adoptBy coordinatorInstanceId received
  else
    let kept : HostAgent :=
      { a with
        processes := a.processes.filterMap fun procId hosted =>
          (received.get? procId).map fun lastReceived => hosted.prune lastReceived }
    (kept, kept.replay)

/-- `applyUpdate` (`:365-376`) up to the switch itself. -/
def applyUpdate : HostAgent := { a with updating := true }

/-- The failure branch of `applyUpdate` (`:370-375`). -/
def updateFails (commit : Commit) : HostAgent × List HostToCoordinator :=
  if a.updating then ({ a with updating := false }, [.updateFailed commit]) else (a, [])

/-- `handleMessage` (`:294-357`). -/
def handleMessage (start : StartResult) : CoordinatorToHost → HostAgent × List HostToCoordinator
  | .welcome instanceId epoch received =>
    -- A coordinator that was replaced by a newer start must not drive processes here.
    if epoch < a.highestEpoch then (a.onClose, [])
    else { a with highestEpoch := epoch }.handleWelcome instanceId received
  | .command queued => a.handleCommand start queued
  | .eventAck procId seq => (a.handleEventAck procId seq, [])
  | .rejected => ({ a.onClose with stopped := true }, [])
  | .update _ => (a.applyUpdate, [])

/-- `child.once("spawn")` (`:575-578`). -/
def childSpawned (procId : ProcId) (pid : Option Nat) : HostAgent × List HostToCoordinator :=
  match a.processes.get? procId with
  | none => (a, [])
  | some hosted =>
    if hosted.spawned then (a, [])
    else
      { a with processes := a.processes.set procId { hosted with spawned := true } }.emit procId
        (.spawned pid)

/-- `child.once("error")` (`:585-589`). -/
def childError (procId : ProcId) (message : JsString) : HostAgent × List HostToCoordinator :=
  match a.processes.get? procId with
  | none => (a, [])
  | some hosted =>
    emitAll procId a (if hosted.spawned then [.error message] else startFailure message)

/-- The output, exit and terminal listeners (`:579-584`, `:590`). A child writes and closes
only after its `spawn` event. -/
def childEvent (procId : ProcId) (event : HostedEvent) : HostAgent × List HostToCoordinator :=
  match a.processes.get? procId with
  | none => (a, [])
  | some hosted => if hosted.spawned then a.emit procId event else (a, [])

end HostAgent

end Takode.RemoteHost
