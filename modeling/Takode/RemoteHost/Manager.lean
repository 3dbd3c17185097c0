import Takode.RemoteHost.Protocol

/-!
# The coordinator's side of a host link

`HostLinkManager` (`host-link-manager.ts`) for one registered host: the links of
different hosts share nothing but the coordinator's instance id. Every frame the
manager sends goes to the socket the link holds, so a function returns the state
after it and the frames it sends there. When an update is due (clocks, blockers,
`prepare_update`) is left to the environment; what it does to the link is not.
-/

namespace Takode.RemoteHost

abbrev SocketId := Nat

/-- `RemoteProcess` (`host-link-manager.ts:886-1000`) while the link tracks it. `finish`
removes it from the link at once, so a tracked process has `exited = false`. `received`
lists the events `apply` was called with, oldest first. -/
structure RemoteProcess where
  started : Bool := false
  lastEventSeq : Nat := 0
  received : List HostedEvent := []
  deriving DecidableEq, Repr

/-- `RemoteProcess.apply` (`:932-957`); `none` once `finish` has run. -/
def RemoteProcess.apply (proc : RemoteProcess) (event : HostedEvent) : Option RemoteProcess :=
  match event with
  | .spawned _ => some { proc with started := true, received := proc.received ++ [event] }
  | .stdout _ | .stderr _ | .error _ => some { proc with received := proc.received ++ [event] }
  | .exit _ _ => none

/-- `HostLink` (`:123-179`). -/
structure HostLink where
  socket : Option SocketId := none
  online : Bool := false
  /-- The `takode node` instance currently or last connected. -/
  hostInstanceId : Option Uuid := none
  /-- Commit the current host instance was asked to switch to. -/
  updateRequested : Option Commit := none
  /-- The update was sent: commands wait for the next instance. -/
  updateSent : Bool := false
  nextCommandSeq : Nat := 1
  unacked : List QueuedCommand := []
  processes : JsMap ProcId RemoteProcess := ∅

/-- `HostLinkManager` with its one link. The last four fields are history: the commands
enqueued, oldest first, the process ids in use, which processes emitted `exit`, and
whether `release` has filtered the queue since the numbering last started over. -/
structure HostLinkManager where
  instanceId : Uuid
  epoch : Nat := 0
  link : HostLink := {}
  /-- Highest event sequence per process to acknowledge on each socket. -/
  pendingAcks : SocketId → JsMap ProcId Nat := fun _ => ∅
  issued : List HostCommand := []
  drawn : List ProcId := []
  exits : List ProcId := []
  released : Bool := false

namespace HostLinkManager

variable (m : HostLinkManager)

/-- `attach` (`:280-288`): the new socket replaces the old one; `online` stays as it is. -/
def attach (socket : SocketId) : HostLinkManager :=
  { m with link := { m.link with socket := some socket } }

/-- `detach` (`:290-295`); `disconnect`, the heartbeat timeout and an undecodable message
have the same effect on the link. -/
def detach (socket : SocketId) : HostLinkManager :=
  if m.link.socket = some socket then
    { m with link := { m.link with socket := none, online := false } }
  else m

/-- `enqueue` (`:791-796`). -/
def enqueue (command : HostCommand) : HostLinkManager × List CoordinatorToHost :=
  let queued : QueuedCommand := ⟨m.link.nextCommandSeq, command, m.issued.length⟩
  ({ m with
      issued := m.issued ++ [command]
      link := { m.link with
        nextCommandSeq := m.link.nextCommandSeq + 1
        unacked := m.link.unacked ++ [queued] } },
    if m.link.online && m.link.socket.isSome && !m.link.updateSent then [.command queued] else [])

/-- `startProcess` (`:507-516`) for a process id just drawn. -/
def startProcess (procId : ProcId) (startCommand : HostCommand) :
    HostLinkManager × List CoordinatorToHost :=
  enqueue
    { m with
      drawn := procId :: m.drawn
      link := { m.link with processes := m.link.processes.set procId {} } }
    startCommand

/-- `RemoteProcess.finish` (`:971-979`), which `fail` ends with, on the tracked processes that
`lost` selects: each emits `exit`, and its listener removes it from the link. -/
def finishProcesses (lost : ProcId → RemoteProcess → Bool) : HostLinkManager :=
  { m with
    exits := m.exits ++ (m.link.processes.filter lost).keys
    link := { m.link with processes := m.link.processes.filter fun p proc => !lost p proc } }

/-- `adopt` (`:525-533`). Once a host instance has connected, the microtask fails the
process before anything else runs. -/
def adopt (procId : ProcId) : HostLinkManager :=
  let tracked : HostLinkManager :=
    { m with
      drawn := procId :: m.drawn
      link := { m.link with processes := m.link.processes.set procId { started := true } } }
  if m.link.hostInstanceId.isSome then tracked.finishProcesses fun p _ => p = procId else tracked

/-- `release` (`:540-545`). -/
def release : HostLinkManager :=
  if m.link.online then m
  else
    finishProcesses
      { m with
        released := true
        link := { m.link with
          unacked := m.link.unacked.filter fun queued => queued.command.procId?.isNone } }
      fun _ _ => true

/-- `unacked` with the numbering started over (`.map((queued, index) => ...)`, `:579`). -/
def renumber (unacked : List QueuedCommand) : List QueuedCommand :=
  unacked.mapIdx fun index queued => { queued with seq := index + 1 }

/-- The branch of `handleHello` for another host instance than the last one (`:563-593`). -/
def restart (hello : Hello) : HostLinkManager :=
  let firstContact := m.link.hostInstanceId.isNone
  let running := if firstContact then hello.processes.getD [] else []
  let failed := m.finishProcesses fun p proc => proc.started && !running.contains p
  let unacked := renumber <| failed.link.unacked.filter fun queued =>
    match queued.command.procId? with
    | none => true
    | some p => failed.link.processes.has p
  { failed with
    released := false
    link := { failed.link with
      unacked := unacked
      nextCommandSeq := unacked.length + 1
      hostInstanceId := some hello.instanceId
      updateRequested := none
      updateSent := false } }

/-- The commands `handleHello` sends after the welcome (`:612-617`). -/
def resent (hello : Hello) : List QueuedCommand :=
  let applied := if hello.appliedFrom = some m.instanceId then hello.appliedCommandSeq else 0
  if m.link.updateSent then [] else m.link.unacked.filter fun queued => applied < queued.seq

/-- The frames `handleHello` answers with (`:597-624`). -/
def greeting (hello : Hello) (sameInstance : Bool) : List CoordinatorToHost :=
  .welcome m.instanceId m.epoch (m.link.processes.map fun _ proc => proc.lastEventSeq)
    :: (m.resent hello).map .command
    ++ match m.link.updateRequested with
      | some commit => if sameInstance && m.link.updateSent then [.update commit] else []
      | none => []

/-- `handleHello` (`:547-629`). -/
def handleHello (hello : Hello) : HostLinkManager × List CoordinatorToHost :=
  if hello.protocol ≠ hostProtocolVersion then (m, [.rejected])
  else
    let sameInstance := m.link.hostInstanceId = some hello.instanceId
    let known := if sameInstance then m else m.restart hello
    ({ known with link := { known.link with online := true } }, known.greeting hello sameInstance)

/-- `acknowledge` (`:764-772`). -/
def acknowledge (socket : SocketId) (procId : ProcId) (seq : Nat) : HostLinkManager :=
  let acks := m.pendingAcks socket
  { m with
    pendingAcks := Function.update m.pendingAcks socket
      (acks.set procId (max seq ((acks.get? procId).getD 0))) }

/-- `handleEvent` (`:739-757`). -/
def handleEvent (socket : SocketId) (procId : ProcId) (seq : Nat) (event : HostedEvent) :
    HostLinkManager :=
  match m.link.processes.get? procId with
  | none => m.acknowledge socket procId seq
  | some proc =>
    if seq = proc.lastEventSeq + 1 then
      match { proc with lastEventSeq := seq }.apply event with
      | some applied =>
        { m with link := { m.link with processes := m.link.processes.set procId applied } }
          |>.acknowledge socket procId seq
      | none => (m.finishProcesses fun p _ => p = procId).acknowledge socket procId seq
    else if seq ≤ proc.lastEventSeq then m.acknowledge socket procId seq
    else m

/-- `flushAcks` (`:774-780`). -/
def flushAcks (socket : SocketId) : HostLinkManager × List CoordinatorToHost :=
  ({ m with pendingAcks := Function.update m.pendingAcks socket ∅ },
    if m.link.socket = some socket then
      (m.pendingAcks socket).entries.map fun ack => .eventAck ack.1 ack.2
    else [])

/-- `case "command_ack"` of `handleMessage` (`:318-320`). -/
def handleCommandAck (seq : Nat) : HostLinkManager :=
  { m with link := { m.link with
      unacked := m.link.unacked.filter fun queued => seq < queued.seq } }

/-- `abandonUpdate` (`:397-407`). -/
def abandonUpdate : HostLinkManager × List CoordinatorToHost :=
  ({ m with link := { m.link with updateSent := false } },
    if m.link.online && m.link.socket.isSome then m.link.unacked.map .command else [])

/-- `handleMessage` (`:297-339`) for a message on the socket the link holds. -/
def handleMessage (socket : SocketId) :
    HostToCoordinator → HostLinkManager × List CoordinatorToHost
  | .hello hello => m.handleHello hello
  | .event procId seq event => (m.handleEvent socket procId seq event, [])
  | .commandAck seq => (m.handleCommandAck seq, [])
  | .updateFailed commit =>
    if m.link.updateRequested = some commit then m.abandonUpdate else (m, [])

/-- The start of an update in `maybeUpdate` (`:673-674`). -/
def requestUpdate (commit : Commit) : HostLinkManager :=
  { m with link := { m.link with updateRequested := some commit } }

/-- The end of `maybeUpdate` (`:680-694`), once the sessions of the instance that was asked
are stopped (`ready`) or the update is called off. -/
def sendUpdate (instanceId : Option Uuid) (commit : Commit) (ready : Bool) :
    HostLinkManager × List CoordinatorToHost :=
  if m.link.hostInstanceId ≠ instanceId ∨ m.link.updateRequested ≠ some commit then (m, [])
  else if !ready || !m.link.online || m.link.socket.isNone then
    ({ m with link := { m.link with updateRequested := none } }, [])
  else ({ m with link := { m.link with updateSent := true } }, [.update commit])

/-- The update check of `tick` (`:850-853`): the host did not come back in time. -/
def updateTimeout : HostLinkManager × List CoordinatorToHost :=
  if m.link.updateSent then m.abandonUpdate else (m, [])

end HostLinkManager

end Takode.RemoteHost
