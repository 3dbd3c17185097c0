import Takode.Lib.Machine
import Takode.RemoteHost.Manager
import Takode.RemoteHost.Agent

/-!
# A coordinator, its hosts and the sockets between them

One coordinator instance, any number of `takode node` instances and any number
of sockets. A socket is dialed by a host, accepted by the coordinator, and only
then open for the host. It delivers frames in order in each direction; at any
time it may lose a suffix of the frames in flight in one direction, and then
carries nothing more that way. Each side learns of a dead socket whenever it
does, so either may go on using one the other has given up.
-/

namespace Takode.RemoteHost

/-- A connection. `greeted` is history: a welcome was sent on it. -/
structure Socket where
  host : Uuid := 0
  dialed : Bool := false
  attached : Bool := false
  opened : Bool := false
  greeted : Bool := false
  up : List HostToCoordinator := []
  down : List CoordinatorToHost := []
  upCut : Bool := false
  downCut : Bool := false

structure World where
  manager : HostLinkManager
  agents : Uuid → HostAgent
  sockets : SocketId → Socket

/-- Whether a frame answers a `hello`. -/
def CoordinatorToHost.isWelcome : CoordinatorToHost → Bool
  | .welcome _ _ _ => true
  | _ => false

/-- Append what the coordinator sends to a socket, unless that direction is cut. -/
def Socket.pushDown (c : Socket) (frames : List CoordinatorToHost) : Socket :=
  { c with
    greeted := c.greeted || frames.any CoordinatorToHost.isWelcome
    down := if c.downCut then c.down else c.down ++ frames }

/-- Append what the host sends to a socket, unless that direction is cut. -/
def Socket.pushUp (c : Socket) (frames : List HostToCoordinator) : Socket :=
  { c with up := if c.upCut then c.up else c.up ++ frames }

namespace World

variable (w : World)

/-- Change one socket. -/
def onSocket (s : SocketId) (f : Socket → Socket) : World :=
  { w with sockets := Function.update w.sockets s (f (w.sockets s)) }

/-- The coordinator after a reaction: its frames go to the socket the link held. -/
def react (reaction : HostLinkManager × List CoordinatorToHost) : World :=
  let after : World := { w with manager := reaction.1 }
  match w.manager.link.socket with
  | some s => after.onSocket s fun c => c.pushDown reaction.2
  | none => after

/-- A host after a reaction: its frames go to its socket, if that is open (`send`). -/
def reply (h : Uuid) (reaction : HostAgent × List HostToCoordinator) : World :=
  let after : World := { w with agents := Function.update w.agents h reaction.1 }
  match reaction.1.socket with
  | some s => if reaction.1.socketOpen then after.onSocket s fun c => c.pushUp reaction.2 else after
  | none => after

theorem sockets_onSocket (s t : SocketId) (f : Socket → Socket) :
    (w.onSocket s f).sockets t = if t = s then f (w.sockets s) else w.sockets t := by
  simp only [onSocket, Function.update_apply]

@[simp] theorem manager_onSocket (s : SocketId) (f : Socket → Socket) :
    (w.onSocket s f).manager = w.manager := rfl

@[simp] theorem agents_onSocket (s : SocketId) (f : Socket → Socket) :
    (w.onSocket s f).agents = w.agents := rfl

variable (r : HostLinkManager × List CoordinatorToHost)

@[simp] theorem manager_react : (w.react r).manager = r.1 := by
  unfold react
  dsimp only
  split <;> rfl

@[simp] theorem agents_react : (w.react r).agents = w.agents := by
  unfold react
  dsimp only
  split <;> rfl

theorem sockets_react (t : SocketId) :
    (w.react r).sockets t =
      if w.manager.link.socket = some t then (w.sockets t).pushDown r.2 else w.sockets t := by
  cases held : w.manager.link.socket with
  | none => simp [react, held]
  | some s =>
    simp only [react, held, sockets_onSocket, Option.some.injEq]
    by_cases same : t = s
    · subst same
      simp
    · simp [same, Ne.symm same]

theorem sockets_react_cases {P : Socket → Prop} (t : SocketId)
    (pushed : w.manager.link.socket = some t → P ((w.sockets t).pushDown r.2))
    (kept : P (w.sockets t)) : P ((w.react r).sockets t) := by
  rw [sockets_react]
  split
  · exact pushed ‹_›
  · exact kept

theorem sockets_react_field {α : Type} (field : Socket → α) (t : SocketId)
    (unchanged : field ((w.sockets t).pushDown r.2) = field (w.sockets t)) :
    field ((w.react r).sockets t) = field (w.sockets t) :=
  w.sockets_react_cases r (P := (field · = field (w.sockets t))) t (fun _ => unchanged) rfl

variable (h : Uuid) (r : HostAgent × List HostToCoordinator)

@[simp] theorem manager_reply : (w.reply h r).manager = w.manager := by
  unfold reply
  dsimp only
  split
  · split <;> rfl
  · rfl

@[simp] theorem agents_reply : (w.reply h r).agents = Function.update w.agents h r.1 := by
  unfold reply
  dsimp only
  split
  · split <;> rfl
  · rfl

theorem sockets_reply (t : SocketId) :
    (w.reply h r).sockets t =
      if r.1.socket = some t ∧ r.1.socketOpen = true then (w.sockets t).pushUp r.2
      else w.sockets t := by
  cases held : r.1.socket with
  | none => simp [reply, held]
  | some s =>
    cases isOpen : r.1.socketOpen with
    | false => simp [reply, held, isOpen]
    | true =>
      simp only [reply, held, isOpen, if_true, sockets_onSocket, Option.some.injEq, and_true]
      by_cases same : t = s
      · subst same
        simp
      · simp [same, Ne.symm same]

theorem sockets_reply_cases {P : Socket → Prop} (t : SocketId)
    (pushed : r.1.socket = some t → r.1.socketOpen = true → P ((w.sockets t).pushUp r.2))
    (kept : P (w.sockets t)) : P ((w.reply h r).sockets t) := by
  rw [sockets_reply]
  split
  · rename_i sends
    exact pushed sends.1 sends.2
  · exact kept

theorem sockets_reply_field {α : Type} (field : Socket → α) (t : SocketId)
    (unchanged : field ((w.sockets t).pushUp r.2) = field (w.sockets t)) :
    field ((w.reply h r).sockets t) = field (w.sockets t) :=
  w.sockets_reply_cases h r (P := (field · = field (w.sockets t))) t (fun _ _ => unchanged) rfl

theorem sockets_onSocket_field {α : Type} (field : Socket → α) (s t : SocketId)
    (f : Socket → Socket) (unchanged : ∀ c, field (f c) = field c) :
    field ((w.onSocket s f).sockets t) = field (w.sockets t) := by
  rw [sockets_onSocket]
  split
  · rename_i same
    rw [unchanged, same]
  · rfl

end World

/-- What the rest of the coordinator, or a timer, makes the link manager do. Arguments carry
every choice that the code leaves to its environment, such as fresh identifiers. -/
inductive CoordinatorAction where
  /-- `spawn` or `spawnTerminal`. -/
  | startProcess (procId : ProcId) (command : HostCommand)
  | adopt (procId : ProcId)
  /-- `writeFileInOrder` and the commands of a `RemoteProcess`. -/
  | enqueue (command : HostCommand)
  | release
  | requestUpdate (commit : Commit)
  | sendUpdate (instanceId : Option Uuid) (commit : Commit) (ready : Bool)
  | updateTimeout
  | flushAcks (s : SocketId)
  | claimEpoch (epoch : Nat)

def HostLinkManager.act (m : HostLinkManager) :
    CoordinatorAction → Option (HostLinkManager × List CoordinatorToHost)
  | .startProcess procId command =>
    if command.starts? = some procId ∧ procId ∉ m.drawn then some (m.startProcess procId command)
    else none
  | .adopt procId => if procId ∉ m.drawn then some (m.adopt procId, []) else none
  | .enqueue command => if command.starts? = none then some (m.enqueue command) else none
  | .release => some (m.release, [])
  | .requestUpdate commit => some (m.requestUpdate commit, [])
  | .sendUpdate instanceId commit ready => some (m.sendUpdate instanceId commit ready)
  | .updateTimeout => some m.updateTimeout
  | .flushAcks s => some (m.flushAcks s)
  | .claimEpoch epoch => some ({ m with epoch := epoch }, [])

/-- What the children of a host, or an answered request, make its agent do. -/
inductive HostAction where
  /-- An answered `prepare_codex` request. -/
  | prepareLaunch (launchId : Uuid)
  | updateFails (commit : Commit)
  | childSpawned (procId : ProcId) (pid : Option Nat)
  | childError (procId : ProcId) (message : JsString)
  | childEvent (procId : ProcId) (event : HostedEvent)

def HostAgent.act (a : HostAgent) : HostAction → HostAgent × List HostToCoordinator
  | .prepareLaunch launchId => ({ a with preparedLaunches := launchId :: a.preparedLaunches }, [])
  | .updateFails commit => a.updateFails commit
  | .childSpawned procId pid => a.childSpawned procId pid
  | .childError procId message => a.childError procId message
  | .childEvent procId event => a.childEvent procId event

inductive Action where
  /-- `HostAgent.connect`. -/
  | dial (h : Uuid) (s : SocketId)
  /-- `HostLinkManager.attach`. -/
  | accept (s : SocketId)
  /-- `socket.onopen` on the host. -/
  | socketOpens (h : Uuid) (s : SocketId)
  /-- The host gives up its socket. -/
  | hangUp (h : Uuid)
  /-- The coordinator gives up the link's socket. -/
  | detach (s : SocketId)
  /-- All but the first `n` frames in flight are lost, and all later ones. -/
  | loseUp (s : SocketId) (n : Nat)
  | loseDown (s : SocketId) (n : Nat)
  | deliverUp (s : SocketId)
  | deliverDown (s : SocketId) (start : StartResult)
  | coordinator (action : CoordinatorAction)
  | host (h : Uuid) (action : HostAction)

namespace World

variable (w : World)

/-- The first frame of a direction handled or dropped: a side ignores a socket that is not
its current one. -/
def deliverUp (s : SocketId) : Option World :=
  match (w.sockets s).up with
  | [] => none
  | frame :: rest =>
    let popped := w.onSocket s fun c => { c with up := rest }
    if (w.sockets s).attached then
      if w.manager.link.socket = some s then some (popped.react (w.manager.handleMessage s frame))
      else some popped
    else none

@[inherit_doc deliverUp]
def deliverDown (s : SocketId) (start : StartResult) : Option World :=
  match (w.sockets s).down with
  | [] => none
  | frame :: rest =>
    let popped := w.onSocket s fun c => { c with down := rest }
    let h := (w.sockets s).host
    let agent := w.agents h
    if agent.socket = some s then
      if agent.socketOpen then some (popped.reply h (agent.handleMessage start frame)) else none
    else some popped

/-- One step. -/
def step (w : World) : Action → Option World
  | .dial h s =>
    if (w.agents h).socket = none ∧ !(w.agents h).stopped ∧ !(w.sockets s).dialed then
      some { (w.onSocket s fun _ => { host := h, dialed := true }) with
        agents := Function.update w.agents h ((w.agents h).connect s) }
    else none
  | .accept s =>
    if (w.sockets s).dialed ∧ !(w.sockets s).attached then
      some { (w.onSocket s fun c => { c with attached := true }) with
        manager := w.manager.attach s }
    else none
  | .socketOpens h s =>
    if (w.agents h).socket = some s ∧ !(w.agents h).socketOpen ∧ (w.sockets s).attached
        ∧ !(w.sockets s).opened then
      some ((w.onSocket s fun c => { c with opened := true }).reply h (w.agents h).onOpen)
    else none
  | .hangUp h => some { w with agents := Function.update w.agents h (w.agents h).onClose }
  | .detach s => some { w with manager := w.manager.detach s }
  | .loseUp s n => some (w.onSocket s fun c => { c with up := c.up.take n, upCut := true })
  | .loseDown s n => some (w.onSocket s fun c => { c with down := c.down.take n, downCut := true })
  | .deliverUp s => w.deliverUp s
  | .deliverDown s start => w.deliverDown s start
  | .coordinator action => (w.manager.act action).map w.react
  | .host h action => some (w.reply h ((w.agents h).act action))

end World

/-- A coordinator that just started and hosts that just started, none of them connected. -/
def hostLink (instanceId : Uuid) : Machine World Action where
  start :=
    { manager := { instanceId := instanceId }
      agents := fun h => { instanceId := h }
      sockets := fun _ => {} }
  step := World.step

end Takode.RemoteHost
