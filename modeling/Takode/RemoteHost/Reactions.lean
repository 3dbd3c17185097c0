import Takode.RemoteHost.Network

/-!
# What a reaction can change

One lemma per reaction of the manager and of an agent, which says everything it
can do to the command queue, the socket and the frames sent. The invariants of
the link are proved from these, not from the definitions.
-/

namespace Takode.RemoteHost

/-- The queued commands among the frames to a host. -/
def commandsOf (frames : List CoordinatorToHost) : List QueuedCommand :=
  frames.filterMap fun
    | .command queued => some queued
    | _ => none

@[simp] theorem commandsOf_nil : commandsOf [] = [] := rfl

@[simp] theorem commandsOf_append (xs ys : List CoordinatorToHost) :
    commandsOf (xs ++ ys) = commandsOf xs ++ commandsOf ys := by
  simp [commandsOf]

@[simp] theorem commandsOf_command (queued : QueuedCommand) (rest : List CoordinatorToHost) :
    commandsOf (.command queued :: rest) = queued :: commandsOf rest := rfl

@[simp] theorem commandsOf_map (queue : List QueuedCommand) :
    commandsOf (queue.map .command) = queue := by
  induction queue with
  | nil => rfl
  | cons q rest ih => simp [ih]

theorem commandsOf_eq_nil {frames : List CoordinatorToHost}
    (none : ∀ q, CoordinatorToHost.command q ∉ frames) : commandsOf frames = [] := by
  apply List.filterMap_eq_nil_iff.mpr
  intro frame inside
  cases frame with
  | command q => exact absurd inside (none q)
  | _ => rfl

theorem mem_commandsOf {frames : List CoordinatorToHost} {q : QueuedCommand} :
    q ∈ commandsOf frames ↔ .command q ∈ frames := by
  simp only [commandsOf, List.mem_filterMap]
  constructor
  · rintro ⟨frame, inside, isCommand⟩
    cases frame with
    | command q' => simpa [← Option.some.inj isCommand] using inside
    | _ => cases isCommand
  · intro inside
    exact ⟨_, inside, rfl⟩

def HostToCoordinator.isHello : HostToCoordinator → Bool
  | .hello _ => true
  | _ => false

/-- A frame that concerns neither the handshake nor a command. -/
def HostToCoordinator.plain : HostToCoordinator → Bool
  | .event _ _ _ | .updateFailed _ => true
  | _ => false

/-! ## The manager -/

/-- How a reaction other than a handshake changes the command queue; `acks` are the numbers
that it may take for acknowledged. -/
inductive Requeued (acks : Nat → Prop) (m m' : HostLinkManager) : Prop where
  | unchanged (queue : m'.link.unacked = m.link.unacked)
      (next : m'.link.nextCommandSeq = m.link.nextCommandSeq) (issued : m'.issued = m.issued)
      (released : m'.released = m.released)
  | acknowledged (n : Nat) (acked : acks n)
      (queue : m'.link.unacked = m.link.unacked.filter fun queued => n < queued.seq)
      (next : m'.link.nextCommandSeq = m.link.nextCommandSeq) (issued : m'.issued = m.issued)
      (released : m'.released = m.released)
  | released (offline : m.link.online = false) (kept : m'.link.unacked.Sublist m.link.unacked)
      (next : m'.link.nextCommandSeq = m.link.nextCommandSeq) (issued : m'.issued = m.issued)
      (released : m'.released = true)
  | appended (command : HostCommand)
      (queue : m'.link.unacked =
        m.link.unacked ++ [⟨m.link.nextCommandSeq, command, m.issued.length⟩])
      (next : m'.link.nextCommandSeq = m.link.nextCommandSeq + 1)
      (issued : m'.issued = m.issued ++ [command]) (released : m'.released = m.released)

/-- Commands leave the queue, or one is enqueued. -/
theorem Requeued.cases {acks : Nat → Prop} {m m' : HostLinkManager}
    (requeued : Requeued acks m m') :
    (m'.link.unacked.Sublist m.link.unacked ∧ m'.link.nextCommandSeq = m.link.nextCommandSeq ∧
      m'.issued = m.issued) ∨
    ∃ command, m'.link.unacked =
        m.link.unacked ++ [⟨m.link.nextCommandSeq, command, m.issued.length⟩] ∧
      m'.link.nextCommandSeq = m.link.nextCommandSeq + 1 ∧ m'.issued = m.issued ++ [command] := by
  cases requeued with
  | unchanged queue next issued => exact .inl ⟨queue ▸ .refl _, next, issued⟩
  | acknowledged n _ queue next issued =>
    exact .inl ⟨queue ▸ List.filter_sublist, next, issued⟩
  | released _ kept next issued => exact .inl ⟨kept, next, issued⟩
  | appended command queue next issued => exact .inr ⟨command, queue, next, issued⟩

/-- A reaction of the manager other than a handshake. -/
structure Calm (acks : Nat → Prop) (m : HostLinkManager)
    (r : HostLinkManager × List CoordinatorToHost) : Prop where
  socket : r.1.link.socket = m.link.socket
  online : r.1.link.online = m.link.online
  instanceId : r.1.instanceId = m.instanceId
  hostInstanceId : r.1.link.hostInstanceId = m.link.hostInstanceId
  queue : Requeued acks m r.1
  sent : (commandsOf r.2).Sublist r.1.link.unacked
  unwelcoming : ∀ frame ∈ r.2, frame.isWelcome = false

namespace HostLinkManager

variable {acks : Nat → Prop} (m : HostLinkManager)

theorem enqueue_calm (command : HostCommand) : Calm acks m (m.enqueue command) where
  socket := rfl
  online := rfl
  instanceId := rfl
  hostInstanceId := rfl
  queue := .appended command rfl rfl rfl rfl
  sent := by
    simp only [enqueue]
    split <;> simp
  unwelcoming := by
    simp only [enqueue]
    split <;> simp [CoordinatorToHost.isWelcome]

theorem startProcess_calm (procId : ProcId) (command : HostCommand) :
    Calm acks m (m.startProcess procId command) := by
  have enqueued := @enqueue_calm acks
    { m with
      drawn := procId :: m.drawn
      link := { m.link with processes := m.link.processes.set procId {} } } command
  exact ⟨rfl, rfl, rfl, rfl, .appended command rfl rfl rfl rfl, enqueued.sent, enqueued.unwelcoming⟩

theorem calm_of_silent {m m' : HostLinkManager} {frames : List CoordinatorToHost}
    (socket : m'.link.socket = m.link.socket) (online : m'.link.online = m.link.online)
    (instanceId : m'.instanceId = m.instanceId)
    (hostInstanceId : m'.link.hostInstanceId = m.link.hostInstanceId) (queue : Requeued acks m m')
    (silent : ∀ q, CoordinatorToHost.command q ∉ frames)
    (unwelcoming : ∀ frame ∈ frames, frame.isWelcome = false) : Calm acks m (m', frames) :=
  ⟨socket, online, instanceId, hostInstanceId, queue,
    by rw [commandsOf_eq_nil silent]; exact List.nil_sublist _, unwelcoming⟩

theorem calm_of_unsent {m m' : HostLinkManager}
    (socket : m'.link.socket = m.link.socket) (online : m'.link.online = m.link.online)
    (instanceId : m'.instanceId = m.instanceId)
    (hostInstanceId : m'.link.hostInstanceId = m.link.hostInstanceId) (queue : Requeued acks m m') :
    Calm acks m (m', []) :=
  calm_of_silent socket online instanceId hostInstanceId queue (by simp) (by simp)

theorem calm_refl : Calm acks m (m, []) := calm_of_unsent rfl rfl rfl rfl (.unchanged rfl rfl rfl rfl)

theorem adopt_calm (procId : ProcId) : Calm acks m (m.adopt procId, []) := by
  unfold adopt
  dsimp only
  split
  · exact calm_of_unsent rfl rfl rfl rfl (.unchanged rfl rfl rfl rfl)
  · exact calm_of_unsent rfl rfl rfl rfl (.unchanged rfl rfl rfl rfl)

theorem release_calm : Calm acks m (m.release, []) := by
  unfold release
  split
  · exact calm_refl m
  · exact calm_of_unsent rfl rfl rfl rfl
      (.released (by simp_all) List.filter_sublist rfl rfl rfl)

theorem abandonUpdate_calm : Calm acks m m.abandonUpdate where
  socket := rfl
  online := rfl
  instanceId := rfl
  hostInstanceId := rfl
  queue := .unchanged rfl rfl rfl rfl
  sent := by
    simp only [abandonUpdate]
    split <;> simp
  unwelcoming := by
    simp only [abandonUpdate]
    split <;> simp [CoordinatorToHost.isWelcome]

theorem flushAcks_calm (s : SocketId) : Calm acks m (m.flushAcks s) := by
  refine calm_of_silent rfl rfl rfl rfl (.unchanged rfl rfl rfl rfl) ?_ ?_
  · intro q inside
    split at inside
    · obtain ⟨ack, -, isCommand⟩ := List.mem_map.mp inside
      cases isCommand
    · cases inside
  · intro frame inside
    split at inside
    · obtain ⟨ack, -, rfl⟩ := List.mem_map.mp inside
      rfl
    · cases inside

theorem sendUpdate_calm (instanceId : Option Uuid) (commit : Commit) (ready : Bool) :
    Calm acks m (m.sendUpdate instanceId commit ready) := by
  unfold sendUpdate
  split
  · exact calm_refl m
  · split
    · exact calm_of_unsent rfl rfl rfl rfl (.unchanged rfl rfl rfl rfl)
    · exact calm_of_silent rfl rfl rfl rfl (.unchanged rfl rfl rfl rfl) (by simp)
        (by simp [CoordinatorToHost.isWelcome])

theorem act_calm {m : HostLinkManager} {action : CoordinatorAction}
    {r : HostLinkManager × List CoordinatorToHost} (done : m.act action = some r) :
    Calm (fun _ => False) m r := by
  cases action with
  | startProcess procId command =>
    simp only [act, Option.ite_none_right_eq_some, Option.some.injEq] at done
    exact done.2 ▸ startProcess_calm m procId command
  | adopt procId =>
    simp only [act, Option.ite_none_right_eq_some, Option.some.injEq] at done
    exact done.2 ▸ adopt_calm m procId
  | enqueue command =>
    simp only [act, Option.ite_none_right_eq_some, Option.some.injEq] at done
    exact done.2 ▸ enqueue_calm m command
  | release => exact Option.some.inj done ▸ release_calm m
  | requestUpdate commit =>
    exact Option.some.inj done ▸ calm_of_unsent rfl rfl rfl rfl (.unchanged rfl rfl rfl rfl)
  | sendUpdate instanceId commit ready =>
    exact Option.some.inj done ▸ sendUpdate_calm m instanceId commit ready
  | updateTimeout =>
    rw [← Option.some.inj done, updateTimeout]
    split
    · exact abandonUpdate_calm m
    · exact calm_refl m
  | flushAcks s => exact Option.some.inj done ▸ flushAcks_calm m s
  | claimEpoch epoch =>
    exact Option.some.inj done ▸ calm_of_unsent rfl rfl rfl rfl (.unchanged rfl rfl rfl rfl)

theorem handleEvent_calm (s : SocketId) (procId : ProcId) (seq : Nat) (event : HostedEvent) :
    Calm acks m (m.handleEvent s procId seq event, []) := by
  unfold handleEvent
  split
  · exact calm_of_unsent rfl rfl rfl rfl (.unchanged rfl rfl rfl rfl)
  · split
    · split
      · exact calm_of_unsent rfl rfl rfl rfl (.unchanged rfl rfl rfl rfl)
      · exact calm_of_unsent rfl rfl rfl rfl (.unchanged rfl rfl rfl rfl)
    · split
      · exact calm_of_unsent rfl rfl rfl rfl (.unchanged rfl rfl rfl rfl)
      · exact calm_refl m

theorem handleMessage_calm (s : SocketId) {frame : HostToCoordinator}
    (notHello : frame.isHello = false) :
    Calm (fun n => frame = .commandAck n) m (m.handleMessage s frame) := by
  cases frame with
  | hello hello => cases notHello
  | event procId seq event => exact handleEvent_calm m s procId seq event
  | commandAck seq =>
    exact calm_of_unsent rfl rfl rfl rfl (.acknowledged seq rfl rfl rfl rfl rfl)
  | updateFailed commit =>
    simp only [handleMessage]
    split
    · exact abandonUpdate_calm m
    · exact calm_refl m

/-- The frames that answer a `hello`: the welcome, then commands of the queue. -/
structure Greeting (m : HostLinkManager) (frames : List CoordinatorToHost)
    (received : JsMap ProcId Nat) (resent : List QueuedCommand)
    (update : List CoordinatorToHost) : Prop where
  frames : frames =
    .welcome m.instanceId m.epoch received :: (resent.map .command ++ update)
  resent : resent.Sublist m.link.unacked
  silent : commandsOf update = []
  unwelcoming : ∀ frame ∈ update, frame.isWelcome = false

/-- The commands of a greeting are those it sends again. -/
theorem Greeting.commands {m : HostLinkManager} {frames : List CoordinatorToHost}
    {received : JsMap ProcId Nat} {resent : List QueuedCommand} {update : List CoordinatorToHost}
    (greeting : Greeting m frames received resent update) : commandsOf frames = resent := by
  have welcome : ∀ rest : List CoordinatorToHost,
      commandsOf (.welcome m.instanceId m.epoch received :: rest) = commandsOf rest :=
    fun _ => rfl
  rw [greeting.frames, welcome, commandsOf_append, commandsOf_map, greeting.silent,
    List.append_nil]

theorem greeting_shape (hello : Hello) (sameInstance : Bool) :
    ∃ received update, Greeting m (m.greeting hello sameInstance) received (m.resent hello)
      update := by
  refine ⟨_, _, rfl, ?_, ?_, ?_⟩
  · simp only [resent]
    split
    · exact List.nil_sublist _
    · exact List.filter_sublist
  · split
    · split <;> rfl
    · rfl
  · split
    · split <;> simp [CoordinatorToHost.isWelcome]
    · simp

theorem handleHello_same {hello : Hello} (speaks : hello.protocol = hostProtocolVersion)
    (same : m.link.hostInstanceId = some hello.instanceId) :
    m.handleHello hello =
      ({ m with link := { m.link with online := true } }, m.greeting hello true) := by
  simp [handleHello, speaks, same]

theorem handleHello_other {hello : Hello} (speaks : hello.protocol = hostProtocolVersion)
    (other : m.link.hostInstanceId ≠ some hello.instanceId) :
    m.handleHello hello =
      ({ m.restart hello with link := { (m.restart hello).link with online := true } },
        (m.restart hello).greeting hello false) := by
  simp [handleHello, speaks, other]

/-- What the manager makes of the `hello` of a host that speaks its protocol. -/
structure Greets (m : HostLinkManager) (hello : Hello)
    (r : HostLinkManager × List CoordinatorToHost) : Prop where
  socket : r.1.link.socket = m.link.socket
  online : r.1.link.online = true
  instanceId : r.1.instanceId = m.instanceId
  hostInstanceId : r.1.link.hostInstanceId = some hello.instanceId
  issued : r.1.issued = m.issued
  /-- The same host instance keeps the numbering. -/
  same : m.link.hostInstanceId = some hello.instanceId →
    r.1.link.unacked = m.link.unacked ∧ r.1.link.nextCommandSeq = m.link.nextCommandSeq ∧
      r.1.released = m.released ∧ r.1.link.updateSent = m.link.updateSent
  /-- For another one it starts over with the commands that still have a purpose. -/
  other : m.link.hostInstanceId ≠ some hello.instanceId →
    ∃ kept : List QueuedCommand, kept.Sublist m.link.unacked ∧
      r.1.link.unacked = renumber kept ∧ r.1.link.nextCommandSeq = kept.length + 1 ∧
        r.1.released = false ∧ r.1.link.updateSent = false
  sent : ∃ received update, Greeting r.1 r.2 received (r.1.resent hello) update

theorem handleHello_greets {hello : Hello} (speaks : hello.protocol = hostProtocolVersion) :
    Greets m hello (m.handleHello hello) := by
  by_cases same : m.link.hostInstanceId = some hello.instanceId
  · obtain ⟨received, update, greeting⟩ := greeting_shape m hello true
    rw [handleHello_same m speaks same]
    exact ⟨rfl, rfl, rfl, same, rfl, fun _ => ⟨rfl, rfl, rfl, rfl⟩, fun other => absurd same other,
      received, update, greeting.frames, greeting.resent, greeting.silent,
      greeting.unwelcoming⟩
  · obtain ⟨received, update, greeting⟩ := greeting_shape (m.restart hello) hello false
    rw [handleHello_other m speaks same]
    refine ⟨rfl, rfl, rfl, rfl, rfl, fun eq => absurd eq same, fun _ => ?_,
      received, update, greeting.frames, greeting.resent, greeting.silent,
      greeting.unwelcoming⟩
    exact ⟨_, List.filter_sublist, rfl, by simp [restart, renumber, finishProcesses], rfl, rfl⟩

end HostLinkManager

/-! ## An agent -/

/-- A reaction of an agent that concerns neither the handshake nor a command. -/
structure AgentCalm (a : HostAgent) (r : HostAgent × List HostToCoordinator) : Prop where
  instanceId : r.1.instanceId = a.instanceId
  socket : r.1.socket = a.socket
  socketOpen : r.1.socketOpen = a.socketOpen
  coordinatorInstanceId : r.1.coordinatorInstanceId = a.coordinatorInstanceId
  appliedCommandSeq : r.1.appliedCommandSeq = a.appliedCommandSeq
  applied : r.1.applied = a.applied
  plain : ∀ frame ∈ r.2, frame.plain = true

theorem HostToCoordinator.isHello_of_plain {frame : HostToCoordinator} (plain : frame.plain = true) :
    frame.isHello = false := by
  cases frame <;> simp_all [HostToCoordinator.plain, HostToCoordinator.isHello]

theorem AgentCalm.noHello {a : HostAgent} {r : HostAgent × List HostToCoordinator}
    (calm : AgentCalm a r) : ∀ frame ∈ r.2, frame.isHello = false :=
  fun frame inside => HostToCoordinator.isHello_of_plain (calm.plain frame inside)

theorem AgentCalm.refl (a : HostAgent) : AgentCalm a (a, []) :=
  ⟨rfl, rfl, rfl, rfl, rfl, rfl, by simp⟩

theorem AgentCalm.trans {a : HostAgent} {r r' : HostAgent × List HostToCoordinator}
    (first : AgentCalm a r) (second : AgentCalm r.1 r') : AgentCalm a (r'.1, r.2 ++ r'.2) where
  instanceId := second.instanceId.trans first.instanceId
  socket := second.socket.trans first.socket
  socketOpen := second.socketOpen.trans first.socketOpen
  coordinatorInstanceId := second.coordinatorInstanceId.trans first.coordinatorInstanceId
  appliedCommandSeq := second.appliedCommandSeq.trans first.appliedCommandSeq
  applied := second.applied.trans first.applied
  plain := by
    intro frame inside
    rcases List.mem_append.mp inside with inside | inside
    · exact first.plain frame inside
    · exact second.plain frame inside

/-- A reaction after a change of the agent's processes only. -/
theorem AgentCalm.after {a b : HostAgent} {r : HostAgent × List HostToCoordinator}
    (reaction : AgentCalm b r) (instanceId : b.instanceId = a.instanceId)
    (socket : b.socket = a.socket) (socketOpen : b.socketOpen = a.socketOpen)
    (coordinatorInstanceId : b.coordinatorInstanceId = a.coordinatorInstanceId)
    (appliedCommandSeq : b.appliedCommandSeq = a.appliedCommandSeq)
    (applied : b.applied = a.applied) : AgentCalm a r :=
  ⟨reaction.instanceId.trans instanceId, reaction.socket.trans socket,
    reaction.socketOpen.trans socketOpen,
    reaction.coordinatorInstanceId.trans coordinatorInstanceId,
    reaction.appliedCommandSeq.trans appliedCommandSeq, reaction.applied.trans applied,
    reaction.plain⟩

namespace HostAgent

variable (a : HostAgent)

theorem emit_calm (procId : ProcId) (event : HostedEvent) : AgentCalm a (a.emit procId event) := by
  unfold emit
  split
  · exact .refl a
  · split
    · exact .refl a
    · refine ⟨rfl, rfl, rfl, rfl, rfl, rfl, ?_⟩
      dsimp only
      split <;> simp [HostToCoordinator.plain]

theorem emitAll_calm (procId : ProcId) (events : List HostedEvent) :
    AgentCalm a (emitAll procId a events) := by
  induction events generalizing a with
  | nil => exact .refl a
  | cons event rest ih => exact (emit_calm a procId event).trans (ih _)

theorem spawn_calm (procId : ProcId) (preparedLaunchId : Option Uuid) (start : StartResult) :
    AgentCalm a (a.spawn procId preparedLaunchId start) := by
  have registered : ∀ launches : List Uuid, AgentCalm a
      ({ a with processes := a.processes.set procId {}, preparedLaunches := launches }, []) :=
    fun _ => ⟨rfl, rfl, rfl, rfl, rfl, rfl, by simp⟩
  have failed : ∀ (launches : List Uuid) (message : JsString), AgentCalm a
      (emitAll procId
        { a with processes := a.processes.set procId {}, preparedLaunches := launches }
        (startFailure message)) :=
    fun _ _ => (emitAll_calm _ procId _).after rfl rfl rfl rfl rfl rfl
  unfold spawn
  cases preparedLaunchId with
  | none =>
    cases start with
    | started => exact registered _
    | failed message => exact failed _ message
  | some id =>
    dsimp only
    by_cases gone : (!a.preparedLaunches.contains id) = true
    · rw [if_pos gone]
      exact failed _ _
    · rw [if_neg gone]
      cases start with
      | started => exact registered _
      | failed message => exact failed _ message

theorem spawnTerminal_calm (procId : ProcId) (start : StartResult) :
    AgentCalm a (a.spawnTerminal procId start) := by
  cases start with
  | started => exact (emit_calm _ procId _).after rfl rfl rfl rfl rfl rfl
  | failed message => exact (emitAll_calm _ procId _).after rfl rfl rfl rfl rfl rfl

theorem apply_calm (start : StartResult) (command : HostCommand) :
    AgentCalm a (a.apply start command) := by
  cases command with
  | spawn procId preparedLaunchId => exact spawn_calm a procId preparedLaunchId start
  | spawnTerminal procId cols rows => exact spawnTerminal_calm a procId start
  | _ => exact .refl a

theorem handleEventAck_calm (procId : ProcId) (seq : Nat) :
    AgentCalm a (a.handleEventAck procId seq, []) := by
  unfold handleEventAck
  split
  · exact .refl a
  · unfold forgetIfDone
    split <;> exact ⟨rfl, rfl, rfl, rfl, rfl, rfl, by simp⟩

theorem act_calm (action : HostAction) : AgentCalm a (a.act action) := by
  cases action with
  | prepareLaunch launchId => exact ⟨rfl, rfl, rfl, rfl, rfl, rfl, by simp [act]⟩
  | updateFails commit =>
    simp only [act, updateFails]
    split
    · exact ⟨rfl, rfl, rfl, rfl, rfl, rfl, by simp [HostToCoordinator.plain]⟩
    · exact .refl a
  | childSpawned procId pid =>
    simp only [act, childSpawned]
    split
    · exact .refl a
    · split
      · exact .refl a
      · exact (emit_calm _ procId _).after rfl rfl rfl rfl rfl rfl
  | childError procId message =>
    simp only [act, childError]
    split
    · exact .refl a
    · exact emitAll_calm a procId _
  | childEvent procId event =>
    simp only [act, childEvent]
    split
    · exact .refl a
    · split
      · exact emit_calm a procId event
      · exact .refl a

end HostAgent

/-- What delivering a frame to an agent does to commands and the handshake. -/
inductive Handled (a : HostAgent) (frame : CoordinatorToHost)
    (r : HostAgent × List HostToCoordinator) : Prop where
  /-- The frame is neither a welcome nor a command. -/
  | calm (other : frame.isWelcome = false) (silent : ∀ q, frame ≠ .command q)
      (reaction : AgentCalm a r)
  /-- The agent closed its socket. -/
  | closed (silent : ∀ q, frame ≠ .command q) (reaction : r.1.socket = none)
      (shut : r.1.socketOpen = false) (instanceId : r.1.instanceId = a.instanceId)
      (coordinatorInstanceId : r.1.coordinatorInstanceId = a.coordinatorInstanceId)
      (appliedCommandSeq : r.1.appliedCommandSeq = a.appliedCommandSeq)
      (applied : r.1.applied = a.applied) (quiet : r.2 = [])
  /-- A welcome; from another coordinator than before, the numbering starts over. -/
  | welcomed (instanceId : Uuid) (epoch : Nat) (received : JsMap ProcId Nat)
      (isWelcome : frame = .welcome instanceId epoch received)
      (own : r.1.instanceId = a.instanceId) (socket : r.1.socket = a.socket)
      (socketOpen : r.1.socketOpen = a.socketOpen)
      (coordinatorInstanceId : r.1.coordinatorInstanceId = some instanceId)
      (appliedCommandSeq : r.1.appliedCommandSeq =
        if a.coordinatorInstanceId = some instanceId then a.appliedCommandSeq else 0)
      (applied : r.1.applied = a.applied) (plain : ∀ frame ∈ r.2, frame.plain = true)
  /-- A command the agent has already applied. -/
  | repeated (q : QueuedCommand) (isCommand : frame = .command q)
      (old : q.seq ≤ a.appliedCommandSeq) (reaction : r = (a, [.commandAck q.seq]))
  /-- A command after a gap. -/
  | ignored (q : QueuedCommand) (isCommand : frame = .command q)
      (gap : a.appliedCommandSeq + 1 < q.seq) (reaction : r = (a, []))
  /-- The next command. -/
  | applied (q : QueuedCommand) (isCommand : frame = .command q)
      (next : q.seq = a.appliedCommandSeq + 1) (own : r.1.instanceId = a.instanceId)
      (socket : r.1.socket = a.socket) (socketOpen : r.1.socketOpen = a.socketOpen)
      (coordinatorInstanceId : r.1.coordinatorInstanceId = a.coordinatorInstanceId)
      (appliedCommandSeq : r.1.appliedCommandSeq = q.seq)
      (applied : r.1.applied = a.applied ++ [q.ticket])
      (sent : ∃ events : List HostToCoordinator, (∀ frame ∈ events, frame.plain = true) ∧
        r.2 = events ++ [.commandAck q.seq])

namespace Handled

variable {a : HostAgent} {frame : CoordinatorToHost} {r : HostAgent × List HostToCoordinator}

theorem instanceId (handled : Handled a frame r) : r.1.instanceId = a.instanceId := by
  cases handled with
  | calm _ _ reaction => exact reaction.instanceId
  | closed _ _ _ own => exact own
  | welcomed _ _ _ _ own => exact own
  | repeated _ _ _ reaction => rw [reaction]
  | ignored _ _ _ reaction => rw [reaction]
  | applied _ _ _ own => exact own

/-- A socket that is kept stays as open as it was. -/
theorem socket (handled : Handled a frame r) {s : Nat} (held : r.1.socket = some s) :
    a.socket = some s ∧ r.1.socketOpen = a.socketOpen := by
  cases handled with
  | calm _ _ reaction => exact ⟨reaction.socket ▸ held, reaction.socketOpen⟩
  | closed _ closed => simp [closed] at held
  | welcomed _ _ _ _ _ same isOpen => exact ⟨same ▸ held, isOpen⟩
  | repeated _ _ _ reaction => subst reaction; exact ⟨held, rfl⟩
  | ignored _ _ _ reaction => subst reaction; exact ⟨held, rfl⟩
  | applied _ _ _ _ same isOpen => exact ⟨same ▸ held, isOpen⟩

theorem coordinatorInstanceId (handled : Handled a frame r) (notWelcome : frame.isWelcome = false) :
    r.1.coordinatorInstanceId = a.coordinatorInstanceId := by
  cases handled with
  | calm _ _ reaction => exact reaction.coordinatorInstanceId
  | closed _ _ _ _ coordinator => exact coordinator
  | welcomed _ _ _ isWelcome => simp [isWelcome, CoordinatorToHost.isWelcome] at notWelcome
  | repeated _ _ _ reaction => rw [reaction]
  | ignored _ _ _ reaction => rw [reaction]
  | applied _ _ _ _ _ _ coordinator => exact coordinator

theorem noHello (handled : Handled a frame r) : ∀ frame ∈ r.2, frame.isHello = false := by
  cases handled with
  | calm _ _ reaction => exact reaction.noHello
  | closed _ _ _ _ _ _ _ quiet => simp [quiet]
  | welcomed _ _ _ _ _ _ _ _ _ _ plain =>
    exact fun frame inside => HostToCoordinator.isHello_of_plain (plain frame inside)
  | repeated _ _ _ reaction => simp [reaction, HostToCoordinator.isHello]
  | ignored _ _ _ reaction => simp [reaction]
  | applied _ _ _ _ _ _ _ _ _ sent =>
    obtain ⟨events, plain, eq⟩ := sent
    intro frame inside
    rw [eq] at inside
    rcases List.mem_append.mp inside with inside | inside
    · exact HostToCoordinator.isHello_of_plain (plain frame inside)
    · rw [List.mem_singleton.mp inside]
      rfl

end Handled

theorem HostAgent.replay_plain (a : HostAgent) : ∀ frame ∈ a.replay, frame.plain = true := by
  intro frame inside
  obtain ⟨entry, -, inside⟩ := List.mem_flatMap.mp inside
  obtain ⟨p, -, rfl⟩ := List.mem_map.mp inside
  rfl

theorem HostAgent.handleMessage_handled (a : HostAgent) (start : StartResult)
    (frame : CoordinatorToHost) : Handled a frame (a.handleMessage start frame) := by
  cases frame with
  | welcome instanceId epoch received =>
    simp only [handleMessage]
    split
    · exact .closed (by simp) rfl rfl rfl rfl rfl rfl rfl
    · unfold handleWelcome
      split
      · rename_i other
        exact .welcomed instanceId epoch received rfl rfl rfl rfl rfl
          (by rw [if_neg other]; rfl) rfl (replay_plain _)
      · rename_i same
        have same : a.coordinatorInstanceId = some instanceId := not_not.mp same
        exact .welcomed instanceId epoch received rfl rfl rfl rfl same
          (by rw [if_pos same]) rfl (replay_plain _)
  | command q =>
    simp only [handleMessage, handleCommand]
    split
    · rename_i old
      exact .repeated q rfl old rfl
    · split
      · exact .ignored q rfl (by omega) rfl
      · rename_i notOld notGap
        have done := apply_calm a start q.command
        refine .applied q rfl (by omega) done.instanceId done.socket done.socketOpen
          done.coordinatorInstanceId rfl ?_ ⟨_, done.plain, rfl⟩
        simp only [done.applied]
  | eventAck procId seq => exact .calm rfl (by simp) (handleEventAck_calm a procId seq)
  | rejected => exact .closed (by simp) rfl rfl rfl rfl rfl rfl rfl
  | update commit => exact .calm rfl (by simp) ⟨rfl, rfl, rfl, rfl, rfl, rfl, by simp [handleMessage]⟩

end Takode.RemoteHost
