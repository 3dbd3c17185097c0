import Takode.Lib.JsMap
import Takode.Lib.Base64

/-!
# Host link protocol

The messages between a coordinator and a `takode node` (`host-protocol.ts`), cut
to the fields that the modelled functions read. Requests, settings, names and
heartbeats carry no command and no event and are left out, as are the parts of a
launch that only the operating system sees. Output travels here as the base64
`data` the host keeps; the negotiated encodings of a connection are the subject
of `Takode.RemoteHost.Codec`.
-/

namespace Takode.RemoteHost

/-- A value drawn by `randomUUID`. -/
abbrev Uuid := Nat
abbrev ProcId := Uuid
abbrev Commit := Nat

/-- `HOST_PROTOCOL_VERSION` (`host-protocol.ts:37`). -/
def hostProtocolVersion : Nat := 3

/-- `HostCommand` (`host-protocol.ts:92-134`). -/
inductive HostCommand where
  | spawn (procId : ProcId) (preparedLaunchId : Option Uuid)
  | writeFile (path : JsString) (data : JsString)
  | spawnTerminal (procId : ProcId) (cols rows : Nat)
  | stdin (procId : ProcId) (data : JsString)
  | stdinEnd (procId : ProcId)
  | resize (procId : ProcId) (cols rows : Nat)
  | kill (procId : ProcId)
  deriving DecidableEq, Repr

/-- `command.procId`, when the command has that field. -/
def HostCommand.procId? : HostCommand → Option ProcId
  | .spawn p _ | .spawnTerminal p _ _ | .stdin p _ | .stdinEnd p | .resize p _ _ | .kill p => some p
  | .writeFile _ _ => none

/-- The process a start command starts. -/
def HostCommand.starts? : HostCommand → Option ProcId
  | .spawn p _ | .spawnTerminal p _ _ => some p
  | _ => none

/-- `HostProcessEvent` (`host-protocol.ts:136-141`), in the form the host keeps
until it is acknowledged (`HostedEvent`, `host-agent.ts:105-107`). -/
inductive HostedEvent where
  | spawned (pid : Option Nat)
  | stdout (data : JsString)
  | stderr (data : JsString)
  | exit (code : Option Int) (signal : Option JsString)
  | error (message : JsString)
  deriving DecidableEq, Repr

def HostedEvent.isExit : HostedEvent → Bool
  | .exit _ _ => true
  | _ => false

/-- The bytes of a stdout event; the other kinds carry none. -/
def HostedEvent.stdoutBytes : HostedEvent → Bytes
  | .stdout data => fromBase64 data
  | _ => []

/-- The fields of `hello` (`host-protocol.ts:196-248`) the link logic reads. -/
structure Hello where
  protocol : Nat
  instanceId : Uuid
  appliedCommandSeq : Nat
  appliedFrom : Option Uuid
  processes : Option (List ProcId)
  deriving DecidableEq, Repr

/-- `HostToCoordinator` (`host-protocol.ts:195-256`). -/
inductive HostToCoordinator where
  | hello (hello : Hello)
  | event (procId : ProcId) (seq : Nat) (event : HostedEvent)
  | commandAck (seq : Nat)
  | updateFailed (commit : Commit)
  deriving DecidableEq, Repr

/-- A queued command with its number (`host-link-manager.ts:118-121`). `ticket` is its
place in the order of the `enqueue` calls: a history variable no function reads, which
tells apart the commands that bear one number at different times. -/
structure QueuedCommand where
  seq : Nat
  command : HostCommand
  ticket : Nat
  deriving DecidableEq, Repr

/-- `CoordinatorToHost` (`host-protocol.ts:258-302`). -/
inductive CoordinatorToHost where
  | welcome (instanceId : Uuid) (epoch : Nat) (received : JsMap ProcId Nat)
  | command (queued : QueuedCommand)
  | eventAck (procId : ProcId) (seq : Nat)
  | rejected
  | update (commit : Commit)
  deriving DecidableEq

end Takode.RemoteHost
