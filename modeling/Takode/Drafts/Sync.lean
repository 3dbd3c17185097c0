import Takode.Lib.Machine

/-!
# One draft, shared by the tabs of a session

`draft-sync.ts` in any number of tabs and `session-drafts-controller.ts` on the server,
for one draft. `V` is the JSON text of a draft and `none` is `null`. A request and its
acknowledgement travel apart from the broadcasts, which reach a tab in order over its
own socket; a tab that connects is sent a snapshot.
-/

namespace Takode.Drafts

variable {V : Type} [DecidableEq V]

/-- The kind of the draft: what the server makes of a write (`normalizeSynced..`), and whether a
snapshot names the draft where the server has none and the tab lists none. -/
structure DraftKind (V : Type) where
  normalize : Option V → Option V
  alwaysNamed : Bool

/-- A `SessionDraftChange`; the tabs are numbered, and a snapshot's change has no client. -/
structure Change (V : Type) where
  value : Option V
  revision : Nat
  client : Option Nat
deriving DecidableEq, Repr

/-- The server's state for the draft: the session's revision, and the entry with its revision.
`last` is the revision of the last write to this draft. -/
structure Server (V : Type) where
  revision : Nat := 0
  entry : Option (V × Nat) := none
  last : Nat := 0
deriving DecidableEq, Repr

def Server.value (server : Server V) : Option V := server.entry.map (·.1)

/-- `meta(entry, revision)`: the revision that a snapshot gives the draft. -/
def Server.entryRevision (server : Server V) : Nat := server.entry.elim server.revision (·.2)

/-- `applySessionDraftWrite`, of a write that is not rejected. -/
def Server.applySessionDraftWrite (server : Server V) (kind : DraftKind V) (write : Option V) :
    Server V where
  revision := server.revision + 1
  entry := (kind.normalize write).map (·, server.revision + 1)
  last := server.revision + 1

/-- What the server sends over a socket: a broadcast change, or the drafts as they are. -/
inductive Message (V : Type)
  | change (change : Change V)
  | snapshot (drafts : Server V)
deriving DecidableEq, Repr

/-- The `session_draft_update` that is broadcast after a write of the tab `writer`. -/
def Server.sessionDraftUpdate (server : Server V) (writer : Nat) : Message V :=
  .change ⟨server.value, server.revision, some writer⟩

/-- A write on its way: `applied` is the revision it got when it reached the server. -/
structure Flight (V : Type) where
  sent : Option V
  applied : Option Nat
deriving DecidableEq, Repr

/-- A tab: the local value of the draft, its `DraftSlot` and its socket. `missed` is the highest
revision of a write that the slot passed over: another tab's that was dropped from `deferred` or
left out of a snapshot, or its own whose acknowledgement was lost. `checked` is the revision of the
last snapshot that left the draft out while nothing was pending. -/
structure Tab (V : Type) where
  value : Option V := none
  serverValue : Option V := none
  revision : Nat := 0
  timer : Bool := false
  inFlight : Option (Flight V) := none
  resendAfterFlight : Bool := false
  deferred : Option (Change V) := none
  connected : Bool := false
  inbox : List (Message V) := []
  missed : Nat := 0
  checked : Nat := 0
deriving DecidableEq, Repr

namespace Tab

variable (t : Tab V)

def isPending : Bool := t.timer || t.inFlight.isSome

def applyChange (change : Change V) : Tab V :=
  { t with
    value := change.value
    serverValue := change.value
    revision := max t.revision change.revision }

def deferredRevision : Nat := t.deferred.elim 0 (·.revision)

/-- `slot.deferred = null` before the tab's own edit is sent. -/
def dropDeferred : Tab V :=
  { t with
    deferred := none
    missed := if t.deferredRevision > t.revision then max t.missed t.deferredRevision
      else t.missed }

/-- `handleLocalDraftChange`, with the `sendDraft` it calls. -/
def handleLocalDraftChangeBy (sendDraft : Tab V → Tab V) : Tab V :=
  if !t.isPending && t.value = t.serverValue then t
  else if t.value = none then sendDraft t
  else if t.inFlight.isSome then { t with resendAfterFlight := true }
  else { t with timer := true }

/-- `afterSettled`, with the `sendDraft` it comes to call. -/
def afterSettledBy (sendDraft : Tab V → Tab V) : Tab V :=
  if t.resendAfterFlight || t.value ≠ t.serverValue then
    t.dropDeferred.handleLocalDraftChangeBy sendDraft
  else
    match t.deferred with
    | some change =>
      if change.revision > t.revision then { t with deferred := none }.applyChange change
      else { t with deferred := none }
    | none => t

/-- The body of `sendDraft`, with the `sendDraft` it comes to call. -/
def sendDraftBy (sendDraft : Tab V → Tab V) : Tab V :=
  let t := { t with timer := false }
  if t.inFlight.isSome then { t with resendAfterFlight := true }
  else if t.value = t.serverValue then t.afterSettledBy sendDraft
  else { t with inFlight := some ⟨t.value, none⟩, resendAfterFlight := false }

/-- It never comes to call itself: see `sendDraft_eq`. -/
def sendDraft : Tab V := t.sendDraftBy id

def handleLocalDraftChange : Tab V := t.handleLocalDraftChangeBy sendDraft

def afterSettled : Tab V := t.afterSettledBy sendDraft

/-- The write is acknowledged: `slot.revision = Math.max(slot.revision, change.revision)`. -/
def acknowledged (sent : Option V) (revision : Nat) : Tab V :=
  { t with
    inFlight := none
    serverValue := sent
    revision := max t.revision revision }

/-- The request failed; a write that reached the server has lost its acknowledgement. -/
def failed (flight : Flight V) : Tab V :=
  { t with
    inFlight := none
    timer := true
    missed := max t.missed (flight.applied.getD 0) }

/-- `applyRemoteDraftChange` in the tab `i`. -/
def applyRemoteDraftChange (i : Nat) (change : Change V) : Tab V :=
  if change.client = some i then t
  else if change.revision ≤ t.revision then t
  else if t.isPending then
    if t.deferred.all (·.revision < change.revision) then { t with deferred := some change } else t
  else t.applyChange change

/-- The loop of `applySessionDraftsSnapshot`, at the change it remembered for the draft. -/
def applySnapshotChange (change : Change V) : Tab V :=
  if change.revision < t.revision then t
  else if t.isPending then
    if change.revision > t.revision && t.deferred.all (·.revision < change.revision) then
      { t with deferred := some change }
    else t
  else if t.value = change.value then
    { t with serverValue := change.value, revision := max t.revision change.revision }
  else t.applyChange change

/-- `applySessionDraftsSnapshot`. A draft that it does not name is left as it is. -/
def applySessionDraftsSnapshot (kind : DraftKind V) (drafts : Server V) : Tab V :=
  if drafts.entry.isSome || kind.alwaysNamed || t.value.isSome then
    t.applySnapshotChange ⟨drafts.value, drafts.entryRevision, none⟩
  else if t.isPending then { t with missed := max t.missed drafts.last }
  else { t with checked := max t.checked drafts.revision }

/-- The first message of the socket is handled. -/
def handleMessage (kind : DraftKind V) (i : Nat) : Message V → Tab V
  | .change change => t.applyRemoteDraftChange i change
  | .snapshot drafts => t.applySessionDraftsSnapshot kind drafts

/-- `broadcastToBrowsers` at this tab. -/
def receive (message : Message V) : Tab V :=
  if t.connected then { t with inbox := t.inbox ++ [message] } else t

end Tab

structure Session (V : Type) where
  server : Server V := {}
  tabs : List (Tab V) := []
deriving DecidableEq, Repr

/-- `otherWrite` is a write to another draft of the session. A timer also goes off early, when the
page is hidden. -/
inductive Event (V : Type)
  | open
  | edit (i : Nat) (value : Option V)
  | timer (i : Nat)
  | arrive (i : Nat)
  | ack (i : Nat)
  | fail (i : Nat)
  | deliver (i : Nat)
  | disconnect (i : Nat)
  | connect (i : Nat)
  | subscribe (i : Nat)
  | otherWrite
deriving DecidableEq, Repr

namespace Session

variable (s : Session V)

/-- A step of the tab `i` alone. -/
def atTab (i : Nat) (f : Tab V → Option (Tab V)) : Option (Session V) :=
  (s.tabs[i]?.bind f).map fun t => { s with tabs := s.tabs.set i t }

/-- The write of the tab `i` reaches the server, which broadcasts the change. -/
def arrive (kind : DraftKind V) (i : Nat) : Option (Session V) :=
  match s.tabs[i]? with
  | some t =>
    match t.inFlight with
    | some ⟨sent, none⟩ =>
      let server := s.server.applySessionDraftWrite kind sent
      let t := { t with inFlight := some ⟨sent, some server.revision⟩ }
      some ⟨server, (s.tabs.set i t).map (·.receive (server.sessionDraftUpdate i))⟩
    | _ => none
  | none => none

def step (kind : DraftKind V) : Event V → Option (Session V)
  | .open => some { s with tabs := s.tabs ++ [{}] }
  | .edit i value => s.atTab i fun t => some { t with value := value }.handleLocalDraftChange
  | .timer i => s.atTab i fun t => if t.timer then some t.sendDraft else none
  | .arrive i => s.arrive kind i
  | .ack i => s.atTab i fun t =>
    match t.inFlight with
    | some ⟨sent, some revision⟩ => some (t.acknowledged sent revision).afterSettled
    | _ => none
  | .fail i => s.atTab i fun t => t.inFlight.map t.failed
  | .deliver i => s.atTab i fun t =>
    match t.inbox with
    | message :: rest => some ({ t with inbox := rest }.handleMessage kind i message)
    | [] => none
  | .disconnect i => s.atTab i fun t => some { t with connected := false, inbox := [] }
  | .connect i => s.atTab i fun t =>
    if t.connected then none else some { t with connected := true, inbox := [.snapshot s.server] }
  | .subscribe i => s.atTab i fun t =>
    if t.connected then some (t.receive (.snapshot s.server)) else none
  | .otherWrite => some { s with server := { s.server with revision := s.server.revision + 1 } }

end Session

def draftSync (kind : DraftKind V) : Machine (Session V) (Event V) :=
  ⟨{}, fun s event => s.step kind event⟩

namespace Tab

variable (t : Tab V)

end Tab

end Takode.Drafts
