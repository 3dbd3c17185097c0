import Takode.Lib.JsMap
import Takode.Lib.Machine

/-!
# The write queues of the session store

`session-store.ts`: `SessionStore.enqueueWrite`, `pumpWrites` and the calls that
queue an operation. Every session has a queue of its own; at most two sessions
write at a time. What an operation does to the files is left open: a step of the
machine ends a running one, and its label says how. Promises are numbered as they
are made. The calls are numbered too, and an operation carries the number of the
call that gave it, so that a larger stamp is a newer state.
-/

namespace Takode.Sessions

abbrev SessionId := String

/-- What `PersistedSession` tells the queue: `messageHistory.length` and `_frozenCount`. -/
structure PersistedSession where
  id : SessionId
  historyLength : Nat
  frozenCount : Option Nat := none
deriving DecidableEq, Repr

/-- The closures that are queued: `writeSnapshot(snapshot)`, the two that may write with a repair
count, `loadOwned`, the closure of `setArchived` and that of `remove`. -/
inductive Task
  | snapshot | edits | metadata | load | archive | remove
deriving DecidableEq, Repr

structure Work where
  task : Task
  stamp : Nat
deriving DecidableEq, Repr

/-- It writes a state that a caller gave. -/
def Work.carriesState (run : Work) : Bool :=
  match run.task with
  | .snapshot | .edits | .metadata => true
  | .load | .archive | .remove => false

/-- `SessionWriteRequest`; `done` is the number of its promise. -/
structure WriteRequest where
  run : Work
  coalescible : Bool
  done : Nat
deriving DecidableEq, Repr

/-- A promise that a call of `enqueueWrite` returned, with the work it was called for. -/
structure Promised where
  sessionId : SessionId
  run : Work
  done : Nat
deriving DecidableEq, Repr

/-- A promise that has settled, with the work that was run for it. -/
structure Settled where
  sessionId : SessionId
  run : Work
  done : Nat
  success : Bool
deriving DecidableEq, Repr

/-- The collections that `enqueueWrite` and `pumpWrites` share. The last four fields record what
has happened; nothing but the numbering reads them. -/
structure Writers where
  writeQueues : JsMap SessionId (List WriteRequest) := ∅
  activeWriters : JsSet SessionId := ∅
  readyWriters : JsSet SessionId := ∅
  inflightWrites : JsSet Nat := ∅
  promises : Nat := 0
  promised : List Promised := []
  started : List (SessionId × Nat) := []
  settled : List Settled := []

namespace Writers

def MAX_ACTIVE_WRITERS : Nat := 2

variable (w : Writers) (sessionId : SessionId)

/-- `this.writeQueues.get(sessionId) ?? []`. -/
def queue : List WriteRequest := (w.writeQueues.get? sessionId).getD []

/-- The last request, when the next one may replace its run. -/
def mergeable (coalescible : Bool) : Option WriteRequest :=
  (w.queue sessionId).getLast?.filter fun last =>
    coalescible && last.coalescible &&
      !((w.queue sessionId).length == 1 && w.activeWriters.has sessionId)

/-- `last.run = run`. -/
def merge (last : WriteRequest) (run : Work) : Writers :=
  { w with
    writeQueues := w.writeQueues.set sessionId
      ((w.queue sessionId).dropLast ++ [{ last with run := run }])
    promised := w.promised ++ [⟨sessionId, run, last.done⟩] }

/-- The rest of `enqueueWrite` up to its call of `pumpWrites`. -/
def push (run : Work) (coalescible : Bool) : Writers :=
  { w with
    writeQueues := w.writeQueues.set sessionId
      (w.queue sessionId ++ [⟨run, coalescible, w.promises⟩])
    inflightWrites := w.inflightWrites.add w.promises
    readyWriters :=
      if w.activeWriters.has sessionId then w.readyWriters else w.readyWriters.add sessionId
    promises := w.promises + 1
    promised := w.promised ++ [⟨sessionId, run, w.promises⟩] }

/-- One turn of the loop of `pumpWrites`, up to the first `await` of the run it starts. -/
def startWriter : Writers :=
  { w with
    readyWriters := w.readyWriters.delete sessionId
    activeWriters := w.activeWriters.add sessionId
    started := w.started ++ (w.queue sessionId).head?.toList.map fun request =>
      (sessionId, request.done) }

/-- The loop of `pumpWrites`; a turn takes one session out of `readyWriters`. -/
def pump : Nat → Writers → Writers
  | 0, w => w
  | turns + 1, w =>
    if w.activeWriters.size < MAX_ACTIVE_WRITERS then
      match w.readyWriters.keys with
      | [] => w
      | sessionId :: _ => pump turns (w.startWriter sessionId)
    else w

def pumpWrites : Writers := pump w.readyWriters.size w

def enqueueWrite (run : Work) (coalescible : Bool) : Writers :=
  match w.mergeable sessionId coalescible with
  | some last => w.merge sessionId last run
  | none => (w.push sessionId run coalescible).pumpWrites

/-- The end of the run of `request`, the head of its queue: `resolve` and the `finally` block, up
to its call of `pumpWrites`. -/
def shift (request : WriteRequest) (success : Bool) : Writers :=
  let rest := (w.queue sessionId).tail
  { w with
    inflightWrites := w.inflightWrites.delete request.done
    writeQueues :=
      if rest.isEmpty then w.writeQueues.delete sessionId else w.writeQueues.set sessionId rest
    activeWriters := w.activeWriters.delete sessionId
    readyWriters := if rest.isEmpty then w.readyWriters else w.readyWriters.add sessionId
    settled := w.settled ++ [⟨sessionId, request.run, request.done, success⟩] }

end Writers

/-- The keys of `persistenceFailures`: `hot:${id}` and `frozen:${id}`. -/
inductive SessionFile
  | hot | frozen
deriving DecidableEq, Repr

/-- A call of `flushAll`: the last state accepted for each session before it, the promises it
awaits, and whether it has resolved or rejected. -/
structure Flush where
  owed : List (SessionId × Nat)
  awaiting : List Nat
  resolved : Option Bool := none
deriving DecidableEq, Repr

/-- What has happened to the states of the sessions: how many calls there were, the stamp of the
last state accepted and of the last `remove`, the states written, and the newest state that could
not be written, unless one as new was written after it. -/
structure Ledger where
  calls : Nat := 0
  accepted : JsMap SessionId Nat := ∅
  removed : JsMap SessionId Nat := ∅
  written : List (SessionId × Nat) := []
  unsaved : JsMap SessionId Nat := ∅

/-- `pendingSaves` holds a session exactly while its debounce timer is armed. -/
structure SessionStore where
  writers : Writers := {}
  pendingSaves : JsMap SessionId (PersistedSession × Nat) := ∅
  persistenceFailures : JsSet (SessionFile × SessionId) := ∅
  requestedHistoryLengths : JsMap SessionId Nat := ∅
  frozenCounts : JsMap SessionId Nat := ∅
  flushes : List Flush := []
  ledger : Ledger := {}

/-- How a call of `writeSnapshot` ends: it may be refused by the guard of a repair, fail at the hot
file before or after the frozen log was saved, or fail at the frozen log. -/
inductive Attempt
  | written
  | refused
  | hotFailed (frozenSaved : Bool)
  | frozenFailed
deriving DecidableEq, Repr

/-- How `loadOwned` ends: without a session, with an error, or with a session, after no repair, one
by `writeHotJson` (whose error is thrown) or one by `writeSnapshot` (whose error is logged). -/
inductive Restore
  | missing
  | unreadable
  | intact
  | hotRepair (saved : Bool)
  | repair (attempt : Attempt)
deriving DecidableEq, Repr

inductive Outcome
  | wrote (attempt : Attempt)
  | loaded (restore : Restore)
  | archived (restore : Restore) (attempt : Attempt)
  | removed (success : Bool)
deriving DecidableEq, Repr

/-- `persistenceFailures` after the attempt. -/
def Attempt.record (sessionId : SessionId) (failures : JsSet (SessionFile × SessionId)) :
    Attempt → JsSet (SessionFile × SessionId)
  | .written => (failures.delete (.frozen, sessionId)).delete (.hot, sessionId)
  | .refused => failures
  | .hotFailed frozenSaved =>
    JsSet.add (if frozenSaved then failures.delete (.frozen, sessionId) else failures)
      (.hot, sessionId)
  | .frozenFailed => failures.add (.frozen, sessionId)

/-- `persistenceFailures` after the repair that the load may make. -/
def Restore.record (sessionId : SessionId) (failures : JsSet (SessionFile × SessionId)) :
    Restore → JsSet (SessionFile × SessionId)
  | .missing | .unreadable | .intact => failures
  | .hotRepair saved =>
    if saved then failures.delete (.hot, sessionId) else failures.add (.hot, sessionId)
  | .repair attempt => attempt.record sessionId failures

/-- The load gives a session. -/
def Restore.restores : Restore → Bool
  | .missing | .unreadable => false
  | .intact => true
  | .hotRepair saved => saved
  | .repair _ => true

/-- The load throws. -/
def Restore.throws : Restore → Bool
  | .unreadable => true
  | .hotRepair saved => !saved
  | .missing | .intact | .repair _ => false

namespace Ledger

variable (ledger : Ledger) (sessionId : SessionId) (stamp : Nat)

def accepts : Ledger := { ledger with accepted := ledger.accepted.set sessionId stamp }

def writes : Ledger :=
  { ledger with
    written := ledger.written ++ [(sessionId, stamp)]
    unsaved :=
      if (ledger.unsaved.get? sessionId).all (· ≤ stamp) then ledger.unsaved.delete sessionId
      else ledger.unsaved }

def fails : Ledger :=
  { ledger with
    unsaved := ledger.unsaved.set sessionId (max stamp ((ledger.unsaved.get? sessionId).getD 0)) }

end Ledger

namespace SessionStore

variable (s : SessionStore)

def isHistoryRevert (session : PersistedSession) : Bool :=
  session.historyLength < (s.requestedHistoryLengths.get? session.id <|>
    s.frozenCounts.get? session.id <|> session.frozenCount).getD 0

def cancelDebouncedSave (sessionId : SessionId) : SessionStore :=
  { s with pendingSaves := s.pendingSaves.delete sessionId }

def requestHistoryLength (session : PersistedSession) : SessionStore :=
  { s with
    requestedHistoryLengths := s.requestedHistoryLengths.set session.id session.historyLength }

def enqueueWrite (sessionId : SessionId) (run : Work) (coalescible : Bool) : SessionStore :=
  { s with writers := s.writers.enqueueWrite sessionId run coalescible }

def queueSnapshot (session : PersistedSession) (stamp : Nat) (coalescible : Bool) :
    SessionStore :=
  let reverted := s.isHistoryRevert session
  (s.requestHistoryLength session).enqueueWrite session.id ⟨.snapshot, stamp⟩
    (coalescible && !reverted)

def saveSync (session : PersistedSession) (stamp : Nat) : SessionStore :=
  (s.cancelDebouncedSave session.id).queueSnapshot session stamp true

def save (session : PersistedSession) (stamp : Nat) : SessionStore :=
  if s.isHistoryRevert session then s.saveSync session stamp
  else
    let s := s.requestHistoryLength session
    { s with pendingSaves := s.pendingSaves.set session.id (session, stamp) }

def saveImmediate (session : PersistedSession) (stamp : Nat) : SessionStore :=
  (s.cancelDebouncedSave session.id).queueSnapshot session stamp false

def saveHistoryEdits (session : PersistedSession) (stamp : Nat) : SessionStore :=
  if s.isHistoryRevert session then s.saveSync session stamp
  else
    ((s.cancelDebouncedSave session.id).requestHistoryLength session).enqueueWrite session.id
      ⟨.edits, stamp⟩ false

def rewriteFrozenHistoryMetadata (session : PersistedSession) (stamp : Nat) : SessionStore :=
  s.enqueueWrite session.id ⟨.metadata, stamp⟩ false

def load (sessionId : SessionId) (stamp : Nat) : SessionStore :=
  s.enqueueWrite sessionId ⟨.load, stamp⟩ false

def setArchived (sessionId : SessionId) (stamp : Nat) : SessionStore :=
  let s := match s.pendingSaves.get? sessionId with
    | some pending => s.saveSync pending.1 pending.2
    | none => s
  s.enqueueWrite sessionId ⟨.archive, stamp⟩ false

def remove (sessionId : SessionId) (stamp : Nat) : SessionStore :=
  (s.cancelDebouncedSave sessionId).enqueueWrite sessionId ⟨.remove, stamp⟩ false

/-- The callback of the debounce timer. -/
def debounceExpired (pending : PersistedSession × Nat) : SessionStore :=
  (s.cancelDebouncedSave pending.1.id).saveSync pending.1 pending.2

/-- The body of the loop of `flushAll`, up to its `await`. -/
def flushPending : SessionStore :=
  s.pendingSaves.values.foldl (fun s pending => s.saveSync pending.1 pending.2)
    { s with pendingSaves := ∅ }

/-- What the run of a request does to the store by its end, and whether it succeeds. -/
def runTo (sessionId : SessionId) (run : Work) : Outcome → Option (SessionStore × Bool)
  | .wrote attempt =>
    if run.carriesState && (attempt ≠ .refused || run.task ≠ .snapshot) then
      some ({ s with
        persistenceFailures := attempt.record sessionId s.persistenceFailures
        ledger := if attempt = .written then s.ledger.writes sessionId run.stamp
          else s.ledger.fails sessionId run.stamp }, attempt = .written)
    else none
  | .loaded restore =>
    if run.task = .load then
      some ({ s with
        persistenceFailures := restore.record sessionId s.persistenceFailures }, !restore.throws)
    else none
  | .archived restore attempt =>
    if run.task = .archive ∧ attempt ≠ .refused then
      let s := { s with
        persistenceFailures := restore.record sessionId s.persistenceFailures }
      if restore.restores then
        some ({ s with
          persistenceFailures := attempt.record sessionId s.persistenceFailures },
          attempt = .written)
      else some (s, !restore.throws)
    else none
  | .removed success =>
    if run.task = .remove then
      if success then
        some ({ s with
          frozenCounts := s.frozenCounts.delete sessionId
          requestedHistoryLengths := s.requestedHistoryLengths.delete sessionId
          persistenceFailures := Attempt.written.record sessionId s.persistenceFailures
          ledger := { s.ledger with unsaved := s.ledger.unsaved.delete sessionId } }, true)
      else some (s, false)
    else none

/-- The running operation of a session ends. -/
def settle (sessionId : SessionId) (outcome : Outcome) : Option SessionStore :=
  if s.writers.activeWriters.has sessionId then
    (s.writers.queue sessionId).head?.bind fun request =>
      (s.runTo sessionId request.run outcome).map fun ended =>
        { ended.1 with
          writers := (ended.1.writers.shift sessionId request ended.2).pumpWrites }
  else none

/-- `[...this.inflightWrites]`. -/
def inflight : List Nat := s.writers.inflightWrites.keys

/-- The first turn of the loop of `flushAll`. -/
def flushAll : SessionStore :=
  let t := s.flushPending
  { t with flushes := t.flushes ++ [⟨s.ledger.accepted.entries, t.inflight, none⟩] }

/-- `flushAll` goes on after `Promise.allSettled`: another turn, or its end. -/
def flushAwakes (i : Nat) : Option SessionStore := do
  let flush ← s.flushes[i]?
  if flush.resolved = none ∧ ∀ done ∈ flush.awaiting, s.writers.inflightWrites.has done = false then
    if s.pendingSaves.size > 0 ∨ s.writers.inflightWrites.size > 0 then
      let t := s.flushPending
      some { t with flushes := t.flushes.set i { flush with awaiting := t.inflight } }
    else
      some { s with flushes :=
        s.flushes.set i { flush with resolved := some (s.persistenceFailures.size = 0) } }
  else none

/-- A call is numbered, and its state, if it gives one, is accepted. -/
def call (s : SessionStore) : SessionStore :=
  { s with ledger := { s.ledger with calls := s.ledger.calls + 1 } }

def accept (sessionId : SessionId) (stamp : Nat) : SessionStore :=
  { s with ledger := s.ledger.accepts sessionId stamp }

end SessionStore

/-- The calls of the store, the timers, and the ends of what it awaits. The last two are what the
code reads between: the caller changes a session that waits for its timer, since `pendingSaves`
holds the live object, and a running operation sets `frozenCounts`. -/
inductive Event
  | save (session : PersistedSession)
  | saveSync (session : PersistedSession)
  | saveImmediate (session : PersistedSession)
  | saveHistoryEdits (session : PersistedSession)
  | rewriteFrozenHistoryMetadata (session : PersistedSession)
  | load (sessionId : SessionId)
  | setArchived (sessionId : SessionId)
  | remove (sessionId : SessionId)
  | flushAll
  | debounceExpires (sessionId : SessionId)
  | settles (sessionId : SessionId) (outcome : Outcome)
  | flushAwakes (i : Nat)
  | sessionChanges (sessionId : SessionId) (historyLength : Nat)
  | freezes (sessionId : SessionId) (count : Nat)
deriving DecidableEq, Repr

namespace SessionStore

/-- A call that gives a state: it is numbered, does its work, and the state counts as accepted. -/
def gives (s : SessionStore) (give : SessionStore → PersistedSession → Nat → SessionStore)
    (session : PersistedSession) : SessionStore :=
  let s := s.call
  (give s session s.ledger.calls).accept session.id s.ledger.calls

def step (s : SessionStore) : Event → Option SessionStore
  | .save session => some (s.gives save session)
  | .saveSync session => some (s.gives saveSync session)
  | .saveImmediate session => some (s.gives saveImmediate session)
  | .saveHistoryEdits session => some (s.gives saveHistoryEdits session)
  | .rewriteFrozenHistoryMetadata session => some (s.gives rewriteFrozenHistoryMetadata session)
  | .load sessionId => some (s.call.load sessionId s.call.ledger.calls)
  | .setArchived sessionId => some (s.call.setArchived sessionId s.call.ledger.calls)
  | .remove sessionId =>
    let t := s.call.remove sessionId s.call.ledger.calls
    some { t with ledger :=
      { t.ledger with removed := t.ledger.removed.set sessionId t.ledger.calls } }
  | .flushAll => some s.flushAll
  | .debounceExpires sessionId => (s.pendingSaves.get? sessionId).map s.debounceExpired
  | .settles sessionId outcome => s.settle sessionId outcome
  | .flushAwakes i => s.flushAwakes i
  | .sessionChanges sessionId historyLength =>
    (s.pendingSaves.get? sessionId).map fun pending =>
      { s with pendingSaves :=
        s.pendingSaves.set sessionId ({ pending.1 with historyLength }, pending.2) }
  | .freezes sessionId count =>
    if s.writers.activeWriters.has sessionId then
      some { s with frozenCounts := s.frozenCounts.set sessionId count }
    else none

end SessionStore

/-- A store with nothing loaded or saved yet. -/
def sessionStore : Machine SessionStore Event := ⟨{}, SessionStore.step⟩

end Takode.Sessions
