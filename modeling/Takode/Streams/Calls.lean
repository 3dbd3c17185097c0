import Takode.Lib.Machine
import Takode.Lib.Processes
import Takode.Streams.Store

/-!
# Calls of the stream store

Any number of calls on the files of their scopes. Each read of a file and each rename is
one step; what a call computes from what it has read belongs to the read. The path of a
scope is a parameter (a hash names the file), and writes succeed.
-/

namespace Takode.Streams

/-- What is stored at each path. -/
abbrev Disk := JsString → Option StreamScopeFile

def Disk.set (disk : Disk) (path : JsString) (file : StreamScopeFile) : Disk :=
  fun p => if p = path then some file else disk p

inductive Request
  | create (input : StreamCreateInput)
  | update (input : StreamUpdateInput)
  | migrate (input : SessionGroupStreamMigrationInput)
deriving DecidableEq

inductive Outcome
  | stream (stream : Option StreamRecord)
  | migrated (result : SessionGroupStreamMigrationResult)
deriving DecidableEq

/-- What a call does next: `loading` and `loadingDestination` are before a read, the others but
`ended` before a rename. -/
inductive Phase
  | loading
  | loadingDestination (sourceData : StreamScopeFile)
  | saving (data : StreamScopeFile) (outcome : Outcome)
  | savingDestination (destinationData sourceData : StreamScopeFile)
      (result : SessionGroupStreamMigrationResult)
  | savingSource (sourceData : StreamScopeFile) (result : SessionGroupStreamMigrationResult)
  | ended (result : Except JsString Outcome)
deriving DecidableEq

namespace Phase

def ofResult (result : Except JsString Phase) : Phase :=
  match result with
  | .ok phase => phase
  | .error error => .ended (.error error)

/-- The result of a call that is not going to change. -/
def settled : Phase → Option Outcome
  | .savingSource _ result => some (.migrated result)
  | .ended (.ok outcome) => some outcome
  | _ => none

def isEnded : Phase → Bool
  | .ended _ => true
  | _ => false

end Phase

namespace Request

/-- The scope that the call loads first. -/
def scope : Request → JsString
  | .create input => input.scope
  | .update input => input.scope
  | .migrate input => input.sourceScope

/-- A call up to its first `await`. -/
def start : Request → Phase
  | .create input =>
    match input.check with
    | .ok _ => .loading
    | .error error => .ended (.error error)
  | .update _ => .loading
  | .migrate input =>
    if input.sourceScope = input.destinationScope then
      .ended (.ok (.migrated ⟨input.sourceScope, input.destinationScope, 0, 0⟩))
    else .loading

variable (path : JsString → JsString) (disk : Disk)

/-- A call from its first read to its next `await`. -/
def load (request : Request) (clock : List Nat) : Phase :=
  .ofResult do
    let data ← loadScopeFile request.scope (path request.scope) (disk (path request.scope))
    match request with
    | .create input => do
      let (data, stream) ← createStream data input clock
      return .saving data (.stream (some stream))
    | .update input => do
      match ← updateStream data input clock with
      | none => return .ended (.ok (.stream none))
      | some (data, stream) => return .saving data (.stream (some stream))
    | .migrate input =>
      if data.streams.isEmpty then
        return .ended (.ok (.migrated ⟨input.sourceScope, input.destinationScope, 0, 0⟩))
      else return .loadingDestination data

/-- A migration from its second read to its next `await`. -/
def loadDestination (request : Request) (sourceData : StreamScopeFile) : Phase :=
  match request with
  | .migrate input =>
    .ofResult do
      let destinationData ← loadScopeFile input.destinationScope (path input.destinationScope)
        (disk (path input.destinationScope))
      let (destinationData, sourceData, result) :=
        migrateSessionGroupStreams sourceData destinationData input
      return .savingDestination destinationData sourceData result
  | .create _ | .update _ => .loadingDestination sourceData

end Request

/-- A call; `clock` is what it has read of the clock, and `before` the calls that had ended when it
started. -/
structure Call where
  request : Request
  clock : List Nat := []
  before : List Nat := []
  phase : Phase
deriving DecidableEq

namespace Call

variable (path : JsString → JsString)

/-- The call goes on. -/
def resume (c : Call) (clock : List Nat) (disk : Disk) : Option (Disk × Call) :=
  match c.phase with
  | .loading => some (disk, { c with clock, phase := c.request.load path disk clock })
  | .loadingDestination sourceData =>
    some (disk, { c with phase := c.request.loadDestination path disk sourceData })
  | .saving data outcome =>
    some (disk.set (path data.scope) data, { c with phase := .ended (.ok outcome) })
  | .savingDestination destinationData sourceData result =>
    some (disk.set (path destinationData.scope) destinationData,
      { c with phase := .savingSource sourceData result })
  | .savingSource sourceData result =>
    some (disk.set (path sourceData.scope) sourceData,
      { c with phase := .ended (.ok (.migrated result)) })
  | .ended _ => none

/-- The files that the call has read and has still to save. -/
def held (c : Call) : List JsString :=
  match c.phase, c.request with
  | .saving _ _, request => [path request.scope]
  | .loadingDestination _, request => [path request.scope]
  | .savingDestination _ _ _, .migrate input =>
    [path input.destinationScope, path input.sourceScope]
  | .savingSource _ _, request => [path request.scope]
  | _, _ => []

end Call

/-- A call that was settled, in the order in which they were. -/
structure Entry where
  index : Nat
  request : Request
  clock : List Nat
  before : List Nat
  outcome : Outcome
deriving DecidableEq

structure State where
  calls : Processes Disk Call
  log : List Entry

inductive Event
  | start (request : Request)
  | resume (i : Nat) (clock : List Nat)
deriving DecidableEq

namespace State

/-- The calls that have ended. -/
def ended (s : State) : List Nat :=
  (List.range s.calls.procs.length).filter fun i => s.calls.procs[i]?.any fun c => c.phase.isEnded

/-- The entry of a call that has been settled. -/
def entry (calls : Processes Disk Call) (i : Nat) : Option Entry :=
  calls.procs[i]?.bind fun c => c.phase.settled.map fun outcome =>
    ⟨i, c.request, c.clock, c.before, outcome⟩

/-- The log after a step of the call `i`. -/
def logged (s : State) (i : Nat) (calls : Processes Disk Call) : List Entry :=
  if (entry s.calls i).isSome then s.log else s.log ++ (entry calls i).toList

def step (path : JsString → JsString) (s : State) : Event → Option State
  | .start request =>
    let calls := s.calls.spawn { request, before := s.ended, phase := request.start }
    some ⟨calls, s.logged s.calls.procs.length calls⟩
  | .resume i clock =>
    (s.calls.stepAt i fun disk c => c.resume path clock disk).map fun calls =>
      ⟨calls, s.logged i calls⟩

end State

def streamStore (path : JsString → JsString) : Machine State Event :=
  ⟨⟨⟨fun _ => none, []⟩, []⟩, fun s event => s.step path event⟩

end Takode.Streams
