import Takode.Lib.Machine
import Takode.Lib.Processes

/-!
# The lock of the memory repository

`acquireMemoryLock`, `releaseMemoryLock` and `assertMemoryLockHolder` of
`workstream-memory-store.ts`, for any number of calls in one server run. Each `mkdir`,
read, write and `rm` is one step. No lock expires and no session ends.
-/

namespace Takode.MemoryLock

/-- A session, or a caller without one: `lockHolder?.trim() || undefined`. -/
abbrev Holder := Option String

/-- `owner.json`, as far as it is read. -/
structure LockFile where
  session : Holder
  serverRun : String
deriving DecidableEq, Repr

/-- The lock directory, which is empty until the owner file is written. -/
structure LockDir where
  info : Option LockFile := none
deriving DecidableEq, Repr

/-- The path of the lock directory. -/
abbrev Disk := Option LockDir

structure MemoryLockInfo where
  locked : Bool
  session : Holder := none
  stale : Bool := false
  serverRun : Option String := none
deriving DecidableEq, Repr

def readLockInfo (disk : Disk) : MemoryLockInfo :=
  match disk.bind (·.info) with
  | some raw => { locked := true, session := raw.session, serverRun := some raw.serverRun }
  | none => { locked := false }

structure MemoryLockAcquireInput where
  stealStale : Option Bool := none
  isSessionGone : String → Bool := fun _ => false

/-- Whether `holder` may replace an existing lock, in the server run `SERVER_RUN`. -/
def canTakeOverLock (SERVER_RUN : String) (lock : MemoryLockInfo) (holder : Holder)
    (input : MemoryLockAcquireInput) : Bool :=
  if holder.isSome && lock.session = holder then true
  else if input.stealStale = some false then false
  else if lock.stale then true
  else match lock.session with
    | some session => input.isSessionGone session
    | none => lock.serverRun ≠ some SERVER_RUN

/-- The errors of `assertMemoryLockHolder`. -/
inductive AssertError
  | notLocked
  | stale
  | heldBy (session : Holder)
deriving DecidableEq, Repr

def assertMemoryLockHolder (disk : Disk) (holder : Holder) : Except AssertError Unit :=
  let lock := readLockInfo disk
  if !lock.locked then .error .notLocked
  else if lock.stale then .error .stale
  else if lock.session ≠ holder then .error (.heldBy lock.session)
  else .ok ()

/-- What a call does next: `making` and `remaking` are before the `mkdir`s of an acquire, `removing`
before the `rm` of a take-over, `confirming` before its last read, and `releasing` before the `rm`
of a release. An acquire that has failed is `refused`. -/
inductive Phase
  | making
  | reading
  | removing
  | remaking
  | writing
  | confirming
  | acquired (info : MemoryLockInfo)
  | refused
  | releasing
  | released
deriving DecidableEq, Repr

/-- A call; `over` is set when its session has released what it has taken. -/
structure Call where
  holder : Holder
  stealStale : Option Bool := none
  phase : Phase
  past : Bool := false
deriving DecidableEq, Repr

namespace Call

variable (c : Call)

def become (phase : Phase) : Call := { c with phase := phase }

/-- An acquire has made the lock directory. -/
def taken : Bool :=
  match c.phase with
  | .writing | .confirming | .acquired _ => true
  | _ => false

/-- It has taken the lock, which was not released since. -/
def holds : Bool := c.taken && !c.past

/-- The session `holder` releases the lock. -/
def release (holder : Holder) : Call := if c.holder = holder && c.taken then { c with past := true } else c

/-- An acquire goes on; a `mkdir` throws if the directory is there, and a write if it is not. -/
def resume (SERVER_RUN : String) (disk : Disk) : Option (Disk × Call) :=
  match c.phase with
  | .making =>
    match disk with
    | none => some (some {}, c.become .writing)
    | some _ => some (disk, c.become .reading)
  | .reading =>
    if canTakeOverLock SERVER_RUN (readLockInfo disk) c.holder { stealStale := c.stealStale } then
      some (disk, c.become .removing)
    else some (disk, c.become .refused)
  | .removing => some (none, c.become .remaking)
  | .remaking =>
    match disk with
    | none => some (some {}, c.become .writing)
    | some _ => some (disk, c.become .refused)
  | .writing =>
    match disk with
    | none => some (disk, c.become .refused)
    | some _ => some (some ⟨some ⟨c.holder, SERVER_RUN⟩⟩, c.become .confirming)
  | .confirming => some (disk, c.become (.acquired (readLockInfo disk)))
  | .acquired _ | .refused | .releasing | .released => none

end Call

/-- `acquire` and `release` start a call, the latter for the session of the acquire `i`; `resume`
goes on with an acquire, and `rm` with a release. -/
inductive Event
  | acquire (holder : Holder) (stealStale : Option Bool)
  | resume (i : Nat)
  | release (i : Nat)
  | rm (i : Nat)
  | assertHolder (holder : Holder)
deriving DecidableEq, Repr

abbrev State := Processes Disk Call

/-- A release starts: the session of the acquire `i` has the lock. -/
def State.startRelease (s : State) (i : Nat) : Option State :=
  s.procs[i]?.bind fun c =>
    match c.phase with
    | .acquired _ => if c.past then none else some (s.spawn { holder := c.holder, phase := .releasing })
    | _ => none

def State.rm (s : State) (i : Nat) : Option State :=
  s.procs[i]?.bind fun c =>
    if c.phase = .releasing then
      some ⟨none, (s.procs.set i (c.become .released)).map fun q => q.release c.holder⟩
    else none

def State.step (SERVER_RUN : String) (s : State) : Event → Option State
  | .acquire holder stealStale => some (s.spawn { holder, stealStale, phase := .making })
  | .resume i => s.stepAt i fun disk c => c.resume SERVER_RUN disk
  | .release i => s.startRelease i
  | .rm i => s.rm i
  | .assertHolder _ => some s

def memoryLock (SERVER_RUN : String) : Machine State Event :=
  ⟨⟨none, []⟩, fun s event => s.step SERVER_RUN event⟩

end Takode.MemoryLock
