import Takode.Lib.Machine
import Takode.Lib.Processes

/-!
# The directory lock of the quest store

`withDirectoryLock` of `quest-store-locks.ts`, for any number of callers on one path.
Each `mkdir`, `stat` and `rm` is one step, and so is the passing of time; a caller
whose operation has failed or whose process has ended takes no step any more.
-/

namespace Takode.DirectoryLock

def LOCK_RETRY_MS : Nat := 10

/-- The lock directory; `id` tells the directories that were created one after another apart. -/
structure LockDir where
  id : Nat
  mtimeMs : Nat
deriving DecidableEq, Repr

/-- The path, the clock, and the number of directories created so far. -/
structure Disk where
  lockDir : Option LockDir := none
  now : Nat := 0
  made : Nat := 0
deriving DecidableEq, Repr

/-- What a caller does next: `trying` is before `mkdir`, `checking` before `stat`, `judging` has the
answer of `stat`, `removing` has judged the lock stale, and `holding` runs the operation with the
directory that its `mkdir` created. -/
inductive Phase
  | trying
  | checking
  | judging (stat : Option LockDir)
  | removing (stale : LockDir)
  | waiting (time : Nat)
  | holding (lock : LockDir)
  | releasing (lock : LockDir)
  | ended
deriving DecidableEq, Repr

structure Caller where
  startedAt : Nat
  phase : Phase
deriving DecidableEq, Repr

namespace Caller

variable (c : Caller)

def become (phase : Phase) : Caller := { c with phase := phase }

/-- `isStale`, of what `stat` has given; a failed `stat` is not stale. -/
def isStale (staleMs now : Nat) (stat : Option LockDir) : Bool :=
  stat.any fun lock => now - lock.mtimeMs > staleMs

/-- The lock is not stale: `Timed out waiting for <label>`, or another try after the delay. -/
def retry (staleMs now : Nat) : Caller :=
  if now - c.startedAt > staleMs * 2 then c.become .ended
  else c.become (.waiting (now + LOCK_RETRY_MS))

/-- The caller goes on. -/
def resume (staleMs : Nat) (disk : Disk) : Option (Disk × Caller) :=
  match c.phase with
  | .trying =>
    match disk.lockDir with
    | none =>
      let lock : LockDir := ⟨disk.made, disk.now⟩
      some ({ disk with lockDir := some lock, made := disk.made + 1 }, c.become (.holding lock))
    | some _ => some (disk, c.become .checking)
  | .checking => some (disk, c.become (.judging disk.lockDir))
  | .judging stat =>
    match stat with
    | some lock =>
      if isStale staleMs disk.now stat then some (disk, c.become (.removing lock))
      else some (disk, c.retry staleMs disk.now)
    | none => some (disk, c.retry staleMs disk.now)
  | .removing _ => some ({ disk with lockDir := none }, c.become .trying)
  | .waiting time => if disk.now ≥ time then some (disk, c.become .trying) else none
  | .holding lock => some (disk, c.become (.releasing lock))
  | .releasing _ => some ({ disk with lockDir := none }, c.become .ended)
  | .ended => none

/-- The file operation of the caller fails: `mkdir` and the `rm` of a release throw, the others
are passed over. -/
def fail (disk : Disk) : Option (Disk × Caller) :=
  match c.phase with
  | .trying | .releasing _ => some (disk, c.become .ended)
  | .checking => some (disk, c.become (.judging none))
  | .removing _ => some (disk, c.become .trying)
  | _ => none

/-- The directory that the caller has created and not yet removed. -/
def lock : Option LockDir :=
  match c.phase with
  | .holding lock | .releasing lock => some lock
  | _ => none

end Caller

inductive Event
  | start
  | resume (i : Nat)
  | fail (i : Nat)
  | crash (i : Nat)
  | tick (ms : Nat)
deriving DecidableEq, Repr

abbrev State := Processes Disk Caller

def State.step (staleMs : Nat) (s : State) : Event → Option State
  | .start => some (s.spawn ⟨s.shared.now, .trying⟩)
  | .resume i => s.stepAt i fun disk c => c.resume staleMs disk
  | .fail i => s.stepAt i fun disk c => c.fail disk
  | .crash i => s.stepAt i fun disk c => some (disk, c.become .ended)
  | .tick ms => some { s with shared := { s.shared with now := s.shared.now + ms } }

/-- `withDirectoryLock`, with the stale time that its callers give. -/
def directoryLock (staleMs : Nat) : Machine State Event :=
  ⟨⟨{}, []⟩, fun s event => s.step staleMs event⟩

end Takode.DirectoryLock
