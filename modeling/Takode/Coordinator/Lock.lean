import Mathlib.Logic.Function.Basic
import Takode.Lib.Machine
import Takode.Lib.Processes

/-!
# The epoch file of a coordinator

`coordinator-lock.ts`: any number of starts and of `raiseCoordinatorEpoch` calls on one
directory. Each reads the file, writes a candidate that is named by its process id, and
renames the candidate over the file; each of these is one step.
-/

namespace Takode.Coordinator

/-- The part of a `CoordinatorHolder` that is compared. -/
structure CoordinatorHolder where
  epoch : Nat
  pid : Nat
deriving DecidableEq, Repr

/-- The files of the directory, and the epochs that starts have claimed, in order: a start has
claimed its epoch when its candidate is renamed. -/
structure Directory where
  file : Option CoordinatorHolder := none
  temps : Nat → Option CoordinatorHolder := fun _ => none
  claims : List Nat := []

/-- `readCoordinatorEpoch`. -/
def Directory.epoch (dir : Directory) : Nat := dir.file.elim 0 (·.epoch)

/-- A call of `claimCoordinatorEpoch`, or of `raiseCoordinatorEpoch`, in the process `pid`. -/
inductive Call
  | claim
  | raise (epoch : Nat)
deriving DecidableEq, Repr

/-- How far the process has come. `polled` is the number of claims that had been made when a start
last looked at the file. -/
inductive Phase
  | reading
  | writing (read : Nat) (mine : CoordinatorHolder)
  | written (read : Nat) (mine : CoordinatorHolder)
  | running (mine : CoordinatorHolder) (polled : Nat)
  | ended
deriving DecidableEq, Repr

structure Process where
  pid : Nat
  call : Call
  phase : Phase
deriving DecidableEq, Repr

namespace Process

variable (p : Process)

def become (phase : Phase) : Process := { p with phase := phase }

/-- The file operation that the call waits for is done. -/
def resume (dir : Directory) : Option (Directory × Process) :=
  match p.phase with
  | .reading =>
    match p.call with
    | .claim => some (dir, p.become (.writing dir.epoch ⟨dir.epoch + 1, p.pid⟩))
    | .raise epoch =>
      if dir.epoch ≥ epoch then some (dir, p.become .ended)
      else some (dir, p.become (.writing dir.epoch ⟨epoch, 0⟩))
  | .writing read mine =>
    some ({ dir with temps := Function.update dir.temps p.pid (some mine) },
      p.become (.written read mine))
  | .written _ mine =>
    match dir.temps p.pid with
    | none => some (dir, p.become .ended)
    | some candidate =>
      let dir := { dir with
        file := some candidate
        temps := Function.update dir.temps p.pid none }
      match p.call with
      | .claim =>
        some ({ dir with claims := dir.claims ++ [mine.epoch] }, p.become (.running mine 0))
      | .raise _ => some (dir, p.become .ended)
  | .running .. | .ended => none

/-- The timer of a start that is running: another holder in the file is a takeover. -/
def poll (dir : Directory) : Option (Directory × Process) :=
  match p.phase with
  | .running mine _ =>
    match dir.file with
    | none => some (dir, p.become (.running mine dir.claims.length))
    | some holder =>
      if holder.epoch = mine.epoch ∧ holder.pid = mine.pid then
        some (dir, p.become (.running mine dir.claims.length))
      else some (dir, p.become .ended)
  | _ => none

end Process

/-- `stop` is a `stop()` of the start, or the end of its process. -/
inductive Event
  | start (pid : Nat)
  | raise (pid epoch : Nat)
  | resume (i : Nat)
  | poll (i : Nat)
  | stop (i : Nat)
deriving DecidableEq, Repr

abbrev State := Processes Directory Process

def State.step (s : State) : Event → Option State
  | .start pid => some (s.spawn ⟨pid, .claim, .reading⟩)
  | .raise pid epoch => some (s.spawn ⟨pid, .raise epoch, .reading⟩)
  | .resume i => s.stepAt i fun dir p => p.resume dir
  | .poll i => s.stepAt i fun dir p => p.poll dir
  | .stop i => s.stepAt i fun dir p => some (dir, p.become .ended)

def coordinators : Machine State Event := ⟨⟨{}, []⟩, State.step⟩

end Takode.Coordinator
