import Takode.Lib.Machine

/-!
# The timers of one session

`timer-manager.ts` and `timer-store.ts`, one session at a time. An operation runs up
to its next `await` in one step and is then kept as a task; what the file system does
for it is a step of its own, and so is its going on. Objects that operations share are
kept in a heap, since an operation may hold a file that the manager has dropped.
-/

namespace Takode.Timers

inductive TimerType
  | delay | at | recurring
deriving DecidableEq, Repr

/-- What the manager reads of a `SessionTimer`; the id `t{n}` is its number. -/
structure SessionTimer where
  id : Nat
  type : TimerType
  nextFireAt : Nat
  intervalMs : Option Nat := none
  lastFiredAt : Option Nat := none
  fireCount : Nat := 0
deriving DecidableEq, Repr

/-- What `resolveTimerSchedule` gives for the input of `createTimer`. -/
structure TimerSchedule where
  type : TimerType
  nextFireAt : Nat
  intervalMs : Option Nat := none
deriving DecidableEq, Repr

structure SessionTimerFile where
  nextId : Nat
  timers : List SessionTimer
deriving DecidableEq, Repr

def emptyFile : SessionTimerFile := ⟨1, []⟩

def SessionTimerFile.ids (file : SessionTimerFile) : List Nat := file.timers.map (·.id)

/-- `loadTimers`, of what the file system holds. -/
def loadTimers (disk : Option SessionTimerFile) : SessionTimerFile := disk.getD emptyFile

/-- `timer.type === "recurring" && timer.intervalMs && timer.intervalMs > 0`. -/
def SessionTimer.repeats (timer : SessionTimer) : Bool :=
  timer.type = .recurring && (timer.intervalMs.getD 0) > 0

/-- `resolveRecurringFireContext`: the last occurrence that is due. -/
def SessionTimer.scheduledFireAt (timer : SessionTimer) (now : Nat) : Nat :=
  let intervalMs := timer.intervalMs.getD 0
  timer.nextFireAt + (now - timer.nextFireAt) / intervalMs * intervalMs

/-- A recurring timer after it has fired. -/
def SessionTimer.fired (timer : SessionTimer) (now : Nat) : SessionTimer :=
  { timer with
    lastFiredAt := some now
    fireCount := timer.fireCount + 1
    nextFireAt := timer.scheduledFireAt now + timer.intervalMs.getD 0 }

/-- It is due, and the session is not paused at its turn. -/
def SessionTimer.fires (timer : SessionTimer) (now : Nat) (paused : List Nat) : Bool :=
  timer.nextFireAt ≤ now && timer.id ∉ paused

/-- The ids that a sweep removes: those of the timers that fire and do not repeat. -/
def SessionTimerFile.toRemove (file : SessionTimerFile) (now : Nat) (paused : List Nat) :
    List Nat :=
  (file.timers.filter fun timer => timer.fires now paused && !timer.repeats).map (·.id)

/-- The file after the loop of a sweep over its timers. -/
def SessionTimerFile.sweep (file : SessionTimerFile) (now : Nat) (paused : List Nat) :
    SessionTimerFile :=
  let timers := file.timers.map fun timer =>
    if timer.fires now paused && timer.repeats then timer.fired now else timer
  { file with timers := timers.filter fun timer => timer.id ∉ file.toRemove now paused }

/-- `file.timers.splice(idx, 1)` at the first timer with the id. -/
def SessionTimerFile.remove (file : SessionTimerFile) (timerId : Nat) : SessionTimerFile :=
  { file with timers := file.timers.eraseP (·.id = timerId) }

/-- `file.timers.push(timer)`, with the next id. -/
def SessionTimerFile.push (file : SessionTimerFile) (schedule : TimerSchedule) :
    SessionTimerFile where
  nextId := file.nextId + 1
  timers := file.timers ++
    [⟨file.nextId, schedule.type, schedule.nextFireAt, schedule.intervalMs, none, 0⟩]

/-- A snapshot in the session's write chain, with the task that waits for it. -/
structure PendingWrite where
  snapshot : SessionTimerFile
  task : Nat
deriving DecidableEq, Repr

/-- The operations under way, by what they wait for. A `createTimer` is `loading` while its file is
read, `loaded` until the content is put in memory, and `looked` until it goes on with its file;
`call` is the number of its call and `epoch` how many `cancelAllTimers` came before. A `creating`
or `evicting` one waits for its write, and goes on when that is `written`. -/
inductive Task
  | loading (call epoch : Nat) (schedule : TimerSchedule)
  | loaded (call epoch : Nat) (schedule : TimerSchedule) (content : SessionTimerFile)
  | looked (call epoch : Nat) (schedule : TimerSchedule) (file : Nat)
  | creating (epoch id : Nat) (written : Bool)
  | evicting (written : Bool)
  | unlinking (mark : Nat)
  | unlinked (mark : Nat)
  | ended
deriving DecidableEq, Repr

/-- The task after its write is done. -/
def Task.written : Task → Task
  | .creating epoch id _ => .creating epoch id true
  | .evicting _ => .evicting true
  | task => task

/-- The manager and the file system, for one session. `session` is the entry of `sessions`, by its
place in the heap. The rest records what has happened: the calls of `createTimer` and of
`cancelAllTimers`, and since the last of these the ids created, those whose `createTimer` has
resolved, and those neither cancelled nor removed by a sweep. A `cancelAllTimers` is marked with the
number of calls of `createTimer` before it: `mark` is that of the last one, `cleared` has those of
the ones that have resolved. -/
structure TimerManager where
  files : List SessionTimerFile := []
  session : Option Nat := none
  writes : List PendingWrite := []
  disk : Option SessionTimerFile := none
  tasks : List Task := []
  creates : Nat := 0
  cancels : Nat := 0
  mark : Nat := 0
  created : List Nat := []
  resolved : List Nat := []
  kept : List Nat := []
  cleared : List Nat := []
deriving DecidableEq, Repr

namespace TimerManager

variable (m : TimerManager)

/-- `this.sessions.get(sessionId)`. -/
def current : Option SessionTimerFile := m.session.bind (m.files[·]?)

def setTask (i : Nat) (task : Task) : TimerManager := { m with tasks := m.tasks.set i task }

def addTask (task : Task) : TimerManager := { m with tasks := m.tasks ++ [task] }

/-- `persistSessionNow`, called by the task `i`, which `waits` until its write is done. -/
def persistSessionNow (i : Nat) (waits : Bool → Task) : TimerManager :=
  match m.current with
  | some file =>
    { m with writes := m.writes ++ [⟨file, i⟩], tasks := m.tasks.set i (waits false) }
  | none => m.setTask i (waits true)

/-- `createTimer` up to its first `await`, with a valid input. -/
def createTimer (schedule : TimerSchedule) : TimerManager :=
  let call := m.creates + 1
  { m with
    creates := call
    tasks := m.tasks ++ [match m.session with
      | some file => .looked call m.cancels schedule file
      | none => .loading call m.cancels schedule] }

def MAX_TIMERS_PER_SESSION : Nat := 50

/-- `createTimer` goes on with its file: it throws at the limit, else it pushes the timer. -/
def pushTimer (i : Nat) (schedule : TimerSchedule) (ref : Nat) : Option TimerManager :=
  (m.files[ref]?).map fun file =>
    if file.timers.length ≥ MAX_TIMERS_PER_SESSION then m.setTask i .ended
    else
      { m with
        files := m.files.set ref (file.push schedule)
        created := m.created ++ [file.nextId]
        kept := m.kept ++ [file.nextId] }.persistSessionNow i (.creating m.cancels file.nextId)

/-- `cancelTimer`, up to its `await`; `false` where it returns at once. -/
def cancelTimer (timerId : Nat) : TimerManager :=
  match m.session, m.current with
  | some ref, some file =>
    if timerId ∈ file.ids then
      let m := m.addTask .ended
      { m with
        files := m.files.set ref (file.remove timerId)
        kept := m.kept.filter (· ≠ timerId) }.persistSessionNow (m.tasks.length - 1) .evicting
    else m
  | _, _ => m

/-- `sweep` for the session; `paused` are the timers at whose turn it is paused. -/
def sweep (now : Nat) (paused : List Nat) : TimerManager :=
  match m.session, m.current with
  | some ref, some file =>
    if file.timers.any (·.fires now paused) then
      let m := m.addTask .ended
      { m with
        files := m.files.set ref (file.sweep now paused)
        kept := m.kept.filter (· ∉ file.toRemove now paused) }.persistSessionNow
          (m.tasks.length - 1) .evicting
    else m
  | _, _ => m

/-- `cancelAllTimers` up to its `await`. -/
def cancelAllTimers : TimerManager :=
  { m with
    session := none
    tasks := m.tasks ++ [.unlinking m.creates]
    cancels := m.cancels + 1
    mark := m.creates
    created := []
    resolved := []
    kept := [] }

/-- `if (file && file.timers.length === 0) this.sessions.delete(sessionId)`. -/
def evictIfEmpty : TimerManager :=
  if (m.current.any fun file => file.timers.isEmpty) then { m with session := none } else m

/-- A task goes on after its `await`. -/
def resume (i : Nat) : Option TimerManager :=
  match m.tasks[i]? with
  | some (.loaded call epoch schedule content) =>
    some { m with
      files := m.files ++ [content]
      session := some m.files.length
      tasks := m.tasks.set i (.looked call epoch schedule m.files.length) }
  | some (.looked _ _ schedule ref) => m.pushTimer i schedule ref
  | some (.creating epoch id true) =>
    some { m with
      tasks := m.tasks.set i .ended
      resolved := if epoch = m.cancels then m.resolved ++ [id] else m.resolved }
  | some (.evicting true) => some (m.setTask i .ended).evictIfEmpty
  | some (.unlinked mark) =>
    some { m with tasks := m.tasks.set i .ended, cleared := m.cleared ++ [mark] }
  | _ => none

/-- The file of a loading task is read. -/
def read (i : Nat) : Option TimerManager :=
  match m.tasks[i]? with
  | some (.loading call epoch schedule) =>
    some (m.setTask i (.loaded call epoch schedule (loadTimers m.disk)))
  | _ => none

/-- The file is deleted for a `cancelAllTimers`. -/
def unlink (i : Nat) : Option TimerManager :=
  match m.tasks[i]? with
  | some (.unlinking mark) => some { m with disk := none, tasks := m.tasks.set i (.unlinked mark) }
  | _ => none

/-- The first write of the chain is done. -/
def write : Option TimerManager :=
  match m.writes with
  | [] => none
  | first :: rest =>
    some { m with
      disk := some first.snapshot
      writes := rest
      tasks := m.tasks.modify first.task Task.written }

end TimerManager

inductive Event
  | createTimer (schedule : TimerSchedule)
  | cancelTimer (timerId : Nat)
  | cancelAllTimers
  | sweep (now : Nat) (paused : List Nat)
  | resumes (i : Nat)
  | reads (i : Nat)
  | unlinks (i : Nat)
  | writes
deriving DecidableEq, Repr

def TimerManager.step (m : TimerManager) : Event → Option TimerManager
  | .createTimer schedule => some (m.createTimer schedule)
  | .cancelTimer timerId => some (m.cancelTimer timerId)
  | .cancelAllTimers => some m.cancelAllTimers
  | .sweep now paused => some (m.sweep now paused)
  | .resumes i => m.resume i
  | .reads i => m.read i
  | .unlinks i => m.unlink i
  | .writes => m.write

/-- `startAll`, with what the disk holds: a file with timers is put in memory. -/
def startAll (disk : Option SessionTimerFile) : TimerManager :=
  match disk with
  | some file =>
    if file.timers.length > 0 then { files := [file], session := some 0, disk := some file }
    else { disk := some file }
  | none => {}

def timerManager (disk : Option SessionTimerFile) : Machine TimerManager Event :=
  ⟨startAll disk, TimerManager.step⟩

end Takode.Timers
