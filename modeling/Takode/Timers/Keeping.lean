import Mathlib.Order.Nat
import Mathlib.Data.List.Nodup
import Takode.Timers.Manager

/-!
# No timer is lost or comes back

The file in memory is what the last write of the chain will leave on disk, as long as
a `createTimer` goes on with the file in memory, a file is put in memory only when it
is what the disk holds and will hold, and no file is deleted before a pending write.
-/

namespace Takode.Timers

/-- The file is being deleted for it. -/
def Task.unlinks : Task → Bool
  | .unlinking _ => true
  | _ => false

/-- It may be the task that a pending write belongs to. -/
def Task.stored : Task → Bool
  | .creating .. | .evicting _ | .ended => true
  | _ => false

theorem Task.stored_written (task : Task) : task.written.stored = task.stored := by
  cases task <;> rfl

namespace TimerManager

/-- The condition: `createTimer` goes on with the file that is in memory; it puts the file it has
read in memory when there is none, nothing is on its way to the disk, the file has not changed and
no `cancelAllTimers` came after the call; and `cancelAllTimers` deletes the file after the writes
of the session are done. -/
def admits (m : TimerManager) : Event → Bool
  | .resumes i =>
    match m.tasks[i]? with
    | some (.looked _ _ _ ref) => m.session = some ref
    | some (.loaded _ epoch _ content) =>
      m.session = none ∧ m.writes = [] ∧ content = loadTimers m.disk ∧ epoch = m.cancels ∧
        m.tasks.all (!·.unlinks)
    | _ => true
  | .unlinks _ => m.writes = []
  | _ => true

/-- What the disk holds, and what it will hold after each pending write. -/
def versions (m : TimerManager) : List SessionTimerFile :=
  loadTimers m.disk :: m.writes.map (·.snapshot)

def latest (m : TimerManager) : SessionTimerFile := m.versions.getLast (by simp [versions])

/-- Calls are numbered, and a task that belongs to the present epoch was called in it. -/
def Aged (m : TimerManager) : Task → Prop
  | .loading call epoch _ | .loaded call epoch _ _ | .looked call epoch _ _ =>
    call ≤ m.creates ∧ epoch ≤ m.cancels ∧ (epoch = m.cancels → m.mark < call)
  | .creating epoch id _ => epoch ≤ m.cancels ∧ (epoch = m.cancels → id ∈ m.created)
  | .unlinking mark | .unlinked mark => mark ≤ m.mark
  | .evicting _ | .ended => True

/-- What holds in every state of a run that meets the condition. -/
structure Keeps (m : TimerManager) : Prop where
  here : ∀ {ref}, m.session = some ref → m.files[ref]? = some m.latest
  listed : ∀ {id}, id ∈ m.kept → (∃ ref, m.session = some ref) ∧ id ∈ m.latest.ids
  made : m.kept ⊆ m.created
  fresh : ∀ {id}, id ∈ m.created → id < m.latest.nextId
  distinct : m.created.Nodup
  owner : ∀ {w}, w ∈ m.writes → ∃ task, m.tasks[w.task]? = some task ∧ task.stored = true
  pending : ∀ {w id}, w ∈ m.writes → id ∈ m.kept →
    m.tasks[w.task]? = some (.creating m.cancels id false) → id ∈ w.snapshot.ids
  lasting : m.writes.Pairwise fun w v => ∀ id ∈ m.kept,
    m.tasks[w.task]? = some (.creating m.cancels id false) → id ∈ v.snapshot.ids
  written : ∀ {id}, id ∈ m.kept → id ∈ m.resolved ∨ .creating m.cancels id true ∈ m.tasks →
    ∀ version ∈ m.versions, id ∈ version.ids
  deleting : ∀ {mark}, .unlinking mark ∈ m.tasks → m.session = none ∧ m.created = []
  cleared : ∀ {mark}, mark ∈ m.cleared ∨ .unlinked mark ∈ m.tasks → mark = m.creates →
    m.session = none ∧ m.writes = [] ∧ m.disk = none
  aged : ∀ {task}, task ∈ m.tasks → m.Aged task
  resolvedMade : m.resolved ⊆ m.created
  clearedMark : ∀ {mark}, mark ∈ m.cleared → mark ≤ m.mark
  markLe : m.mark ≤ m.creates

variable {m m' : TimerManager} {i : Nat} {old new : Task}

theorem latest_append {files : List SessionTimerFile} {tasks : List Task} {created kept : List Nat}
    (write : PendingWrite) : latest { m with
      files := files, writes := m.writes ++ [write], tasks := tasks, created := created,
      kept := kept } = write.snapshot := by
  simp [latest, versions]

theorem here_start (disk : Option SessionTimerFile) : (startAll disk).Keeps := by
  unfold startAll
  split
  · split
    · refine ⟨?_, ?_, ?_, ?_, ?_, ?_, ?_, ?_, ?_, ?_, ?_, ?_, ?_, ?_, ?_⟩ <;>
        simp [latest, versions, loadTimers]
    · refine ⟨?_, ?_, ?_, ?_, ?_, ?_, ?_, ?_, ?_, ?_, ?_, ?_, ?_, ?_, ?_⟩ <;> simp
  · refine ⟨?_, ?_, ?_, ?_, ?_, ?_, ?_, ?_, ?_, ?_, ?_, ?_, ?_, ?_, ?_⟩ <;> simp

namespace Keeps

variable (inv : m.Keeps)
include inv

/-- A task that waited for nothing of a write becomes another one. -/
theorem retask {old : Task} (new : Task) (was : m.tasks[i]? = some old)
    (stored : old.stored = true → new.stored = true)
    (kind : ∀ epoch id written, new ≠ .creating epoch id written)
    (kind' : ∀ mark, new ≠ .unlinking mark ∧ new ≠ .unlinked mark)
    (aged : m.Aged new) : (m.setTask i new).Keeps where
  here := inv.here
  listed := inv.listed
  made := inv.made
  fresh := inv.fresh
  distinct := inv.distinct
  owner := by
    intro w inside
    obtain ⟨task, found, kept⟩ := inv.owner inside
    show ∃ task, (m.tasks.set i new)[w.task]? = some task ∧ _
    by_cases same : i = w.task
    · subst same
      rw [found] at was
      obtain rfl := Option.some.inj was
      have bound := (List.getElem?_eq_some_iff.mp found).1
      exact ⟨new, by simp [bound], stored kept⟩
    · exact ⟨task, by rw [List.getElem?_set_ne same, found], kept⟩
  pending := by
    intro w id inside kept found
    have found' : m.tasks[w.task]? = some (.creating m.cancels id false) := by
      by_cases same : i = w.task
      · have bound : i < m.tasks.length := (List.getElem?_eq_some_iff.mp was).1
        have is_new : (m.tasks.set i new)[w.task]? = some new := by
          rw [← same]
          simp [bound]
        exact absurd (Option.some.inj (is_new.symm.trans found)) (kind _ _ _)
      · rwa [setTask, List.getElem?_set_ne same] at found
    exact inv.pending inside kept found'
  lasting := by
    refine inv.lasting.imp fun {w v} before id kept found => before id kept ?_
    by_cases same : i = w.task
    · have bound : i < m.tasks.length := (List.getElem?_eq_some_iff.mp was).1
      have is_new : (m.tasks.set i new)[w.task]? = some new := by
        rw [← same]
        simp [bound]
      exact absurd (Option.some.inj (is_new.symm.trans found)) (kind _ _ _)
    · rwa [setTask, List.getElem?_set_ne same] at found
  written := by
    intro id kept done
    refine inv.written kept (done.imp_right fun inside => ?_)
    exact (List.mem_or_eq_of_mem_set inside).resolve_right fun eq => kind _ _ _ eq.symm
  deleting := fun inside =>
    inv.deleting ((List.mem_or_eq_of_mem_set inside).resolve_right fun eq => (kind' _).1 eq.symm)
  cleared := fun {mark} done => inv.cleared (done.imp_right fun inside =>
    (List.mem_or_eq_of_mem_set inside).resolve_right fun eq => (kind' _).2 eq.symm)
  aged := by
    intro task inside
    rcases List.mem_or_eq_of_mem_set inside with was | rfl
    · exact inv.aged was
    · exact aged
  resolvedMade := inv.resolvedMade
  clearedMark := inv.clearedMark
  markLe := inv.markLe

/-- A `createTimer` that resolves. -/
theorem resolve {epoch id : Nat} (was : m.tasks[i]? = some (.creating epoch id true)) :
    Keeps { m with
      tasks := m.tasks.set i .ended
      resolved := if epoch = m.cancels then m.resolved ++ [id] else m.resolved } := by
  have ended := inv.retask .ended was (fun _ => rfl) (by simp) (by simp) trivial
  split
  · rename_i present
    subst present
    have listed := List.mem_of_getElem? was
    refine { ended with written := fun {id'} kept done => ?_, resolvedMade := ?_ }
    · rcases done with inside | creating
      · rcases List.mem_append.mp inside with before | is_new
        · exact inv.written kept (.inl before)
        · obtain rfl := List.mem_singleton.mp is_new
          exact inv.written kept (.inr listed)
      · exact ended.written kept (.inr creating)
    · intro id' inside
      rcases List.mem_append.mp inside with before | is_new
      · exact inv.resolvedMade before
      · obtain rfl := List.mem_singleton.mp is_new
        exact (inv.aged listed).2 rfl
  · exact { ended with }

/-- A `cancelAllTimers` that resolves. -/
theorem clear {mark : Nat} (was : m.tasks[i]? = some (.unlinked mark)) :
    Keeps { m with tasks := m.tasks.set i .ended, cleared := m.cleared ++ [mark] } := by
  have ended := inv.retask .ended was (fun _ => rfl) (by simp) (by simp) trivial
  have listed := List.mem_of_getElem? was
  refine { ended with cleared := fun {mark'} done => ?_, clearedMark := fun {mark'} inside => ?_ }
  · rcases done with inside | unlinked
    · rcases List.mem_append.mp inside with before | is_new
      · exact inv.cleared (.inl before)
      · obtain rfl := List.mem_singleton.mp is_new
        exact inv.cleared (.inr listed)
    · exact ended.cleared (.inr unlinked)
  · rcases List.mem_append.mp inside with before | is_new
    · exact inv.clearedMark before
    · obtain rfl := List.mem_singleton.mp is_new
      exact inv.aged listed

theorem owner_append {w : PendingWrite} (inside : w ∈ m.writes) (tasks : List Task) :
    (m.tasks ++ tasks)[w.task]? = m.tasks[w.task]? := by
  obtain ⟨task, found, _⟩ := inv.owner inside
  exact List.getElem?_append_left (List.getElem?_eq_some_iff.mp found).1

theorem createTimer (schedule : TimerSchedule) : (m.createTimer schedule).Keeps := by
  obtain ⟨task, added, kind, aged⟩ : ∃ task, m.createTimer schedule =
      { m with creates := m.creates + 1, tasks := m.tasks ++ [task] } ∧
      (task.stored = false ∧ ∀ mark, task ≠ .unlinking mark ∧ task ≠ .unlinked mark) ∧
      Aged { m with creates := m.creates + 1 } task := by
    have later : m.mark < m.creates + 1 := Nat.lt_succ_of_le inv.markLe
    unfold TimerManager.createTimer
    cases m.session with
    | none => exact ⟨_, rfl, by simp [Task.stored], le_rfl, le_rfl, fun _ => later⟩
    | some ref => exact ⟨_, rfl, by simp [Task.stored], le_rfl, le_rfl, fun _ => later⟩
  rw [added]
  have old_task : ∀ {other : Task}, other ∈ m.tasks ++ [task] → other ≠ task → other ∈ m.tasks :=
    fun inside apart =>
      (List.mem_append.mp inside).resolve_right fun is_new => apart (List.mem_singleton.mp is_new)
  refine { inv with
    owner := ?_, pending := ?_, lasting := ?_, written := ?_, deleting := ?_, cleared := ?_,
    aged := ?_, markLe := inv.markLe.trans (Nat.le_succ _) }
  · intro w inside
    obtain ⟨other, found, stored⟩ := inv.owner inside
    exact ⟨other, (inv.owner_append inside _).trans found, stored⟩
  · intro w id inside kept found
    exact inv.pending inside kept ((inv.owner_append inside _).symm.trans found)
  · refine inv.lasting.imp_of_mem fun {w v} inside _ before id kept found => ?_
    exact before id kept ((inv.owner_append inside _).symm.trans found)
  · intro id kept done
    refine inv.written kept (done.imp_right fun inside => old_task inside ?_)
    rintro rfl
    simp [Task.stored] at kind
  · intro mark inside
    exact inv.deleting (old_task inside fun eq => (kind.2 mark).1 eq.symm)
  · intro mark done last
    have bound : mark ≤ m.mark := by
      rcases done with inside | inside
      · exact inv.clearedMark inside
      · exact inv.aged (old_task inside fun eq => (kind.2 mark).2 eq.symm)
    exact absurd (last ▸ bound.trans inv.markLe) (Nat.not_succ_le_self _)
  · intro other inside
    rcases List.mem_append.mp inside with before | is_new
    · have was := inv.aged before
      cases other with
      | loading | loaded | looked => exact ⟨was.1.trans (Nat.le_succ _), was.2⟩
      | creating | evicting | unlinking | unlinked | ended => exact was
    · obtain rfl := List.mem_singleton.mp is_new
      exact aged

/-- What was read is put in memory, under the condition. -/
theorem place {call epoch : Nat} {schedule : TimerSchedule}
    (was : m.tasks[i]? = some (.loaded call epoch schedule (loadTimers m.disk)))
    (quiet : m.writes = []) (present : epoch = m.cancels)
    (calm : ∀ mark, .unlinking mark ∉ m.tasks) :
    Keeps { m with
      files := m.files ++ [loadTimers m.disk]
      session := some m.files.length
      tasks := m.tasks.set i (.looked call epoch schedule m.files.length) } := by
  have age := inv.aged (List.mem_of_getElem? was)
  have looked := inv.retask (.looked call epoch schedule m.files.length) was
    (fun h => by cases h) (by simp) (by simp) age
  have latest : m.latest = loadTimers m.disk := by simp [latest, versions, quiet]
  refine { looked with here := ?_, listed := ?_, deleting := ?_, cleared := ?_ }
  · intro ref found
    obtain rfl := Option.some.inj found
    show (m.files ++ [loadTimers m.disk])[m.files.length]? = some m.latest
    rw [List.getElem?_concat_length, latest]
  · exact fun kept => ⟨⟨_, rfl⟩, (inv.listed kept).2⟩
  · intro mark inside
    rcases List.mem_or_eq_of_mem_set inside with before | is_new
    · exact absurd before (calm mark)
    · cases is_new
  · intro mark done last
    have bound : mark ≤ m.mark := by
      rcases done with inside | inside
      · exact inv.clearedMark inside
      · rcases List.mem_or_eq_of_mem_set inside with before | is_new
        · exact inv.aged before
        · cases is_new
    have later := age.2.2 present
    have call_le := age.1
    have last' : mark = m.creates := last
    omega

theorem cancelAllTimers : m.cancelAllTimers.Keeps := by
  have old_task : ∀ {other : Task}, other ∈ m.tasks ++ [.unlinking m.creates] →
      other ∈ m.tasks ∨ other = .unlinking m.creates := fun inside =>
    (List.mem_append.mp inside).imp_right List.mem_singleton.mp
  refine { here := ?_, listed := ?_, made := ?_, fresh := ?_, distinct := ?_, owner := ?_,
           pending := ?_, lasting := ?_, written := ?_, deleting := ?_, cleared := ?_, aged := ?_,
           resolvedMade := ?_, clearedMark := ?_, markLe := le_rfl }
  · exact fun h => by cases h
  · exact fun h => by cases h
  · exact fun _ h => by cases h
  · exact fun h => by cases h
  · exact List.nodup_nil
  · intro w inside
    obtain ⟨other, found, stored⟩ := inv.owner inside
    exact ⟨other, (inv.owner_append inside _).trans found, stored⟩
  · exact fun _ h => by cases h
  · exact inv.lasting.imp fun _ _ h => by cases h
  · exact fun h => by cases h
  · exact fun _ => ⟨rfl, rfl⟩
  · intro mark done last
    refine ⟨rfl, (inv.cleared (done.imp_right fun inside => ?_) last).2⟩
    exact (old_task inside).resolve_right fun eq => by cases eq
  · intro other inside
    rcases old_task inside with before | rfl
    · have was := inv.aged before
      cases other with
      | loading call epoch | loaded call epoch | looked call epoch =>
        refine ⟨was.1, was.2.1.trans (Nat.le_succ _), fun eq => ?_⟩
        exact absurd (eq ▸ was.2.1) (Nat.not_succ_le_self _)
      | creating epoch id =>
        refine ⟨was.1.trans (Nat.le_succ _), fun eq => ?_⟩
        exact absurd (eq ▸ was.1) (Nat.not_succ_le_self _)
      | unlinking mark | unlinked mark => exact Nat.le_trans was inv.markLe
      | evicting | ended => trivial
    · exact le_rfl
  · exact fun _ h => by cases h
  · exact fun inside => (inv.clearedMark inside).trans inv.markLe

theorem evictIfEmpty : m.evictIfEmpty.Keeps := by
  unfold TimerManager.evictIfEmpty
  split
  case isFalse => exact inv
  rename_i empty
  obtain ⟨file, here, none_left⟩ := (Option.any_eq_true _ _).mp empty
  obtain ⟨ref, session, found⟩ := Option.bind_eq_some_iff.mp here
  have is_latest := inv.here session
  rw [found] at is_latest
  have empty_latest : m.latest.ids = [] := by
    rw [← Option.some.inj is_latest]
    simpa [SessionTimerFile.ids] using none_left
  have nothing : ∀ {id}, id ∉ m.kept := by
    intro id kept
    have listed := (inv.listed kept).2
    rw [empty_latest] at listed
    cases listed
  refine { inv with here := ?_, listed := ?_, deleting := ?_, cleared := ?_ }
  · exact fun h => by cases h
  · exact fun kept => absurd kept nothing
  · exact fun inside => ⟨rfl, (inv.deleting inside).2⟩
  · exact fun done last => ⟨rfl, (inv.cleared done last).2⟩

theorem unlink {mark : Nat} (was : m.tasks[i]? = some (.unlinking mark)) (quiet : m.writes = []) :
    Keeps { m with disk := none, tasks := m.tasks.set i (.unlinked mark) } := by
  obtain ⟨dropped, empty⟩ := inv.deleting (List.mem_of_getElem? was)
  have nothing : ∀ {id}, id ∉ m.kept := by
    intro id kept
    have made := inv.made kept
    rw [empty] at made
    cases made
  have old_task : ∀ {task : Task}, task ∈ m.tasks.set i (.unlinked mark) →
      task ∈ m.tasks ∨ task = .unlinked mark := List.mem_or_eq_of_mem_set
  refine { inv with
    here := ?_, listed := ?_, fresh := ?_, owner := ?_, pending := ?_, lasting := ?_,
    written := ?_, deleting := ?_, cleared := ?_, aged := ?_ }
  · intro ref session
    have session' : m.session = some ref := session
    rw [dropped] at session'
    cases session'
  · exact fun kept => absurd kept nothing
  · intro id made
    have made' : id ∈ m.created := made
    rw [empty] at made'
    cases made'
  · intro w inside
    have inside' : w ∈ m.writes := inside
    rw [quiet] at inside'
    cases inside'
  · exact fun _ kept => absurd kept nothing
  · exact inv.lasting.imp fun {_ _} _ id kept => absurd kept nothing
  · exact fun kept => absurd kept nothing
  · exact fun _ => ⟨dropped, empty⟩
  · exact fun _ _ => ⟨dropped, quiet, rfl⟩
  · intro task inside
    rcases old_task inside with before | rfl
    · exact inv.aged before
    · exact inv.aged (List.mem_of_getElem? was)

/-- The file in memory is changed and a write of it is chained, for the task `i`: it lists the ids
that are kept, and the next id is above all that were created. -/
theorem persist {ref : Nat} {file : SessionTimerFile} (task : Task) {tasks : List Task}
    {created kept : List Nat} (session : m.session = some ref)
    (placed : tasks[i]? = some task) (others : ∀ j ≠ i, tasks[j]? = m.tasks[j]?)
    (idle : ∀ w ∈ m.writes, w.task ≠ i) (stored : task.stored = true)
    (kind : ∀ epoch id, task ≠ .creating epoch id true)
    (kind' : ∀ mark, task ≠ .unlinking mark ∧ task ≠ .unlinked mark)
    (aged : Aged { m with created := created } task)
    (ids : ∀ id ∈ kept, id ∈ file.ids) (old : ∀ id ∈ kept, id ∈ m.created → id ∈ m.kept)
    (made : kept ⊆ created) (grown : m.created ⊆ created) (distinct : created.Nodup)
    (fresh : ∀ id ∈ created, id < file.nextId) :
    Keeps { m with
      files := m.files.set ref file, writes := m.writes ++ [⟨file, i⟩], tasks := tasks,
      created := created, kept := kept } := by
  have held := inv.here session
  have bound : ref < m.files.length := (List.getElem?_eq_some_iff.mp held).1
  have old_task : ∀ {other : Task}, other ∈ tasks → other ∈ m.tasks ∨ other = task := by
    intro other inside
    obtain ⟨j, found⟩ := List.mem_iff_getElem?.mp inside
    by_cases same : j = i
    · subst same
      rw [placed] at found
      exact .inr (Option.some.inj found).symm
    · rw [others j same] at found
      exact .inl (List.mem_of_getElem? found)
  have age : ∀ {other : Task}, m.Aged other → Aged { m with
      files := m.files.set ref file, writes := m.writes ++ [⟨file, i⟩], tasks := tasks,
      created := created, kept := kept } other := by
    intro other was
    cases other with
    | creating epoch id => exact ⟨was.1, fun eq => grown (was.2 eq)⟩
    | loading | loaded | looked | evicting | unlinking | unlinked | ended => exact was
  have kept_before : ∀ {w id}, w ∈ m.writes → id ∈ kept →
      tasks[w.task]? = some (.creating m.cancels id false) →
      id ∈ m.kept ∧ m.tasks[w.task]? = some (.creating m.cancels id false) := by
    intro w id inside listed found
    rw [others _ (idle w inside)] at found
    have was := (inv.aged (List.mem_of_getElem? found)).2 rfl
    exact ⟨old id listed was, found⟩
  refine { here := ?_, listed := ?_, made := made, fresh := ?_, distinct := distinct, owner := ?_,
           pending := ?_, lasting := ?_, written := ?_, deleting := ?_, cleared := ?_, aged := ?_,
           resolvedMade := fun _ inside => grown (inv.resolvedMade inside),
           clearedMark := inv.clearedMark, markLe := inv.markLe }
  · intro ref' session'
    have same : m.session = some ref' := session'
    rw [session] at same
    obtain rfl := Option.some.inj same
    rw [latest_append]
    show (m.files.set ref file)[ref]? = some file
    simp [bound]
  · intro id listed
    rw [latest_append]
    exact ⟨⟨ref, session⟩, ids id listed⟩
  · intro id inside
    rw [latest_append]
    exact fresh id inside
  · intro w inside
    rcases List.mem_append.mp inside with before | is_new
    · obtain ⟨other, found, holds⟩ := inv.owner before
      exact ⟨other, (others _ (idle w before)).trans found, holds⟩
    · obtain rfl := List.mem_singleton.mp is_new
      exact ⟨task, placed, stored⟩
  · intro w id inside listed found
    rcases List.mem_append.mp inside with before | is_new
    · obtain ⟨listed', found'⟩ := kept_before before listed found
      exact inv.pending before listed' found'
    · obtain rfl := List.mem_singleton.mp is_new
      exact ids id listed
  · refine List.pairwise_append.mpr ⟨?_, List.pairwise_singleton _ _, ?_⟩
    · refine inv.lasting.imp_of_mem fun {w v} inside _ before id listed found => ?_
      obtain ⟨listed', found'⟩ := kept_before inside listed found
      exact before id listed' found'
    · intro w _ v is_new id listed _
      obtain rfl := List.mem_singleton.mp is_new
      exact ids id listed
  · intro id listed done version inside
    have was : id ∈ m.created ∧ (id ∈ m.resolved ∨ .creating m.cancels id true ∈ m.tasks) := by
      rcases done with resolved | creating
      · exact ⟨inv.resolvedMade resolved, .inl resolved⟩
      · have before := (old_task creating).resolve_right fun eq => kind _ _ eq.symm
        exact ⟨(inv.aged before).2 rfl, .inr before⟩
    have all := inv.written (old id listed was.1) was.2
    have versions : version ∈ m.versions ∨ version = file := by
      have inside' : version ∈ loadTimers m.disk ::
          (m.writes ++ [PendingWrite.mk file i]).map (·.snapshot) := inside
      simpa [TimerManager.versions, or_assoc] using inside'
    rcases versions with before | rfl
    · exact all version before
    · exact ids id listed
  · intro mark inside
    have before := (old_task inside).resolve_right fun eq => (kind' mark).1 eq.symm
    have dropped := (inv.deleting before).1
    rw [session] at dropped
    cases dropped
  · intro mark done last
    have before := done.imp_right fun inside =>
      (old_task inside).resolve_right fun eq => (kind' mark).2 eq.symm
    have dropped := (inv.cleared before last).1
    rw [session] at dropped
    cases dropped
  · intro other inside
    rcases old_task inside with before | rfl
    · exact age (inv.aged before)
    · cases other with
      | loading | loaded | looked => cases stored
      | creating | evicting | unlinking | unlinked | ended => exact aged

theorem write (taken : m.write = some m') : m'.Keeps := by
  unfold TimerManager.write at taken
  cases chain : m.writes with
  | nil =>
    rw [chain] at taken
    cases taken
  | cons first rest =>
    rw [chain] at taken
    obtain rfl := Option.some.inj taken
    have is_first : first ∈ m.writes := chain ▸ List.mem_cons_self
    obtain ⟨owner, owned, stored⟩ := inv.owner is_first
    have lasting := inv.lasting
    rw [chain, List.pairwise_cons] at lasting
    have versions : versions { m with
        disk := some first.snapshot, writes := rest,
        tasks := m.tasks.modify first.task Task.written } = m.writes.map (·.snapshot) := by
      rw [chain]
      rfl
    have latest : latest { m with
        disk := some first.snapshot, writes := rest,
        tasks := m.tasks.modify first.task Task.written } = m.latest := by
      unfold TimerManager.latest
      simp only [versions]
      simp only [TimerManager.versions]
      rw [List.getLast_cons]
    -- A task is as before, or it is the one whose write is done.
    have tasks : ∀ {j : Nat}, (m.tasks.modify first.task Task.written)[j]? =
        if first.task = j then (m.tasks[j]?).map Task.written else m.tasks[j]? := by
      intro j
      rw [List.getElem?_modify]
      split <;> cases m.tasks[j]? <;> rfl
    have old_task : ∀ {task : Task}, task ∈ m.tasks.modify first.task Task.written →
        task ∈ m.tasks ∨ task = owner.written := by
      intro task inside
      obtain ⟨j, found⟩ := List.mem_iff_getElem?.mp inside
      rw [tasks] at found
      split at found
      · rename_i same
        subst same
        rw [owned] at found
        exact .inr (Option.some.inj found).symm
      · exact .inl (List.mem_of_getElem? found)
    have not_written : ∀ {w : PendingWrite} {id : Nat},
        (m.tasks.modify first.task Task.written)[w.task]? = some (.creating m.cancels id false) →
          m.tasks[w.task]? = some (.creating m.cancels id false) := by
      intro w id found
      rw [tasks] at found
      split at found
      · obtain ⟨task, _, changed⟩ := Option.map_eq_some_iff.mp found
        cases task <;> cases changed
      · exact found
    refine { here := ?_, listed := ?_, made := inv.made, fresh := ?_, distinct := inv.distinct,
             owner := ?_, pending := ?_, lasting := ?_, written := ?_, deleting := ?_,
             cleared := ?_, aged := ?_, resolvedMade := inv.resolvedMade,
             clearedMark := inv.clearedMark, markLe := inv.markLe }
    · intro ref session
      rw [latest]
      exact inv.here session
    · intro id kept
      rw [latest]
      exact inv.listed kept
    · intro id made
      rw [latest]
      exact inv.fresh made
    · intro w inside
      have inside' : w ∈ m.writes := chain ▸ List.mem_cons_of_mem _ inside
      obtain ⟨task, found, holds⟩ := inv.owner inside'
      show ∃ task, (m.tasks.modify first.task Task.written)[w.task]? = some task ∧ _
      rw [tasks, found]
      split
      · exact ⟨_, rfl, task.stored_written.trans holds⟩
      · exact ⟨task, rfl, holds⟩
    · intro w id inside kept found
      exact inv.pending (chain ▸ List.mem_cons_of_mem _ inside) kept (not_written found)
    · exact lasting.2.imp fun {w v} before id kept found => before id kept (not_written found)
    · intro id kept done version inside
      rw [versions] at inside
      have in_versions : version ∈ m.versions := List.mem_cons_of_mem _ inside
      rcases done with resolved | creating
      · exact inv.written kept (.inl resolved) version in_versions
      · rcases old_task creating with before | changed
        · exact inv.written kept (.inr before) version in_versions
        · cases owner with
          | creating epoch id' was_written =>
            obtain ⟨rfl, rfl, -⟩ := Task.creating.inj changed
            cases was_written with
            | true => exact inv.written kept (.inr (List.mem_of_getElem? owned)) version in_versions
            | false =>
              -- It was waiting for this write: the write lists it, and so do the later ones.
              obtain ⟨w, listed, rfl⟩ := List.mem_map.mp inside
              rw [chain] at listed
              rcases List.mem_cons.mp listed with rfl | later
              · exact inv.pending (chain ▸ List.mem_cons_self) kept owned
              · exact lasting.1 w later id kept owned
          | loading | loaded | looked | evicting | unlinking | unlinked | ended => cases changed
    · intro mark inside
      refine inv.deleting ((old_task inside).resolve_right fun changed => ?_)
      cases owner <;> first | (cases stored; done) | cases changed
    · intro mark done last
      have before : mark ∈ m.cleared ∨ .unlinked mark ∈ m.tasks := by
        refine done.imp_right fun inside => (old_task inside).resolve_right fun changed => ?_
        cases owner <;> first | (cases stored; done) | cases changed
      have none_left := (inv.cleared before last).2.1
      rw [chain] at none_left
      cases none_left
    · intro task inside
      rcases old_task inside with before | rfl
      · exact inv.aged before
      · have was := inv.aged (List.mem_of_getElem? owned)
        cases owner <;> exact was

/-- `cancelTimer` and a sweep: what they drop from the file is no longer kept. -/
theorem drop {ref : Nat} {file : SessionTimerFile} {kept : List Nat}
    (session : m.session = some ref) (nextId : file.nextId = m.latest.nextId)
    (ids : ∀ id ∈ kept, id ∈ m.kept ∧ id ∈ file.ids) :
    Keeps (persistSessionNow { m.addTask .ended with
      files := m.files.set ref file, kept := kept } ((m.addTask .ended).tasks.length - 1)
        .evicting) := by
  have bound : ref < m.files.length := (List.getElem?_eq_some_iff.mp (inv.here session)).1
  have here : current { m.addTask .ended with files := m.files.set ref file, kept := kept } =
      some file := by
    simp [current, addTask, session, bound]
  have last : (m.addTask .ended).tasks.length - 1 = m.tasks.length := by simp [addTask]
  rw [last, persistSessionNow, here]
  refine inv.persist (.evicting false) session ?_ ?_ ?_ rfl ?_ ?_ trivial (fun id inside => (ids id inside).2)
    (fun id inside _ => (ids id inside).1) (fun id inside => inv.made (ids id inside).1)
    (fun _ made => made) inv.distinct ?_
  · simp [addTask]
  · intro j other
    show ((m.tasks ++ [Task.ended]).set m.tasks.length (.evicting false))[j]? = _
    rw [List.getElem?_set_ne (Ne.symm other)]
    rcases Nat.lt_or_gt_of_ne other with before | after
    · exact List.getElem?_append_left before
    · rw [List.getElem?_eq_none (by simp; omega), List.getElem?_eq_none (by omega)]
  · intro w inside same
    obtain ⟨task, found, _⟩ := inv.owner inside
    have := (List.getElem?_eq_some_iff.mp found).1
    omega
  · simp
  · simp
  · intro id made
    rw [nextId]
    exact inv.fresh made

theorem cancelTimer (timerId : Nat) : (m.cancelTimer timerId).Keeps := by
  unfold TimerManager.cancelTimer
  split
  · rename_i ref file session here
    obtain rfl : file = m.latest := by
      have found := inv.here session
      simp only [current, session, Option.bind_some] at here
      rw [here] at found
      exact Option.some.inj found
    split
    · refine inv.drop session rfl fun id inside => ?_
      obtain ⟨kept, other⟩ := List.mem_filter.mp inside
      refine ⟨kept, ?_⟩
      obtain ⟨timer, listed, rfl⟩ := List.mem_map.mp (inv.listed kept).2
      refine List.mem_map_of_mem ((List.mem_eraseP_of_neg ?_).mpr listed)
      simpa using other
    · exact inv
  · exact inv

theorem sweep (now : Nat) (paused : List Nat) : (m.sweep now paused).Keeps := by
  unfold TimerManager.sweep
  split
  · rename_i ref file session here
    obtain rfl : file = m.latest := by
      have found := inv.here session
      simp only [current, session, Option.bind_some] at here
      rw [here] at found
      exact Option.some.inj found
    split
    · refine inv.drop session rfl fun id inside => ?_
      obtain ⟨kept, other⟩ := List.mem_filter.mp inside
      refine ⟨kept, ?_⟩
      obtain ⟨timer, listed, rfl⟩ := List.mem_map.mp (inv.listed kept).2
      have fired : ∀ timer : SessionTimer, (if timer.fires now paused && timer.repeats then
          timer.fired now else timer).id = timer.id := by
        intro timer
        split <;> rfl
      refine List.mem_map.mpr ⟨_, List.mem_filter.mpr ⟨List.mem_map_of_mem listed, ?_⟩, fired _⟩
      rw [fired]
      exact other
    · exact inv
  · exact inv

theorem pushTimer {call epoch : Nat} {schedule : TimerSchedule} {ref : Nat}
    (was : m.tasks[i]? = some (.looked call epoch schedule ref))
    (session : m.session = some ref) (taken : m.pushTimer i schedule ref = some m') :
    m'.Keeps := by
  unfold TimerManager.pushTimer at taken
  rw [inv.here session, Option.map_some] at taken
  obtain rfl := Option.some.inj taken
  have bound : i < m.tasks.length := (List.getElem?_eq_some_iff.mp was).1
  have bound' : ref < m.files.length := (List.getElem?_eq_some_iff.mp (inv.here session)).1
  split
  · exact inv.retask .ended was (fun _ => rfl) (by simp) (by simp) trivial
  · have here : current { m with
        files := m.files.set ref (m.latest.push schedule)
        created := m.created ++ [m.latest.nextId]
        kept := m.kept ++ [m.latest.nextId] } = some (m.latest.push schedule) := by
      simp [current, session, bound']
    have unmade : m.latest.nextId ∉ m.created := fun made => lt_irrefl _ (inv.fresh made)
    have pushed : (m.latest.push schedule).ids = m.latest.ids ++ [m.latest.nextId] := by
      simp [SessionTimerFile.ids, SessionTimerFile.push]
    rw [persistSessionNow, here]
    refine inv.persist (.creating m.cancels m.latest.nextId false) session (by simp [bound]) ?_ ?_
      rfl (by simp) (by simp) ?_ ?_ ?_ ?_ ?_ ?_ ?_
    · intro j other
      exact List.getElem?_set_ne (Ne.symm other)
    · rintro w inside rfl
      obtain ⟨task, found, stored⟩ := inv.owner inside
      rw [was] at found
      obtain rfl := Option.some.inj found
      cases stored
    · exact ⟨le_rfl, fun _ => List.mem_append_right _ (List.mem_singleton_self _)⟩
    · intro id inside
      rw [pushed]
      exact (List.mem_append.mp inside).elim
        (fun kept => List.mem_append_left _ (inv.listed kept).2)
        (fun is_new => List.mem_append_right _ is_new)
    · intro id inside made
      refine (List.mem_append.mp inside).resolve_right fun is_new => ?_
      obtain rfl := List.mem_singleton.mp is_new
      exact unmade made
    · intro id inside
      exact (List.mem_append.mp inside).elim
        (fun kept => List.mem_append_left _ (inv.made kept))
        (fun is_new => List.mem_append_right _ is_new)
    · exact List.subset_append_left _ _
    · exact List.nodup_append'.mpr ⟨inv.distinct, List.nodup_singleton _, by simpa using unmade⟩
    · intro id inside
      show id < m.latest.nextId + 1
      rcases List.mem_append.mp inside with made | is_new
      · exact Nat.lt_succ_of_lt (inv.fresh made)
      · rw [List.mem_singleton.mp is_new]
        exact Nat.lt_succ_self _

theorem step {event : Event} (admitted : m.admits event = true)
    (taken : m.step event = some m') : m'.Keeps := by
  cases event with
  | createTimer schedule =>
    cases taken
    exact inv.createTimer schedule
  | cancelTimer timerId =>
    cases taken
    exact inv.cancelTimer timerId
  | cancelAllTimers =>
    cases taken
    exact inv.cancelAllTimers
  | sweep now paused =>
    cases taken
    exact inv.sweep now paused
  | resumes i =>
    simp only [TimerManager.step, resume] at taken
    cases was : m.tasks[i]? with
    | none =>
      rw [was] at taken
      cases taken
    | some task =>
      rw [was] at taken
      simp only [admits, was] at admitted
      cases task with
      | loading | unlinking | ended => cases taken
      | loaded call epoch schedule content =>
        cases taken
        simp only [decide_eq_true_eq, List.all_eq_true, Bool.not_eq_true'] at admitted
        obtain ⟨_, quiet, rfl, present, calm⟩ := admitted
        exact inv.place was quiet present fun mark inside => by cases calm _ inside
      | looked call epoch schedule ref => exact inv.pushTimer was (by simpa using admitted) taken
      | creating epoch id written =>
        cases written with
        | false => cases taken
        | true =>
          cases taken
          exact inv.resolve was
      | evicting written =>
        cases written with
        | false => cases taken
        | true =>
          cases taken
          exact (inv.retask .ended was (fun _ => rfl) (by simp) (by simp) trivial).evictIfEmpty
      | unlinked mark =>
        cases taken
        exact inv.clear was
  | reads i =>
    simp only [TimerManager.step, read] at taken
    split at taken
    · rename_i call epoch schedule was
      cases taken
      have age := inv.aged (List.mem_of_getElem? was)
      exact inv.retask _ was (fun h => by cases h) (by simp) (by simp) age
    · cases taken
  | unlinks i =>
    simp only [TimerManager.step, TimerManager.unlink] at taken
    split at taken
    · rename_i mark was
      cases taken
      exact inv.unlink was (by simpa [admits] using admitted)
    · cases taken
  | writes => exact inv.write taken

end Keeps

/-- Every timer whose `createTimer` has resolved and that is still kept is listed in memory and on
disk; no two of the ids created since the last `cancelAllTimers` are equal; and where one has
resolved, `createTimer` was not called after it and no write is pending, no timer is left. -/
structure Sound (m : TimerManager) : Prop where
  listed : ∀ id ∈ m.resolved, id ∈ m.kept →
    (∃ file, m.current = some file ∧ id ∈ file.ids) ∧ ∃ file, m.disk = some file ∧ id ∈ file.ids
  distinct : m.created.Nodup
  cleared : ∀ mark ∈ m.cleared, mark = m.creates → m.writes = [] →
    (∀ file, m.current = some file → file.timers = []) ∧
      ∀ file, m.disk = some file → file.timers = []

theorem Keeps.sound (inv : m.Keeps) : m.Sound where
  listed := by
    intro id resolved kept
    obtain ⟨⟨ref, session⟩, inside⟩ := inv.listed kept
    refine ⟨⟨m.latest, by simp [current, session, inv.here session], inside⟩, ?_⟩
    have on_disk := inv.written kept (.inl resolved) (loadTimers m.disk) List.mem_cons_self
    cases disk : m.disk with
    | none =>
      rw [disk] at on_disk
      cases on_disk
    | some file =>
      rw [disk] at on_disk
      exact ⟨file, rfl, on_disk⟩
  distinct := inv.distinct
  cleared := by
    intro mark done last _
    obtain ⟨dropped, _, deleted⟩ := inv.cleared (.inl done) last
    refine ⟨fun file here => ?_, fun file there => ?_⟩
    · simp [current, dropped] at here
    · rw [deleted] at there
      cases there

end TimerManager

/-- In every run, from any file on disk, whose steps meet the condition. -/
theorem timers_kept (disk : Option SessionTimerFile) (m : TimerManager)
    (reached : (timerManager disk).Reaches (fun m event => m.admits event = true) m) :
    m.Sound := by
  suffices m.Keeps from this.sound
  induction reached with
  | start => exact TimerManager.here_start disk
  | step _ admitted taken inv => exact inv.step admitted taken

section Runs

private def once (nextFireAt : Nat) : TimerSchedule := ⟨.delay, nextFireAt, none⟩

/-- Two timers are created one after the other, one is cancelled and the other fires. -/
def plainRun : List Event :=
  [.createTimer (once 10), .reads 0, .resumes 0, .resumes 0, .createTimer (once 20), .resumes 1,
    .writes, .resumes 0, .writes, .resumes 1, .cancelTimer 1, .writes, .resumes 2]

theorem plain_timers_kept : ∃ m,
    (timerManager none).Reaches (fun m event => m.admits event = true) m ∧ m.Sound ∧
      m.resolved = [1, 2] ∧ m.kept = [2] := by
  obtain ⟨m, reached, resolved, kept⟩ := (timerManager none).exists_reaches_of_run
    TimerManager.admits (fun m => m.resolved = [1, 2] ∧ m.kept = [2]) plainRun (by decide +kernel)
  exact ⟨m, reached, timers_kept none m reached, resolved, kept⟩

/-- Both creations read the file before either puts it in memory. -/
def sharedIdRun : List Event :=
  [.createTimer (once 10), .createTimer (once 20), .reads 0, .reads 1, .resumes 0, .resumes 0,
    .writes, .resumes 0, .resumes 1, .resumes 1, .writes, .resumes 1]

/-- The file is evicted while a creation goes on with it. -/
def evictedRun : List Event :=
  [.createTimer (once 10), .reads 0, .resumes 0, .resumes 0, .writes, .resumes 0, .cancelTimer 1,
    .writes, .createTimer (once 20), .resumes 1, .resumes 2, .resumes 2]

/-- The file is deleted before the write of a creation. -/
def resurrectedRun : List Event :=
  [.createTimer (once 10), .reads 0, .resumes 0, .resumes 0, .cancelAllTimers, .unlinks 1, .resumes 1,
    .writes, .resumes 0]

theorem timers_lost :
    (∃ m, (timerManager none).Reachable m ∧ ¬m.created.Nodup) ∧
    (∃ m, (timerManager none).Reachable m ∧ 2 ∈ m.resolved ∧ 2 ∈ m.kept ∧ m.current = none ∧
      ∀ file, m.disk = some file → 2 ∉ file.ids) ∧
    ∃ m, (timerManager none).Reachable m ∧ m.creates ∈ m.cleared ∧ m.writes = [] ∧
      ∃ file, m.disk = some file ∧ file.timers ≠ [] := by
  refine ⟨?_, ?_, ?_⟩
  · obtain ⟨m, reached, shared⟩ := (timerManager none).exists_reaches_of_run (fun _ _ => true)
      (fun m => ¬m.created.Nodup) sharedIdRun (by decide +kernel)
    exact ⟨m, reached.reachable, shared⟩
  · obtain ⟨m, reached, resolved, kept, gone, disk⟩ :=
      (timerManager none).exists_reaches_of_run (fun _ _ => true)
        (fun m => 2 ∈ m.resolved ∧ 2 ∈ m.kept ∧ m.current = none ∧ m.disk = some ⟨2, []⟩) evictedRun
        (by decide +kernel)
    refine ⟨m, reached.reachable, resolved, kept, gone, fun file found => ?_⟩
    rw [disk] at found
    obtain rfl := Option.some.inj found
    simp [SessionTimerFile.ids]
  · obtain ⟨m, reached, cleared, quiet, back⟩ :=
      (timerManager none).exists_reaches_of_run (fun _ _ => true)
        (fun m => m.creates ∈ m.cleared ∧ m.writes = [] ∧
          (m.disk.any fun file => !file.timers.isEmpty) = true) resurrectedRun (by decide +kernel)
    obtain ⟨file, found, left⟩ := (Option.any_eq_true _ _).mp back
    exact ⟨m, reached.reachable, cleared, quiet, file, found, by simpa using left⟩

end Runs

end Takode.Timers
