import Takode.LandingQueue.Changes
import Mathlib.Data.List.Nodup
import Mathlib.Data.List.Perm.Basic

/-!
# The tables stay consistent

Entries, runs and launches refer to each other by ids. What they keep, change by
change.
-/

namespace Takode.LandingQueue

theorem eq_of_mem_of_id {α : Type} {f : α → JsString} {list : List α}
    (distinct : (list.map f).Nodup) {a b : α} (left : a ∈ list) (right : b ∈ list)
    (same : f a = f b) : a = b :=
  List.inj_on_of_nodup_map distinct left right same

theorem takeLast_sublist {α : Type} (n : Nat) (list : List α) : (takeLast n list).Sublist list :=
  List.drop_sublist _ _

section Kept

variable {α : Type} {list : List α} {keep done : α → Bool} {n : Nat} {r : α → α → Prop}
  [DecidableRel r]

theorem mem_of_mem_kept {a : α}
    (kept : a ∈ (takeLast n (list.filter done) ++ list.filter keep).insertionSort r) :
    a ∈ list := by
  rcases List.mem_append.mp ((List.perm_insertionSort r _).mem_iff.mp kept) with old | always
  · exact (List.mem_filter.mp ((takeLast_sublist n _).subset old)).1
  · exact (List.mem_filter.mp always).1

theorem mem_kept {a : α} (inside : a ∈ list) (keeps : keep a = true) :
    a ∈ (takeLast n (list.filter done) ++ list.filter keep).insertionSort r :=
  (List.perm_insertionSort r _).mem_iff.mpr
    (List.mem_append_right _ (List.mem_filter.mpr ⟨inside, keeps⟩))

theorem kept_nodup {f : α → JsString} (apart : ∀ a, done a = true → keep a = false)
    (distinct : (list.map f).Nodup) :
    (((takeLast n (list.filter done) ++ list.filter keep).insertionSort r).map f).Nodup := by
  apply ((List.perm_insertionSort r _).map f).nodup_iff.mpr
  rw [List.map_append]
  refine List.Nodup.append ?_ ?_ ?_
  · exact distinct.sublist (((takeLast_sublist n _).trans List.filter_sublist).map f)
  · exact distinct.sublist (List.filter_sublist.map f)
  · intro id left right
    obtain ⟨a, old, rfl⟩ := List.mem_map.mp left
    obtain ⟨b, always, same⟩ := List.mem_map.mp right
    obtain ⟨present, isDone⟩ := List.mem_filter.mp ((takeLast_sublist n _).subset old)
    obtain ⟨present', keeps⟩ := List.mem_filter.mp always
    have : b = a := eq_of_mem_of_id distinct present' present same
    subst this
    rw [apart b isDone] at keeps
    cases keeps

end Kept

namespace LandingQueueManager

variable {m m' : LandingQueueManager}

/-- What the tables keep. -/
structure Consistent (m : LandingQueueManager) : Prop where
  entryIds : (m.entries.map LandingEntry.id).Nodup
  runIds : (m.runs.map LandingRun.id).Nodup
  launchIds : (m.launches.map LandingRunnerLaunch.id).Nodup
  drawnEntries : ∀ entry ∈ m.entries, entry.id ∈ m.drawn
  drawnRuns : ∀ run ∈ m.runs, run.id ∈ m.drawn
  drawnLaunches : ∀ launch ∈ m.launches, launch.id ∈ m.drawn
  drawnOwners : ∀ run ∈ m.runs, ∀ id, run.launchId = some id → id ∈ m.drawn
  distinct : ∀ run ∈ m.runs, run.entryIds.Nodup
  listed : ∀ run ∈ m.runs, run.isLive = true → ∀ id ∈ run.entryIds,
    ∃ entry ∈ m.entries, entry.id = id ∧ entry.state = .running ∧ entry.runId = some run.id
  running : ∀ entry ∈ m.entries, entry.state = .running →
    ∃ run ∈ m.runs, run.isLive = true ∧ entry.runId = some run.id ∧ entry.id ∈ run.entryIds
  oneRun : ∀ run ∈ m.runs, ∀ run' ∈ m.runs, run.state = .running → run'.state = .running →
    run.key = run'.key → run.id = run'.id
  oneActive : ∀ entry ∈ m.entries, ∀ entry' ∈ m.entries, entry.isActive = true →
    entry'.isActive = true → entry.sessionId = entry'.sessionId → entry = entry'
  plans : ∀ run ∈ m.runs, run.state = .running → ∀ plan ∈ run.plan, plan.reconciled = false
  /-- A launch whose run is running knows it. -/
  tied : ∀ run ∈ m.runs, run.state = .running → ∀ launch ∈ m.launches,
    run.launchId = some launch.id → launch.runId = some run.id

theorem consistent_start : ({} : LandingQueueManager).Consistent := by
  constructor <;> simp

/-- The tables after one run has changed, with its entries and with what launches say of their
ends. -/
structure Retired (m m' : LandingQueueManager) (run : LandingRun) (f : LandingRun → LandingRun)
    (g : LandingEntry → LandingEntry) (h : LandingRunnerLaunch → LandingRunnerLaunch) : Prop where
  runs : m'.runs = m.runs.map fun other => if other.id = run.id then f other else other
  entries : m'.entries = m.entries.map g
  launches : m'.launches = m.launches.map h
  drawn : m'.drawn = m.drawn
  runId : (f run).id = run.id
  owner : (f run).launchId = run.launchId
  entryIds : (f run).entryIds = run.entryIds
  entryId : ∀ entry, (g entry).id = entry.id
  sessionId : ∀ entry, (g entry).sessionId = entry.sessionId
  launchId : ∀ launch, (h launch).id = launch.id
  launchRun : ∀ launch, (h launch).runId = launch.runId
  others : ∀ entry ∈ m.entries, entry.id ∉ run.entryIds → g entry = entry
  stays : (f run).isLive = true → ∀ entry ∈ m.entries, g entry = entry
  leaves : (f run).isLive = false → ∀ entry ∈ m.entries, entry.id ∈ run.entryIds →
    (g entry).state ≠ .running
  active : ∀ entry ∈ m.entries, (g entry).isActive = true → entry.isActive = true
  past : (f run).state ≠ .running

theorem map_nodup_of_eq {α : Type} {list : List α} {f : α → JsString} {g : α → α}
    (same : ∀ a ∈ list, f (g a) = f a) (distinct : (list.map f).Nodup) :
    ((list.map g).map f).Nodup := by
  rw [List.map_map]
  have : list.map (f ∘ g) = list.map f := List.map_congr_left same
  rwa [this]

namespace Consistent

theorem run_eq (consistent : m.Consistent) {run run' : LandingRun} (left : run ∈ m.runs)
    (right : run' ∈ m.runs) (same : run.id = run'.id) : run = run' :=
  eq_of_mem_of_id consistent.runIds left right same

theorem entry_eq (consistent : m.Consistent) {entry entry' : LandingEntry}
    (left : entry ∈ m.entries) (right : entry' ∈ m.entries) (same : entry.id = entry'.id) :
    entry = entry' :=
  eq_of_mem_of_id consistent.entryIds left right same

theorem launch_eq (consistent : m.Consistent) {launch launch' : LandingRunnerLaunch}
    (left : launch ∈ m.launches) (right : launch' ∈ m.launches) (same : launch.id = launch'.id) :
    launch = launch' :=
  eq_of_mem_of_id consistent.launchIds left right same

theorem in_run (consistent : m.Consistent) {run : LandingRun} (inside : run ∈ m.runs)
    (live : run.isLive = true) {entry : LandingEntry} (present : entry ∈ m.entries)
    (listed : entry.id ∈ run.entryIds) : entry.state = .running ∧ entry.runId = some run.id := by
  obtain ⟨entry', present', same, state, runId⟩ := consistent.listed run inside live _ listed
  have : entry' = entry := consistent.entry_eq present' present same
  subst this
  exact ⟨state, runId⟩

theorem run_of_listed (consistent : m.Consistent) {run run' : LandingRun} (inside : run ∈ m.runs)
    (inside' : run' ∈ m.runs) (live : run.isLive = true) (live' : run'.isLive = true)
    {id : JsString} (listed : id ∈ run.entryIds) (listed' : id ∈ run'.entryIds) : run = run' := by
  obtain ⟨entry, present, same, -, runId⟩ := consistent.listed run inside live id listed
  subst same
  obtain ⟨-, runId'⟩ := consistent.in_run inside' live' present listed'
  apply consistent.run_eq inside inside'
  rw [runId] at runId'
  exact Option.some.inj runId'

/-- A run leaves its queue: what happens to its entries happens to nobody else. -/
theorem retire (consistent : m.Consistent) {run : LandingRun} (inside : run ∈ m.runs)
    (live : run.isLive = true) {f : LandingRun → LandingRun} {g : LandingEntry → LandingEntry}
    {h : LandingRunnerLaunch → LandingRunnerLaunch} (retired : Retired m m' run f g h) :
    m'.Consistent := by
  have mem_runs {other : LandingRun} (listed : other ∈ m'.runs) :
      (other ∈ m.runs ∧ other.id ≠ run.id) ∨ other = f run := by
    rw [retired.runs] at listed
    obtain ⟨before, old, rfl⟩ := List.mem_map.mp listed
    by_cases same : before.id = run.id
    · have : before = run := consistent.run_eq old inside same
      subst this
      exact .inr (by simp)
    · exact .inl ⟨by simpa [same] using old, by simp [same]⟩
  have run_mem {other : LandingRun} (old : other ∈ m.runs) (different : other.id ≠ run.id) :
      other ∈ m'.runs := by
    rw [retired.runs]
    exact List.mem_map.mpr ⟨other, old, by simp [different]⟩
  have f_mem : f run ∈ m'.runs := by
    rw [retired.runs]
    exact List.mem_map.mpr ⟨run, inside, by simp⟩
  have mem_entries {entry : LandingEntry} (present : entry ∈ m'.entries) :
      ∃ old ∈ m.entries, entry = g old := by
    rw [retired.entries] at present
    obtain ⟨old, inside, rfl⟩ := List.mem_map.mp present
    exact ⟨old, inside, rfl⟩
  have not_running {other : LandingRun} (listed : other ∈ m'.runs) (runs : other.state = .running) :
      other ∈ m.runs ∧ other.id ≠ run.id :=
    (mem_runs listed).resolve_right fun same => retired.past (same ▸ runs)
  constructor
  · rw [retired.entries]
    exact map_nodup_of_eq (fun entry _ => retired.entryId entry) consistent.entryIds
  · rw [retired.runs]
    refine map_nodup_of_eq (fun other old => ?_) consistent.runIds
    by_cases same : other.id = run.id
    · have : other = run := consistent.run_eq old inside same
      subst this
      simp [retired.runId]
    · simp [same]
  · rw [retired.launches]
    exact map_nodup_of_eq (fun launch _ => retired.launchId launch) consistent.launchIds
  · intro entry present
    obtain ⟨old, before, rfl⟩ := mem_entries present
    rw [retired.entryId, retired.drawn]
    exact consistent.drawnEntries old before
  · intro other listed
    rw [retired.drawn]
    rcases mem_runs listed with ⟨old, -⟩ | rfl
    · exact consistent.drawnRuns other old
    · exact retired.runId ▸ consistent.drawnRuns run inside
  · intro launch listed
    rw [retired.launches] at listed
    obtain ⟨old, before, rfl⟩ := List.mem_map.mp listed
    rw [retired.launchId, retired.drawn]
    exact consistent.drawnLaunches old before
  · intro other listed id own
    rw [retired.drawn]
    rcases mem_runs listed with ⟨old, -⟩ | rfl
    · exact consistent.drawnOwners other old id own
    · exact consistent.drawnOwners run inside id (retired.owner ▸ own)
  · intro other listed
    rcases mem_runs listed with ⟨old, -⟩ | rfl
    · exact consistent.distinct other old
    · exact retired.entryIds ▸ consistent.distinct run inside
  · intro other listed otherLive id named
    rw [retired.entries]
    rcases mem_runs listed with ⟨old, different⟩ | rfl
    · obtain ⟨entry, present, same, state, runId⟩ :=
        consistent.listed other old otherLive id named
      have foreign : entry.id ∉ run.entryIds := fun own =>
        different (congrArg LandingRun.id
          (consistent.run_of_listed old inside otherLive live (same ▸ named) own))
      have unchanged := retired.others entry present foreign
      exact ⟨entry, List.mem_map.mpr ⟨entry, present, unchanged⟩, same, state, runId⟩
    · rw [retired.entryIds] at named
      obtain ⟨entry, present, same, state, runId⟩ := consistent.listed run inside live id named
      have unchanged := retired.stays otherLive entry present
      exact ⟨entry, List.mem_map.mpr ⟨entry, present, unchanged⟩, same, state,
        retired.runId ▸ runId⟩
  · intro entry present state
    obtain ⟨old, before, rfl⟩ := mem_entries present
    by_cases own : old.id ∈ run.entryIds
    · cases still : (f run).isLive with
      | false => exact absurd state (retired.leaves still old before own)
      | true =>
        rw [retired.stays still old before]
        obtain ⟨-, runId⟩ := consistent.in_run inside live before own
        exact ⟨f run, f_mem, still, by rw [retired.runId]; exact runId,
          by rw [retired.entryIds]; exact own⟩
    · rw [retired.others old before own] at state ⊢
      obtain ⟨other, listed, otherLive, runId, named⟩ := consistent.running old before state
      have different : other.id ≠ run.id := fun same =>
        own (consistent.run_eq listed inside same ▸ named)
      exact ⟨other, run_mem listed different, otherLive, runId, named⟩
  · intro left listed right listed' runs runs' key
    exact consistent.oneRun left (not_running listed runs).1 right (not_running listed' runs').1
      runs runs' key
  · intro left present right present' active active' session
    obtain ⟨old, before, rfl⟩ := mem_entries present
    obtain ⟨old', before', rfl⟩ := mem_entries present'
    rw [retired.sessionId, retired.sessionId] at session
    rw [consistent.oneActive old before old' before' (retired.active old before active)
      (retired.active old' before' active') session]
  · intro other listed runs
    exact consistent.plans other (not_running listed runs).1 runs
  · intro other listed runs launch stored own
    rw [retired.launches] at stored
    obtain ⟨old, before, rfl⟩ := List.mem_map.mp stored
    rw [retired.launchId] at own
    rw [retired.launchRun]
    exact consistent.tied other (not_running listed runs).1 runs old before own

theorem relaunch (consistent : m.Consistent) {h : LandingRunnerLaunch → LandingRunnerLaunch}
    (entries : m'.entries = m.entries) (runs : m'.runs = m.runs)
    (launches : m'.launches = m.launches.map h) (drawn : m'.drawn = m.drawn)
    (launchId : ∀ launch, (h launch).id = launch.id)
    (launchRun : ∀ launch, (h launch).runId = launch.runId) : m'.Consistent := by
  constructor
  case launchIds =>
    rw [launches]
    exact map_nodup_of_eq (fun launch _ => launchId launch) consistent.launchIds
  case drawnLaunches =>
    intro launch listed
    rw [launches] at listed
    obtain ⟨old, before, rfl⟩ := List.mem_map.mp listed
    rw [launchId, drawn]
    exact consistent.drawnLaunches old before
  case tied =>
    intro run inside state launch listed own
    rw [runs] at inside
    rw [launches] at listed
    obtain ⟨old, before, rfl⟩ := List.mem_map.mp listed
    rw [launchId] at own
    rw [launchRun]
    exact consistent.tied run inside state old before own
  all_goals first
    | rw [entries, drawn]
    | rw [runs, drawn]
    | rw [entries, runs]
    | rw [runs, entries]
    | rw [entries]
    | rw [runs]
  · exact consistent.entryIds
  · exact consistent.runIds
  · exact consistent.drawnEntries
  · exact consistent.drawnRuns
  · exact consistent.drawnOwners
  · exact consistent.distinct
  · exact consistent.listed
  · exact consistent.running
  · exact consistent.oneRun
  · exact consistent.oneActive
  · exact consistent.plans

theorem quiet (consistent : m.Consistent) (entries : m'.entries = m.entries)
    (runs : m'.runs = m.runs) (launches : m'.launches = m.launches) (drawn : m'.drawn = m.drawn) :
    m'.Consistent :=
  consistent.relaunch (h := id) entries runs (by rw [launches, List.map_id]) drawn (fun _ => rfl)
    fun _ => rfl

theorem entryAdded (consistent : m.Consistent) {entry : LandingEntry} (fresh : entry.id ∉ m.drawn)
    (waits : entry.state = .pending) (alone : ∀ other ∈ m.entries,
      other.sessionId = entry.sessionId → other.isActive = false) :
    (m.addEntry entry).Consistent := by
  have new : ∀ old ∈ m.entries, old.id ≠ entry.id := fun old before same =>
    fresh (same ▸ consistent.drawnEntries old before)
  constructor
  · show ((m.entries ++ [entry]).map LandingEntry.id).Nodup
    rw [List.map_append]
    refine consistent.entryIds.append (by simp) ?_
    simpa using new
  · exact consistent.runIds
  · exact consistent.launchIds
  · intro other listed
    rcases List.mem_append.mp listed with old | added
    · exact List.mem_cons_of_mem _ (consistent.drawnEntries other old)
    · rw [List.mem_singleton.mp added]
      exact List.mem_cons_self
  · exact fun run listed => List.mem_cons_of_mem _ (consistent.drawnRuns run listed)
  · exact fun launch listed => List.mem_cons_of_mem _ (consistent.drawnLaunches launch listed)
  · exact fun run listed id own => List.mem_cons_of_mem _ (consistent.drawnOwners run listed id own)
  · exact consistent.distinct
  · intro run listed live id named
    obtain ⟨old, before, found⟩ := consistent.listed run listed live id named
    exact ⟨old, List.mem_append_left _ before, found⟩
  · intro other listed state
    rcases List.mem_append.mp listed with old | added
    · exact consistent.running other old state
    · rw [List.mem_singleton.mp added, waits] at state
      cases state
  · exact consistent.oneRun
  · intro left listed right listed' active active' session
    rcases List.mem_append.mp listed with old | added
    · rcases List.mem_append.mp listed' with old' | added'
      · exact consistent.oneActive left old right old' active active' session
      · rw [List.mem_singleton.mp added'] at session
        exact absurd active (by simp [alone left old session])
    · rcases List.mem_append.mp listed' with old' | added'
      · rw [List.mem_singleton.mp added] at session
        exact absurd active' (by simp [alone right old' session.symm])
      · rw [List.mem_singleton.mp added, List.mem_singleton.mp added']
  · exact consistent.plans
  · exact consistent.tied

theorem launchAdded (consistent : m.Consistent) {launch : LandingRunnerLaunch}
    (fresh : launch.id ∉ m.drawn) : (m.addLaunch launch).Consistent := by
  have new : ∀ old ∈ m.launches, old.id ≠ launch.id := fun old before same =>
    fresh (same ▸ consistent.drawnLaunches old before)
  constructor
  · exact consistent.entryIds
  · exact consistent.runIds
  · show ((m.launches ++ [launch]).map LandingRunnerLaunch.id).Nodup
    rw [List.map_append]
    refine consistent.launchIds.append (by simp) ?_
    simpa using new
  · exact fun entry listed => List.mem_cons_of_mem _ (consistent.drawnEntries entry listed)
  · exact fun run listed => List.mem_cons_of_mem _ (consistent.drawnRuns run listed)
  · intro other listed
    rcases List.mem_append.mp listed with old | added
    · exact List.mem_cons_of_mem _ (consistent.drawnLaunches other old)
    · rw [List.mem_singleton.mp added]
      exact List.mem_cons_self
  · exact fun run listed id own => List.mem_cons_of_mem _ (consistent.drawnOwners run listed id own)
  · exact consistent.distinct
  · exact consistent.listed
  · exact consistent.running
  · exact consistent.oneRun
  · exact consistent.oneActive
  · exact consistent.plans
  · intro run listed state other stored own
    rcases List.mem_append.mp stored with old | added
    · exact consistent.tied run listed state other old own
    · rw [List.mem_singleton.mp added] at own
      exact absurd (consistent.drawnOwners run listed _ own) fresh

theorem runAdded (consistent : m.Consistent) {run : LandingRun} {launch : LandingRunnerLaunch}
    (fresh : run.id ∉ m.drawn) (starts : run.state = .running) (unplanned : run.plan = none)
    (known : launch ∈ m.launches) (idle : launch.runId = none)
    (own : run.launchId = some launch.id)
    (alone : ∀ other ∈ m.runs, other.key = run.key → other.state ≠ .running)
    (waiting : ∀ id ∈ run.entryIds, ∃ entry ∈ m.entries, entry.id = id ∧ entry.state = .pending)
    (distinct : run.entryIds.Nodup) : (m.addRun run launch.id).Consistent := by
  have new : ∀ old ∈ m.runs, old.id ≠ run.id := fun old before same =>
    fresh (same ▸ consistent.drawnRuns old before)
  have live : run.isLive = true := by simp [LandingRun.isLive, starts]
  -- the entries of the new run wait, so no live run lists them
  have taken {entry : LandingEntry} (before : entry ∈ m.entries) (named : entry.id ∈ run.entryIds) :
      entry.state = .pending := by
    obtain ⟨other, present, same, state⟩ := waiting _ named
    rw [← consistent.entry_eq present before same]
    exact state
  have unlisted {old : LandingRun} (before : old ∈ m.runs) (oldLive : old.isLive = true)
      {id : JsString} (named : id ∈ old.entryIds) : id ∉ run.entryIds := by
    intro also
    obtain ⟨entry, present, same, state, -⟩ := consistent.listed old before oldLive id named
    have waits := taken present (same ▸ also)
    rw [state] at waits
    cases waits
  let g : LandingEntry → LandingEntry := fun entry =>
    if entry.id ∈ run.entryIds then entry.join run.id else entry
  have g_id (entry : LandingEntry) : (g entry).id = entry.id := by
    by_cases named : entry.id ∈ run.entryIds <;> simp [g, named, LandingEntry.join]
  have g_session (entry : LandingEntry) : (g entry).sessionId = entry.sessionId := by
    by_cases named : entry.id ∈ run.entryIds <;> simp [g, named, LandingEntry.join]
  have g_active {entry : LandingEntry} (before : entry ∈ m.entries)
      (active : (g entry).isActive = true) : entry.isActive = true := by
    by_cases named : entry.id ∈ run.entryIds
    · simp [LandingEntry.isActive, taken before named]
    · simpa [g, named] using active
  have mem_entries {entry : LandingEntry} (present : entry ∈ (m.addRun run launch.id).entries) :
      ∃ old ∈ m.entries, entry = g old := by
    obtain ⟨old, before, rfl⟩ := List.mem_map.mp present
    exact ⟨old, before, rfl⟩
  have mem_launches {l : LandingRunnerLaunch} (present : l ∈ (m.addRun run launch.id).launches) :
      l ∈ m.launches ∧ l.id ≠ launch.id ∨ l = { launch with runId := some run.id } := by
    obtain ⟨old, before, rfl⟩ := List.mem_map.mp present
    by_cases same : old.id = launch.id
    · have : old = launch := consistent.launch_eq before known same
      subst this
      exact .inr (by simp)
    · exact .inl ⟨by simpa [same] using before, by simp [same]⟩
  constructor
  · exact map_nodup_of_eq (fun entry _ => g_id entry) consistent.entryIds
  · show ((m.runs ++ [run]).map LandingRun.id).Nodup
    rw [List.map_append]
    refine consistent.runIds.append (by simp) ?_
    simpa using new
  · refine map_nodup_of_eq (fun other before => ?_) consistent.launchIds
    by_cases same : other.id = launch.id <;> simp [same]
  · intro entry present
    obtain ⟨old, before, rfl⟩ := mem_entries present
    rw [g_id]
    exact List.mem_cons_of_mem _ (consistent.drawnEntries old before)
  · intro other listed
    rcases List.mem_append.mp listed with old | added
    · exact List.mem_cons_of_mem _ (consistent.drawnRuns other old)
    · rw [List.mem_singleton.mp added]
      exact List.mem_cons_self
  · intro l present
    apply List.mem_cons_of_mem
    rcases mem_launches present with ⟨old, -⟩ | rfl
    · exact consistent.drawnLaunches l old
    · exact consistent.drawnLaunches launch known
  · intro other listed id owned
    apply List.mem_cons_of_mem
    rcases List.mem_append.mp listed with old | added
    · exact consistent.drawnOwners other old id owned
    · rw [List.mem_singleton.mp added, own] at owned
      cases owned
      exact consistent.drawnLaunches launch known
  · intro other listed
    rcases List.mem_append.mp listed with old | added
    · exact consistent.distinct other old
    · rw [List.mem_singleton.mp added]
      exact distinct
  · intro other listed otherLive id named
    rcases List.mem_append.mp listed with old | added
    · obtain ⟨entry, present, same, found⟩ := consistent.listed other old otherLive id named
      have outside : entry.id ∉ run.entryIds := same ▸ unlisted old otherLive named
      exact ⟨entry, List.mem_map.mpr ⟨entry, present, by simp [outside]⟩, same, found⟩
    · rw [List.mem_singleton.mp added] at named ⊢
      obtain ⟨entry, present, same, -⟩ := waiting id named
      subst same
      exact ⟨g entry, List.mem_map.mpr ⟨entry, present, rfl⟩, g_id entry,
        by simp [g, named, LandingEntry.join], by simp [g, named, LandingEntry.join]⟩
  · intro entry present state
    obtain ⟨old, before, rfl⟩ := mem_entries present
    by_cases named : old.id ∈ run.entryIds
    · exact ⟨run, List.mem_append_right _ List.mem_cons_self, live,
        by simp [g, named, LandingEntry.join], g_id old ▸ named⟩
    · have unchanged : g old = old := by simp [g, named]
      rw [unchanged] at state ⊢
      obtain ⟨other, listed, found⟩ := consistent.running old before state
      exact ⟨other, List.mem_append_left _ listed, found⟩
  · intro left listed right listed' state state' key
    rcases List.mem_append.mp listed with old | added
    · rcases List.mem_append.mp listed' with old' | added'
      · exact consistent.oneRun left old right old' state state' key
      · rw [List.mem_singleton.mp added'] at key
        exact absurd state (alone left old key)
    · rcases List.mem_append.mp listed' with old' | added'
      · rw [List.mem_singleton.mp added] at key
        exact absurd state' (alone right old' key.symm)
      · rw [List.mem_singleton.mp added, List.mem_singleton.mp added']
  · intro left present right present' active active' session
    obtain ⟨old, before, rfl⟩ := mem_entries present
    obtain ⟨old', before', rfl⟩ := mem_entries present'
    rw [g_session, g_session] at session
    rw [consistent.oneActive old before old' before' (g_active before active)
      (g_active before' active') session]
  · intro other listed state
    rcases List.mem_append.mp listed with old | added
    · exact consistent.plans other old state
    · rw [List.mem_singleton.mp added, unplanned]
      simp
  · intro other listed state l stored owned
    rcases List.mem_append.mp listed with old | added
    · rcases mem_launches stored with ⟨before, -⟩ | rfl
      · exact consistent.tied other old state l before owned
      · have := consistent.tied other old state launch known owned
        rw [idle] at this
        cases this
    · rw [List.mem_singleton.mp added] at owned ⊢
      rw [own] at owned
      rcases mem_launches stored with ⟨-, different⟩ | rfl
      · exact absurd (Option.some.inj owned).symm different
      · rfl

theorem runUpdated (consistent : m.Consistent) {run run' : LandingRun} (inside : run ∈ m.runs)
    (runs : run.state = .running) (sameId : run'.id = run.id) (sameKey : run'.key = run.key)
    (sameLaunch : run'.launchId = run.launchId) (sameEntries : run'.entryIds = run.entryIds)
    (sameState : run'.state = run.state)
    (plan : ∀ plan ∈ run'.plan, plan ∈ run.plan ∨ plan.reconciled = false) :
    (m.updateRun run.id fun _ => run').Consistent := by
  have live : run.isLive = true := by simp [LandingRun.isLive, runs]
  -- every run is still there, or it was `run` and is `run'`
  have mem_runs {other : LandingRun} (listed : other ∈ (m.updateRun run.id fun _ => run').runs) :
      ∃ old ∈ m.runs, other.id = old.id ∧ other.key = old.key ∧ other.launchId = old.launchId ∧
        other.entryIds = old.entryIds ∧ other.state = old.state ∧
        (other = old ∨ old = run ∧ other = run') := by
    obtain ⟨old, before, rfl⟩ := List.mem_map.mp listed
    by_cases same : old.id = run.id
    · have : old = run := consistent.run_eq before inside same
      subst this
      rw [if_pos rfl]
      exact ⟨old, before, sameId, sameKey, sameLaunch, sameEntries, sameState, .inr ⟨rfl, rfl⟩⟩
    · rw [if_neg same]
      exact ⟨old, before, rfl, rfl, rfl, rfl, rfl, .inl rfl⟩
  have run_mem {old : LandingRun} (before : old ∈ m.runs) :
      ∃ other ∈ (m.updateRun run.id fun _ => run').runs, other.id = old.id ∧
        other.entryIds = old.entryIds ∧ (old.isLive = true → other.isLive = true) := by
    refine ⟨_, List.mem_map.mpr ⟨old, before, rfl⟩, ?_⟩
    by_cases same : old.id = run.id
    · have : old = run := consistent.run_eq before inside same
      subst this
      rw [if_pos rfl]
      exact ⟨sameId, sameEntries, fun _ => by simp [LandingRun.isLive, sameState, runs]⟩
    · rw [if_neg same]
      exact ⟨rfl, rfl, id⟩
  constructor
  · exact consistent.entryIds
  · refine map_nodup_of_eq (fun other old => ?_) consistent.runIds
    by_cases same : other.id = run.id <;> simp [same, sameId]
  · exact consistent.launchIds
  · exact consistent.drawnEntries
  · intro other listed
    obtain ⟨old, before, same, -⟩ := mem_runs listed
    exact same ▸ consistent.drawnRuns old before
  · exact consistent.drawnLaunches
  · intro other listed id own
    obtain ⟨old, before, -, -, sameOwner, -⟩ := mem_runs listed
    exact consistent.drawnOwners old before id (sameOwner ▸ own)
  · intro other listed
    obtain ⟨old, before, -, -, -, same, -⟩ := mem_runs listed
    exact same ▸ consistent.distinct old before
  · intro other listed otherLive id named
    obtain ⟨old, before, same, -, -, entryIds, -, kept | ⟨was, -⟩⟩ := mem_runs listed
    · subst kept
      exact consistent.listed other before otherLive id named
    · subst was
      rw [same]
      exact consistent.listed old before live id (entryIds ▸ named)
  · intro entry present state
    obtain ⟨old, before, oldLive, runId, named⟩ := consistent.running entry present state
    obtain ⟨other, listed, same, entryIds, stillLive⟩ := run_mem before
    exact ⟨other, listed, stillLive oldLive, same ▸ runId, entryIds ▸ named⟩
  · intro left listed right listed' state state' key
    obtain ⟨old, before, idOf, keyOf, -, -, stateOf, -⟩ := mem_runs listed
    obtain ⟨old', before', idOf', keyOf', -, -, stateOf', -⟩ := mem_runs listed'
    rw [idOf, idOf']
    exact consistent.oneRun old before old' before' (stateOf ▸ state) (stateOf' ▸ state')
      (by rw [← keyOf, ← keyOf', key])
  · exact consistent.oneActive
  · intro other listed state
    obtain ⟨old, before, -, -, -, -, stateOf, kept | ⟨was, now⟩⟩ := mem_runs listed
    · subst kept
      exact consistent.plans other before state
    · subst was now
      intro p planned
      rcases plan p planned with earlier | fresh
      · exact consistent.plans old before runs p earlier
      · exact fresh
  · intro other listed state launch stored own
    obtain ⟨old, before, same, -, sameOwner, -, stateOf, -⟩ := mem_runs listed
    rw [same]
    exact consistent.tied old before (stateOf ▸ state) launch stored (sameOwner ▸ own)

theorem pruned (consistent : m.Consistent) (now : Nat) : (m.prune now).Consistent := by
  have old_run {run : LandingRun} : run ∈ (m.prune now).runs → run ∈ m.runs := mem_of_mem_kept
  have old_launch {launch : LandingRunnerLaunch} :
      launch ∈ (m.prune now).launches → launch ∈ m.launches := mem_of_mem_kept
  have old_entry {entry : LandingEntry} (present : entry ∈ (m.prune now).entries) :
      entry ∈ m.entries :=
    (List.mem_filter.mp present).1
  constructor
  · exact consistent.entryIds.sublist (List.filter_sublist.map _)
  · exact kept_nodup (fun run done => by simp_all) consistent.runIds
  · exact kept_nodup (fun launch done => by simp_all) consistent.launchIds
  · exact fun entry present => consistent.drawnEntries entry (old_entry present)
  · exact fun run listed => consistent.drawnRuns run (old_run listed)
  · exact fun launch stored => consistent.drawnLaunches launch (old_launch stored)
  · exact fun run listed => consistent.drawnOwners run (old_run listed)
  · exact fun run listed => consistent.distinct run (old_run listed)
  · intro run listed live id named
    obtain ⟨entry, present, same, state, runId⟩ :=
      consistent.listed run (old_run listed) live id named
    refine ⟨entry, List.mem_filter.mpr ⟨present, ?_⟩, same, state, runId⟩
    simp [LandingEntry.isKept, LandingEntry.isActive, state]
  · intro entry present state
    obtain ⟨run, listed, live, found⟩ := consistent.running entry (old_entry present) state
    exact ⟨run, mem_kept listed live, live, found⟩
  · exact fun left listed right listed' =>
      consistent.oneRun left (old_run listed) right (old_run listed')
  · exact fun left present right present' =>
      consistent.oneActive left (old_entry present) right (old_entry present')
  · exact fun run listed => consistent.plans run (old_run listed)
  · exact fun run listed state launch stored =>
      consistent.tied run (old_run listed) state launch (old_launch stored)

theorem entryWithdrawn (consistent : m.Consistent) {entry : LandingEntry}
    (inside : entry ∈ m.entries) (waits : entry.state = .pending) (caller : JsString) (now : Nat)
    (saved : Bool) : (m.withdrawEntry entry caller now saved).Consistent := by
  have withdraw_inactive {old : LandingEntry} (active : (old.withdraw caller now).isActive = true) :
      old.isActive = true := by
    cases active
  have withdraw_stopped {old : LandingEntry}
      (state : (old.withdraw caller now).state = .running) : old.withdraw caller now = old := by
    cases state
  -- an entry that waits is in no live run
  have mem_entries {other : LandingEntry}
      (present : other ∈ (m.withdrawEntry entry caller now saved).entries) :
      ∃ old ∈ m.entries, other.id = old.id ∧ other.sessionId = old.sessionId ∧
        (other.isActive = true → old.isActive = true) ∧ (other.state = .running → other = old) := by
    obtain ⟨old, before, rfl⟩ := List.mem_map.mp present
    by_cases same : old.id = entry.id
    · rw [if_pos same]
      exact ⟨old, before, rfl, rfl, withdraw_inactive, withdraw_stopped⟩
    · rw [if_neg same]
      exact ⟨old, before, rfl, rfl, id, fun _ => rfl⟩
  constructor
  · refine map_nodup_of_eq (fun other _ => ?_) consistent.entryIds
    by_cases same : other.id = entry.id <;> simp [same, LandingEntry.withdraw]
  · exact consistent.runIds
  · exact consistent.launchIds
  · intro other present
    obtain ⟨old, before, same, -⟩ := mem_entries present
    exact same ▸ consistent.drawnEntries old before
  · exact consistent.drawnRuns
  · exact consistent.drawnLaunches
  · exact consistent.drawnOwners
  · exact consistent.distinct
  · intro run listed live id named
    obtain ⟨old, before, same, state, runId⟩ := consistent.listed run listed live id named
    have different : old.id ≠ entry.id := fun equal => by
      rw [consistent.entry_eq before inside equal, waits] at state
      cases state
    exact ⟨old, List.mem_map.mpr ⟨old, before, if_neg different⟩, same, state, runId⟩
  · intro other present state
    obtain ⟨old, before, -, -, -, unchanged⟩ := mem_entries present
    have kept := unchanged state
    subst kept
    exact consistent.running other before state
  · exact consistent.oneRun
  · intro left present right present' active active' session
    obtain ⟨i, old, rfl⟩ := List.mem_map.mp present
    obtain ⟨j, old', rfl⟩ := List.mem_map.mp present'
    by_cases same : i.id = entry.id
    · rw [if_pos same] at active
      cases active
    · by_cases same' : j.id = entry.id
      · rw [if_pos same'] at active'
        cases active'
      · rw [if_neg same] at active session ⊢
        rw [if_neg same'] at active' session ⊢
        exact consistent.oneActive i old j old' active active' session
  · exact consistent.plans
  · exact consistent.tied

end Consistent

/-! ## Runs that end -/

theorem endLaunchOf_spec (run : LandingRun) (now : Nat) :
    ∃ h : LandingRunnerLaunch → LandingRunnerLaunch,
      m.endLaunchOf run now = { m with launches := m.launches.map h } ∧
      ∀ launch, (h launch).id = launch.id ∧ (h launch).runId = launch.runId ∧
        (h launch).key = launch.key ∧ (run.launchId ≠ some launch.id → h launch = launch) := by
  unfold endLaunchOf
  split
  · exact ⟨id, by rw [List.map_id], fun _ => ⟨rfl, rfl, rfl, fun _ => rfl⟩⟩
  · rename_i id owner
    refine ⟨_, rfl, fun launch => ?_⟩
    by_cases own : launch.id = id
    · rw [if_pos own]
      exact ⟨launch.endOnce_id now, launch.endOnce_runId now, launch.endOnce_key now,
        fun other => absurd (own ▸ owner) other⟩
    · rw [if_neg own]
      exact ⟨rfl, rfl, rfl, fun _ => rfl⟩

/-- The end of a run: the tables after it, where only its own launch may have ended. -/
def Ends (m m' : LandingQueueManager) (run : LandingRun) : Prop :=
  ∃ f g h, Retired m m' run f g h ∧
    ∀ launch, (h launch).key = launch.key ∧ (run.launchId ≠ some launch.id → h launch = launch)

theorem abandonRun_ends (consistent : m.Consistent) {run : LandingRun} (inside : run ∈ m.runs)
    (runs : run.state = .running) (now now' : Nat) : Ends m (m.abandonRun run now now') run := by
  obtain ⟨h, ended, keeps⟩ := endLaunchOf_spec
    (m := m.updateRun run.id fun run => run.abandon now) run now'
  have live : run.isLive = true := by simp [LandingRun.isLive, runs]
  have plans := consistent.plans run inside runs
  cases planned : run.plan with
  | some plan =>
    have still : (run.abandon now).isLive = true := by
      simp [LandingRun.isLive, LandingRun.isUnreconciled, LandingRun.abandon, planned,
        plans plan planned]
    have whole : m.abandonRun run now now' =
        (m.updateRun run.id fun run => run.abandon now).endLaunchOf run now' := by
      simp [abandonRun, planned]
    rw [whole, ended]
    refine ⟨_, id, h, ⟨rfl, (List.map_id _).symm, rfl, rfl, rfl, rfl, rfl, fun _ => rfl,
      fun _ => rfl, fun launch => (keeps launch).1, fun launch => (keeps launch).2.1,
      fun _ _ _ => rfl, fun _ _ _ => rfl, fun past => ?_, fun _ _ => id, ?_⟩, fun launch =>
      ⟨(keeps launch).2.2.1, (keeps launch).2.2.2⟩⟩
    · rw [still] at past
      cases past
    · simp [LandingRun.abandon]
  | none =>
    have gone : (run.abandon now).isLive = false := by
      simp [LandingRun.isLive, LandingRun.isUnreconciled, LandingRun.abandon, planned]
    have whole : m.abandonRun run now now' =
        { (m.updateRun run.id fun run => run.abandon now).endLaunchOf run now' with
          entries := m.entries.map fun entry =>
            if entry.id ∈ run.entryIds then entry.release else entry } := by
      simp [abandonRun, planned]
    rw [whole, ended]
    refine ⟨_, _, h, ⟨rfl, rfl, rfl, rfl, rfl, rfl, rfl, fun entry => ?_,
      fun entry => ?_, fun launch => (keeps launch).1, fun launch => (keeps launch).2.1,
      fun entry _ other => if_neg other, fun past => ?_, fun _ entry present own => ?_,
      fun entry present _ => ?_, ?_⟩, fun launch =>
      ⟨(keeps launch).2.2.1, (keeps launch).2.2.2⟩⟩
    · split <;> rfl
    · split <;> rfl
    · rw [gone] at past
      cases past
    · rw [if_pos own]
      simp [LandingEntry.release]
    · by_cases own : entry.id ∈ run.entryIds
      · simp [LandingEntry.isActive, (consistent.in_run inside live present own).1]
      · rename_i active
        rwa [if_neg own] at active
    · simp [LandingRun.abandon]

/-- Entries settled by a report that covers a live run and names no other entry. -/
theorem settled_ends (consistent : m.Consistent) {run : LandingRun} (inside : run ∈ m.runs)
    (live : run.isLive = true) (report : LandingRunReport) (own : m.Own run report)
    (covers : ∀ id ∈ run.entryIds, ∃ outcome ∈ report.outcomes, outcome.entryId = id) (now : Nat)
    {f : LandingRun → LandingRun} {h : LandingRunnerLaunch → LandingRunnerLaunch}
    (runs : m'.runs = m.runs.map fun other => if other.id = run.id then f other else other)
    (entries : m'.entries = settleAll report now m.entries) (launches : m'.launches = m.launches.map h)
    (drawn : m'.drawn = m.drawn) (runId : (f run).id = run.id)
    (owner : (f run).launchId = run.launchId) (entryIds : (f run).entryIds = run.entryIds)
    (past : (f run).isLive = false)
    (keeps : ∀ launch, (h launch).id = launch.id ∧ (h launch).runId = launch.runId ∧
      (h launch).key = launch.key ∧ (run.launchId ≠ some launch.id → h launch = launch)) :
    Ends m m' run := by
  have named {entry : LandingEntry} (listed : entry.id ∈ run.entryIds) :
      (entry.settleBy report now).state ≠ .running := by
    obtain ⟨outcome, told, same⟩ := covers _ listed
    exact LandingEntry.settleBy_state ⟨outcome, told, same⟩
  have others {entry : LandingEntry} (present : entry ∈ m.entries)
      (unlisted : entry.id ∉ run.entryIds) : entry.settleBy report now = entry := by
    refine LandingEntry.settleBy_unnamed fun outcome told same => ?_
    rcases own outcome told with listed | unknown
    · exact unlisted (same ▸ listed)
    · exact unknown entry present same.symm
  refine ⟨f, LandingEntry.settleBy report now, h, ⟨runs, entries.trans (settleAll_eq_map _ _ _),
    launches, drawn, runId, owner, entryIds, fun entry => entry.settleBy_id now report,
    fun entry => entry.settleBy_sessionId now report, fun launch => (keeps launch).1,
    fun launch => (keeps launch).2.1, fun entry present => others present, fun still => ?_,
    fun _ entry _ => named, fun entry present active => ?_, fun state => ?_⟩, fun launch =>
    ⟨(keeps launch).2.2.1, (keeps launch).2.2.2⟩⟩
  · rw [past] at still
    cases still
  · by_cases listed : entry.id ∈ run.entryIds
    · simp [LandingEntry.isActive, (consistent.in_run inside live present listed).1]
    · rwa [others present listed] at active
  · simp [LandingRun.isLive, state] at past

theorem finishRun_ends (consistent : m.Consistent) {run : LandingRun} (inside : run ∈ m.runs)
    (runs : run.state = .running) {report : LandingRunReport} (own : m.Own run report)
    (covers : ∀ id ∈ run.entryIds, ∃ outcome ∈ report.outcomes, outcome.entryId = id)
    (now : Nat → Nat) (saved : Bool) : Ends m (m.finishRun run report now saved) run := by
  obtain ⟨h, ended, keeps⟩ := endLaunchOf_spec
    (m := m.updateRun run.id fun run => run.finish (now 0)) run (now 1)
  have live : run.isLive = true := by simp [LandingRun.isLive, runs]
  unfold finishRun
  rw [ended]
  have past : (run.finish (now 0)).isLive = false := by
    simp [LandingRun.isLive, LandingRun.isUnreconciled, LandingRun.finish]
  dsimp only
  split
  · exact settled_ends consistent inside live report own covers (now 3) rfl rfl rfl rfl rfl rfl rfl past
      keeps
  · exact settled_ends consistent inside live report own covers (now 3) rfl rfl rfl rfl rfl rfl rfl past
      keeps

theorem reconcileReport_ids (run : LandingRun) (pushed : Bool) :
    (run.reconcileReport pushed).outcomes.map LandingEntryOutcome.entryId = run.entryIds := by
  unfold LandingRun.reconcileReport
  rw [List.map_map]
  refine (List.map_congr_left fun id _ => ?_).trans (List.map_id _)
  cases pushed with
  | false => rfl
  | true =>
    simp only [Function.comp_apply, if_true]
    split <;> rfl

theorem reconcileRun_ends (consistent : m.Consistent) {run : LandingRun} (inside : run ∈ m.runs)
    (open' : run.isUnreconciled = true) (pushed : Bool) (now : Nat) (saved : Bool) :
    Ends m (m.reconcileRun run pushed now saved) run := by
  have live : run.isLive = true := by simp [LandingRun.isLive, open']
  have ids := reconcileReport_ids run pushed
  refine settled_ends consistent inside live (run.reconcileReport pushed) ?_ ?_ now
    (f := LandingRun.reconcile) (h := id) rfl rfl (List.map_id _).symm rfl rfl rfl rfl ?_
    fun _ => ⟨rfl, rfl, rfl, fun _ => rfl⟩
  · intro outcome told
    apply Or.inl
    rw [← ids]
    exact List.mem_map_of_mem told
  · intro id listed
    rw [← ids] at listed
    exact List.mem_map.mp listed
  · have state : run.state = .abandoned := by
      simp only [LandingRun.isUnreconciled, Bool.and_eq_true, decide_eq_true_eq] at open'
      exact open'.1
    cases planned : run.plan <;>
      simp [LandingRun.isLive, LandingRun.isUnreconciled, LandingRun.reconcile, state, planned]

/-! ## Every change -/

variable {terms : Terms}

theorem Ends.consistent (consistent : m.Consistent) {run : LandingRun} (inside : run ∈ m.runs)
    (live : run.isLive = true) (ends : Ends m m' run) : m'.Consistent := by
  obtain ⟨f, g, h, retired, -⟩ := ends
  exact consistent.retire inside live retired

theorem Consistent.retreat (consistent : m.Consistent) (step : Retreat m m') : m'.Consistent := by
  cases step with
  | quiet trouble launching starting => exact consistent.quiet rfl rfl rfl rfl
  | @launchEnded id now idle =>
    refine consistent.relaunch rfl rfl rfl rfl (fun launch => ?_) fun launch => ?_
    · split <;> rfl
    · split <;> rfl
  | runAbandoned now now' inside runs =>
    exact (abandonRun_ends consistent inside runs now now').consistent consistent inside
      (by simp [LandingRun.isLive, runs])

theorem Consistent.change (consistent : m.Consistent) (step : Change terms m m') :
    m'.Consistent := by
  cases step with
  | retreat step => exact consistent.retreat step
  | entryAdded fresh waits _ alone _ => exact consistent.entryAdded fresh waits alone
  | launchAdded fresh _ => exact consistent.launchAdded fresh
  | launchFailed now _ _ =>
    refine consistent.relaunch rfl rfl rfl rfl (fun launch => ?_) fun launch => ?_
    · split <;> rfl
    · split <;> rfl
  | launchStopped now _ _ _ =>
    refine consistent.relaunch rfl rfl rfl rfl (fun launch => ?_) fun launch => ?_
    · split <;> rfl
    · split <;> rfl
  | launchesEnded now _ =>
    refine consistent.relaunch rfl rfl rfl rfl (fun launch => ?_) fun launch => ?_
    · split
      · exact launch.endOnce_id now
      · rfl
    · split
      · exact launch.endOnce_runId now
      · rfl
  | runAdded fresh starts unplanned known _ _ idle own alone waiting distinct =>
    exact consistent.runAdded fresh starts unplanned known idle own alone waiting distinct
  | runUpdated run' inside runs sameId sameKey sameLaunch sameEntries sameState plan =>
    exact consistent.runUpdated inside runs sameId sameKey sameLaunch sameEntries sameState plan
  | runFinished now saved inside runs covers own _ =>
    exact (finishRun_ends consistent inside runs own covers now saved).consistent consistent inside
      (by simp [LandingRun.isLive, runs])
  | runReconciled pushed now saved inside open' =>
    exact (reconcileRun_ends consistent inside open' pushed now saved).consistent consistent inside
      (by simp [LandingRun.isLive, open'])
  | entryWithdrawn caller now saved inside waits =>
    exact consistent.entryWithdrawn inside waits caller now saved
  | pruned _ => exact consistent.pruned _
  | announced told =>
    unfold announce at told
    split at told
    · cases told
      exact consistent.quiet rfl rfl rfl rfl
    · cases told

theorem Consistent.changes (consistent : m.Consistent)
    (moved : Relation.ReflTransGen (Change terms) m m') : m'.Consistent := by
  induction moved with
  | refl => exact consistent
  | tail _ change ih => exact ih.change change

end LandingQueueManager

end Takode.LandingQueue
