import Takode.LandingQueue.Manager

/-!
# What an operation changes

The changes of the tables that operations are made of, each with what the code
has checked when it makes it, and what the tables keep under them. A report may
name only entries of its own run, which the code does not check.
-/

namespace Takode.LandingQueue

/-- It is running, or abandoned with a push plan that nobody has checked. -/
def LandingRun.isLive (run : LandingRun) : Bool := run.state = .running || run.isUnreconciled

/-- The report names no entry of another run; ids of no entry do not matter. -/
def LandingQueueManager.Own (m : LandingQueueManager) (run : LandingRun)
    (report : LandingRunReport) : Prop :=
  ∀ outcome ∈ report.outcomes, outcome.entryId ∈ run.entryIds ∨
    ∀ entry ∈ m.entries, entry.id ≠ outcome.entryId

instance (m : LandingQueueManager) (run : LandingRun) (report : LandingRunReport) :
    Decidable (m.Own run report) :=
  inferInstanceAs (Decidable (∀ outcome ∈ report.outcomes, outcome.entryId ∈ run.entryIds ∨
    ∀ entry ∈ m.entries, entry.id ≠ outcome.entryId))

/-- What is assumed of a run besides: of entries submitted, of reports, of runners that fail to
start, and of what is pruned. -/
structure Terms where
  submits : LandingQueueManager → LandingEntry → Prop := fun _ _ => True
  reports : LandingRun → LandingRunReport → Prop := fun _ _ => True
  fails : List LandingRun → LandingRunnerLaunch → Prop := fun _ _ => True
  prunes : LandingQueueManager → Nat → Prop := fun _ _ => True

/-- The changes of a sweep up to its `prune`. -/
inductive Retreat (m : LandingQueueManager) : LandingQueueManager → Prop
  | quiet (trouble launching starting) :
    Retreat m { m with trouble := trouble, launching := launching, starting := starting }
  | launchEnded {id} (now) : (∀ launch ∈ m.launches, launch.id = id → launch.runId = none) →
    Retreat m (m.endLaunch id now)
  | runAbandoned {run} (now now') : run ∈ m.runs → run.state = .running →
    Retreat m (m.abandonRun run now now')

inductive Change (terms : Terms) (m : LandingQueueManager) : LandingQueueManager → Prop
  | retreat {m'} : Retreat m m' → Change terms m m'
  | entryAdded {entry} : entry.id ∉ m.drawn → entry.state = .pending → entry.resolvedAt = none →
    (∀ other ∈ m.entries, other.sessionId = entry.sessionId → other.isActive = false) →
    terms.submits m entry → Change terms m (m.addEntry entry)
  | launchAdded {launch} : launch.id ∉ m.drawn → launch.runId = none →
    Change terms m (m.addLaunch launch)
  | launchFailed {launch} (now) : launch ∈ m.launches → terms.fails m.runs launch →
    Change terms m (m.endLaunch launch.id now)
  | launchStopped {launch} (now) : launch ∈ m.launches →
    (∀ run ∈ m.runs, launch.runId = some run.id → run.state ≠ .running) →
    (launch.runId ≠ none ∨ launch.ended = true) →
    Change terms m (m.updateLaunch launch.id fun launch =>
      { launch with endedAt := launch.endedAt <|> some now })
  | launchesEnded {key} (now) : (∀ run ∈ m.runs, run.key = key → run.state ≠ .running) →
    Change terms m (m.endLaunches key now)
  | runAdded {run launch} : run.id ∉ m.drawn → run.state = .running → run.plan = none →
    launch ∈ m.launches → launch.key = run.key → launch.ended = false → launch.runId = none →
    run.launchId = some launch.id → (∀ other ∈ m.runs, other.key = run.key →
      other.state ≠ .running) →
    (∀ id ∈ run.entryIds, ∃ entry ∈ m.entries, entry.id = id ∧ entry.state = .pending) →
    run.entryIds.Nodup → Change terms m (m.addRun run launch.id)
  | runUpdated {run} (run' : LandingRun) : run ∈ m.runs → run.state = .running →
    run'.id = run.id → run'.key = run.key → run'.launchId = run.launchId →
    run'.entryIds = run.entryIds → run'.state = run.state →
    (∀ plan ∈ run'.plan, plan ∈ run.plan ∨ plan.reconciled = false) →
    Change terms m (m.updateRun run.id fun _ => run')
  | runFinished {run report} (now saved) : run ∈ m.runs → run.state = .running →
    (∀ id ∈ run.entryIds, ∃ outcome ∈ report.outcomes, outcome.entryId = id) →
    m.Own run report → terms.reports run report →
    Change terms m (m.finishRun run report now saved)
  | runReconciled {run} (pushed now saved) : run ∈ m.runs → run.isUnreconciled = true →
    Change terms m (m.reconcileRun run pushed now saved)
  | entryWithdrawn {entry} (caller now saved) : entry ∈ m.entries → entry.state = .pending →
    Change terms m (m.withdrawEntry entry caller now saved)
  | pruned {now} : terms.prunes m now → Change terms m (m.prune now)
  | announced {id handled m'} : m.announce id handled = some m' → Change terms m m'

namespace LandingRunnerLaunch

variable (launch : LandingRunnerLaunch) (now : Nat)

@[simp] theorem endOnce_id : (launch.endOnce now).id = launch.id := by
  unfold endOnce
  split <;> rfl

@[simp] theorem endOnce_runId : (launch.endOnce now).runId = launch.runId := by
  unfold endOnce
  split <;> rfl

@[simp] theorem endOnce_key : (launch.endOnce now).key = launch.key := by
  unfold endOnce
  split <;> rfl

end LandingRunnerLaunch

/-! ## Outcomes -/

/-- What a report makes of an entry. -/
def LandingEntry.settleBy (report : LandingRunReport) (now : Nat) (entry : LandingEntry) :
    LandingEntry :=
  (report.outcomes.filter fun outcome => entry.id = outcome.entryId).foldl
    (fun entry outcome => entry.settle report.pushedTip now outcome) entry

namespace LandingEntry

variable (entry : LandingEntry) (tip : Option JsString) (now : Nat)
  (outcome : LandingEntryOutcome) (outcomes : List LandingEntryOutcome)

@[simp] theorem settle_id : (entry.settle tip now outcome).id = entry.id := by
  cases outcome <;> rfl

@[simp] theorem settle_sessionId : (entry.settle tip now outcome).sessionId = entry.sessionId := by
  cases outcome <;> rfl

@[simp] theorem settle_preparationId :
    (entry.settle tip now outcome).preparationId = entry.preparationId := by
  cases outcome <;> rfl

theorem settle_state : (entry.settle tip now outcome).state ≠ .running := by
  cases outcome <;> simp [settle]

theorem foldl_settle {α : Type} (f : LandingEntry → α)
    (keeps : ∀ entry outcome, f (settle entry tip now outcome) = f entry) :
    f (outcomes.foldl (fun entry outcome => entry.settle tip now outcome) entry) = f entry := by
  induction outcomes generalizing entry with
  | nil => rfl
  | cons first rest ih => rw [List.foldl_cons, ih, keeps]

variable (report : LandingRunReport)

@[simp] theorem settleBy_id : (entry.settleBy report now).id = entry.id :=
  foldl_settle _ _ _ _ _ fun entry outcome => settle_id entry _ _ outcome

@[simp] theorem settleBy_sessionId : (entry.settleBy report now).sessionId = entry.sessionId :=
  foldl_settle _ _ _ _ _ fun entry outcome => settle_sessionId entry _ _ outcome

@[simp] theorem settleBy_preparationId :
    (entry.settleBy report now).preparationId = entry.preparationId :=
  foldl_settle _ _ _ _ _ fun entry outcome => settle_preparationId entry _ _ outcome

variable {entry report}

theorem settleBy_state {now : Nat}
    (named : ∃ outcome ∈ report.outcomes, outcome.entryId = entry.id) :
    (entry.settleBy report now).state ≠ .running := by
  obtain ⟨outcome, inside, same⟩ := named
  have some : outcome ∈ report.outcomes.filter fun outcome => entry.id = outcome.entryId := by
    simp [inside, same]
  unfold settleBy
  generalize report.outcomes.filter _ = named at some
  obtain ⟨last, initial, rfl⟩ := List.eq_nil_or_concat named |>.resolve_left
    (List.ne_nil_of_mem some)
  rw [List.concat_eq_append, List.foldl_append]
  exact settle_state _ _ _ _

theorem settleBy_unnamed {now : Nat}
    (unnamed : ∀ outcome ∈ report.outcomes, outcome.entryId ≠ entry.id) :
    entry.settleBy report now = entry := by
  have none : report.outcomes.filter (fun outcome => entry.id = outcome.entryId) = [] :=
    List.filter_eq_nil_iff.mpr fun outcome inside same =>
      unnamed outcome inside (of_decide_eq_true same).symm
  rw [settleBy, none]
  rfl

end LandingEntry

theorem settleAll_eq_map (report : LandingRunReport) (now : Nat) (entries : List LandingEntry) :
    settleAll report now entries = entries.map (LandingEntry.settleBy report now) := by
  obtain ⟨outcomes, tip⟩ := report
  unfold settleAll LandingEntry.settleBy
  dsimp only
  induction outcomes generalizing entries with
  | nil => simp
  | cons outcome rest ih =>
    rw [List.foldl_cons, ih, settleOne, List.map_map]
    refine List.map_congr_left fun entry _ => ?_
    by_cases named : entry.id = outcome.entryId <;> simp [named]

end Takode.LandingQueue
