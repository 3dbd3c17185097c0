import Takode.LandingQueue.Consistency

/-!
# Every operation is a sequence of changes

Each operation is followed through the code, whether or not it fails, and the
checks that it makes on the way are those of its changes.
-/

namespace Takode.LandingQueue

open Program Relation

variable {toLowerCase : JsString → JsString} {terms : Terms} {m : LandingQueueManager} {w : World}

/-! ## What operations share -/

theorem save_does {R : LandingQueueManager → LandingQueueManager → Prop} (n : Nat) :
    Does R (· = m) (save w n) fun _ t => t = m :=
  Does.require fun _ _ same => same

theorem abandon_does {run : LandingRun} (inside : run ∈ m.runs) (runs : run.state = .running) :
    Does Retreat (· = m) (abandon w run) fun _ t => t = m.abandonRun run (w.now 0) (w.now 1) :=
  Does.modify_bind (.runAbandoned _ _ inside runs) (save_does 0)

theorem mem_activeRun {key : JsString} {run : LandingRun} (active : m.activeRun key = some run) :
    run ∈ m.runs ∧ run.key = key ∧ run.state = .running := by
  have found := List.find?_some active
  simp only [Bool.and_eq_true, decide_eq_true_eq] at found
  exact ⟨List.mem_of_find?_eq_some active, found⟩

/-- The queue after the run of a key, if there is one, has been abandoned. -/
def LandingQueueManager.takenOver (m : LandingQueueManager) (w : World) (key : JsString) :
    LandingQueueManager :=
  match m.activeRun key with
  | none => m
  | some run => m.abandonRun run (w.now 0) (w.now 1)

theorem takeOver_does (key : JsString) :
    Does (Change terms) (· = m) (each (abandon w) (m.activeRun key).toList)
      fun _ t => t = m.takenOver w key := by
  unfold LandingQueueManager.takenOver
  cases active : m.activeRun key with
  | none => exact Does.pure fun _ same => same
  | some run =>
    obtain ⟨inside, -, runs⟩ := mem_activeRun active
    have abandons := (abandon_does (w := w) inside runs).steps fun _ _ step =>
      (.retreat step : Change terms _ _)
    exact Does.bind abandons fun _ => Does.pure fun _ same => same

namespace LandingQueueManager

theorem Consistent.takenOver (consistent : m.Consistent) (key : JsString) :
    (m.takenOver w key).Consistent := by
  unfold LandingQueueManager.takenOver
  split
  · exact consistent
  · obtain ⟨inside, -, runs⟩ := mem_activeRun ‹_›
    exact consistent.retreat (.runAbandoned _ _ inside runs)

theorem takenOver_drawn (key : JsString) : (m.takenOver w key).drawn = m.drawn := by
  unfold LandingQueueManager.takenOver
  split
  · rfl
  · obtain ⟨h, ended, -⟩ := endLaunchOf_spec
      (m := m.updateRun _ fun run => run.abandon (w.now 0)) _ (w.now 1)
    unfold abandonRun
    dsimp only
    split <;> rw [ended] <;> rfl

theorem takenOver_idle (consistent : m.Consistent) {key : JsString} {run : LandingRun}
    (inside : run ∈ (m.takenOver w key).runs) (same : run.key = key) : run.state ≠ .running := by
  intro runs
  unfold LandingQueueManager.takenOver at inside
  cases active : m.activeRun key with
  | none =>
    rw [active] at inside
    have absent := List.find?_eq_none.mp active run inside
    simp [same, runs] at absent
  | some old =>
    rw [active] at inside
    obtain ⟨present, own, state⟩ := mem_activeRun active
    obtain ⟨f, g, h, retired, -⟩ :=
      abandonRun_ends consistent present state (w.now 0) (w.now 1)
    rw [retired.runs] at inside
    obtain ⟨other, before, rfl⟩ := List.mem_map.mp inside
    by_cases equal : other.id = old.id
    · rw [if_pos equal, consistent.run_eq before present equal] at runs
      exact retired.past runs
    · rw [if_neg equal] at runs same
      exact equal (consistent.oneRun other before old present runs state (same.trans own.symm))

theorem takenOver_launch (consistent : m.Consistent) (key : JsString)
    {launch : LandingRunnerLaunch} (stored : launch ∈ m.launches) (idle : launch.runId = none) :
    launch ∈ (m.takenOver w key).launches := by
  unfold LandingQueueManager.takenOver
  cases active : m.activeRun key with
  | none => exact stored
  | some old =>
    obtain ⟨present, -, state⟩ := mem_activeRun active
    obtain ⟨f, g, h, retired, keeps⟩ :=
      abandonRun_ends consistent present state (w.now 0) (w.now 1)
    have other : old.launchId ≠ some launch.id := fun own => by
      have claimed := consistent.tied old present state launch stored own
      rw [idle] at claimed
      cases claimed
    show launch ∈ (m.abandonRun old (w.now 0) (w.now 1)).launches
    rw [retired.launches]
    exact List.mem_map.mpr ⟨launch, stored, (keeps launch).2 other⟩

end LandingQueueManager

theorem currentLaunch_does {R : LandingQueueManager → LandingQueueManager → Prop}
    {runner : LandingRunnerCaller} {key : JsString} :
    Does R (· = m) (currentLaunch runner key) fun launch t =>
      t = m ∧ (launch ∈ m.launches ∧ launch.key = key ∧ launch.ended = false) := by
  refine Does.get_bind ?_
  unfold Program.orThrow
  split
  · rename_i launch found
    obtain ⟨stored, checked⟩ := Option.filter_eq_some_iff.mp found
    simp only [Bool.and_eq_true, decide_eq_true_eq, Bool.not_eq_true'] at checked
    exact Does.pure fun t same => ⟨same, List.mem_of_find?_eq_some stored, checked⟩
  · exact Does.throw

theorem ownedRunningRun_does {R : LandingQueueManager → LandingQueueManager → Prop}
    {runId : JsString} {runner : LandingRunnerCaller} :
    Does R (· = m) (ownedRunningRun runId runner) fun run t =>
      t = m ∧ (run ∈ m.runs ∧ run.id = runId ∧ run.launchId = some runner.launchId ∧
        run.state = .running) := by
  refine Does.get_bind (Does.orThrow_bind fun run found => Does.require_bind fun owned =>
    Does.require_bind fun runs => Does.pure fun t same => ?_)
  have named := List.find?_some found
  exact ⟨same, List.mem_of_find?_eq_some found, of_decide_eq_true named,
    of_decide_eq_true owned, of_decide_eq_true runs⟩

theorem fresh_drawn {random : JsString} (fresh : m.isFresh random = true) :
    (js "le-" ++ random) ∉ m.drawn ∧ (js "lr-" ++ random) ∉ m.drawn ∧
      (js "ll-" ++ random) ∉ m.drawn := by
  simpa [LandingQueueManager.isFresh] using fresh

theorem mem_pending {key : JsString} {entry : LandingEntry} :
    entry ∈ m.pending key ↔ entry ∈ m.entries ∧ entry.key = key ∧ entry.state = .pending := by
  simp [LandingQueueManager.pending]

/-! ## Operations -/

theorem submit_does (fresh : m.isFresh w.random = true) {input : LandingSubmitInput}
    (meets : ∀ entry : LandingEntry, entry.sessionId = input.callerSessionId →
      entry.preparationId = input.preparationId.filter (!·.isEmpty) → terms.submits m entry) :
    Does (Change terms) (· = m) (submit toLowerCase w input) fun _ _ => True := by
  unfold submit
  refine Does.require_bind fun _ => Does.require_bind fun _ => Does.require_bind fun _ =>
    Does.get_bind (Does.refuse_bind fun alone => Does.modify_bind ?_ ?_)
  · refine .entryAdded (fresh_drawn fresh).1 rfl rfl (fun other before same => ?_)
      (meets _ rfl rfl)
    rw [Option.map_eq_none_iff] at alone
    have inactive := List.find?_eq_none.mp alone other before
    simpa [same] using inactive
  · exact Does.bind (save_does 0) fun _ => Does.pure fun _ _ => trivial

theorem acquireByHand_does {R : LandingQueueManager → LandingQueueManager → Prop}
    {target : LandingTarget} :
    Does R (· = m) (acquireByHand toLowerCase w target) fun _ t => t = m := by
  unfold acquireByHand
  refine Does.ite (fun _ => Does.pure fun _ same => same) fun _ => ?_
  split
  · exact Does.throw
  · exact Does.throw
  · exact Does.pure fun _ same => same
  · exact Does.pure fun _ same => same

theorem startRunnerByHand_does (consistent : m.Consistent) (fresh : m.isFresh w.random = true)
    {target : LandingTarget} {hostId : Option JsString} {baseCheckout : JsString} :
    Does (Change terms) (· = m) (startRunnerByHand toLowerCase w target hostId baseCheckout)
      fun _ _ => True := by
  unfold startRunnerByHand
  refine Does.require_bind fun _ => Does.get_bind (Does.refuse_bind fun _ =>
    Does.require_bind fun _ => Does.require_bind fun _ =>
      Does.bind acquireByHand_does fun _ => Does.bind (takeOver_does _) fun _ => ?_)
  refine Does.modify_bind (.launchesEnded _ fun run inside same =>
    LandingQueueManager.takenOver_idle consistent inside same) ?_
  refine Does.modify_bind (.retreat (.quiet _ _ _)) (Does.modify_bind (.launchAdded ?_ rfl) ?_)
  · have drawn := LandingQueueManager.takenOver_drawn (m := m) (w := w)
      (landingQueueKey toLowerCase target)
    exact drawn ▸ (fresh_drawn fresh).2.2
  · exact Does.bind (save_does 1) fun _ => Does.pure fun _ _ => trivial

theorem claim_does (consistent : m.Consistent) (fresh : m.isFresh w.random = true)
    {runner : LandingRunnerCaller} {target : LandingTarget} :
    Does (Change terms) (· = m) (claim toLowerCase w runner target) fun _ _ => True := by
  unfold claim
  refine Does.spec_bind currentLaunch_does fun launch ⟨stored, own, opened⟩ =>
    Does.refuse_bind fun unclaimed => Does.require_bind fun _ => Does.get_bind
      (Does.bind (takeOver_does _) fun _ => Does.get_bind ?_)
  have idle : launch.runId = none := Option.map_eq_none_iff.mp unclaimed
  have still := LandingQueueManager.takenOver_launch (w := w) consistent
    (landingQueueKey toLowerCase target) stored idle
  have after := consistent.takenOver (w := w) (landingQueueKey toLowerCase target)
  split
  · split
    · refine Does.modify_bind (.retreat (.launchEnded _ fun other before same => ?_))
        (Does.bind (save_does 1) fun _ => Does.pure fun _ _ => trivial)
      rw [after.launch_eq before still same, idle]
    · rename_i first rest batch
      have waiting {entry : LandingEntry} (inside : entry ∈ first :: rest) :
          entry ∈ (m.takenOver w (landingQueueKey toLowerCase target)).pending
            (landingQueueKey toLowerCase target) :=
        List.mem_of_mem_take (batch ▸ inside)
      refine Does.modify_bind (.runAdded ?_ rfl rfl still own opened idle rfl ?_ ?_ ?_)
        (Does.bind (save_does 1) fun _ => Does.pure fun _ _ => trivial)
      · have drawn := LandingQueueManager.takenOver_drawn (m := m) (w := w)
          (landingQueueKey toLowerCase target)
        exact drawn ▸ (fresh_drawn fresh).2.1
      · exact fun other inside same => LandingQueueManager.takenOver_idle consistent inside same
      · intro id named
        obtain ⟨entry, inside, rfl⟩ := List.mem_map.mp named
        obtain ⟨present, -, state⟩ := mem_pending.mp (waiting inside)
        exact ⟨entry, present, rfl, state⟩
      · show ((first :: rest).map LandingEntry.id).Nodup
        have sorted := (List.perm_insertionSort (fun a b : LandingEntry =>
          a.submittedAt ≤ b.submittedAt) ((m.takenOver w (landingQueueKey toLowerCase
            target)).entries.filter fun entry => entry.key = landingQueueKey toLowerCase target &&
              entry.state = .pending)).map LandingEntry.id
        have distinct := sorted.nodup_iff.mpr
          (after.entryIds.sublist (List.filter_sublist.map LandingEntry.id))
        rw [← batch]
        exact distinct.sublist ((List.take_sublist _ _).map LandingEntry.id)
  · exact Does.pure fun _ _ => trivial

theorem heartbeat_does {runId : JsString} {runner : LandingRunnerCaller}
    {phase : Option JsString} :
    Does (Change terms) (· = m) (heartbeat w runId runner phase) fun _ _ => True := by
  unfold heartbeat
  refine Does.spec_bind ownedRunningRun_does fun run ⟨inside, _, _, runs⟩ =>
    Does.require_bind fun _ => Does.require_bind fun _ => Does.modify_bind
      (.runUpdated _ inside runs rfl rfl rfl rfl rfl fun _ planned => .inl planned)
      (Does.bind (save_does 0) fun _ => Does.pure fun _ _ => trivial)

theorem recordPlan_does {runId : JsString} {runner : LandingRunnerCaller} {base tip : JsString}
    {mapping : Record (List LandingCommitMapping)} :
    Does (Change terms) (· = m) (recordPlan w runId runner base tip mapping) fun _ _ => True := by
  unfold recordPlan
  refine Does.spec_bind ownedRunningRun_does fun run ⟨inside, _, _, runs⟩ =>
    Does.require_bind fun _ => Does.refuse_bind fun _ => Does.modify_bind
      (.runUpdated _ inside runs rfl rfl rfl rfl rfl fun plan planned => ?_)
      (Does.bind (save_does 0) fun _ => Does.pure fun _ _ => trivial)
  cases planned
  exact .inr rfl

/-- `finish` takes the report: it is the runner's of this run, which is running, and covers it. -/
def LandingRun.Accepts (run : LandingRun) (runId : JsString) (runner : LandingRunnerCaller)
    (report : LandingRunReport) : Prop :=
  run.id = runId ∧ run.launchId = some runner.launchId ∧ run.state = .running ∧
    ∀ id ∈ run.entryIds, ∃ outcome ∈ report.outcomes, outcome.entryId = id

instance (run : LandingRun) (runId : JsString) (runner : LandingRunnerCaller)
    (report : LandingRunReport) : Decidable (run.Accepts runId runner report) :=
  inferInstanceAs (Decidable (_ ∧ _ ∧ _ ∧
    ∀ id ∈ run.entryIds, ∃ outcome ∈ report.outcomes, outcome.entryId = id))

theorem covers_of_find? {run : LandingRun} {report : LandingRunReport}
    (covered : (run.entryIds.find? fun entryId =>
      !(JsSet.ofList (report.outcomes.map LandingEntryOutcome.entryId)).has entryId) = none) :
    ∀ id ∈ run.entryIds, ∃ outcome ∈ report.outcomes, outcome.entryId = id := by
  intro id listed
  have told := List.find?_eq_none.mp covered id listed
  simp only [JsSet.has_ofList, Bool.not_eq_true', decide_eq_false_iff_not, not_not] at told
  exact List.mem_map.mp told

theorem finish_does {R : LandingQueueManager → LandingQueueManager → Prop} {runId : JsString}
    {runner : LandingRunnerCaller} {report : LandingRunReport}
    (step : ∀ run ∈ m.runs, run.Accepts runId runner report →
      R m (m.finishRun run report w.now (w.saved 0))) :
    Does R (· = m) (finish w runId runner report) fun _ _ => True := by
  unfold finish
  refine Does.spec_bind ownedRunningRun_does fun run ⟨inside, named, owner, runs⟩ =>
    Does.refuse_bind fun covered => ?_
  have covers := covers_of_find? (Option.map_eq_none_iff.mp covered)
  exact Does.modify_bind (step run inside ⟨named, owner, runs, covers⟩)
    (Does.bind (save_does 0) fun _ => Does.pure fun _ _ => trivial)

theorem reconcile_does {R : LandingQueueManager → LandingQueueManager → Prop} {runId : JsString}
    {runner : LandingRunnerCaller} {pushed : Bool}
    (step : ∀ run ∈ m.runs, run.id = runId → run.isUnreconciled = true →
      R m (m.reconcileRun run pushed (w.now 0) (w.saved 0))) :
    Does R (· = m) (reconcile toLowerCase w runId runner pushed) fun _ _ => True := by
  unfold reconcile
  refine Does.get_bind (Does.orThrow_bind fun run found => Does.spec_bind currentLaunch_does
    fun _ _ => Does.require_bind fun _ => Does.modify_bind ?_
      (Does.bind (save_does 0) fun _ => Does.pure fun _ _ => trivial))
  obtain ⟨listed, open'⟩ := Option.filter_eq_some_iff.mp found
  have named := List.find?_some listed
  exact step run (List.mem_of_find?_eq_some listed) (of_decide_eq_true named) open'

theorem withdraw_does {entryId caller : JsString} {leads : JsString → Bool} :
    Does (Change terms) (· = m) (withdraw w entryId caller leads) fun _ _ => True := by
  unfold withdraw
  refine Does.get_bind (Does.orThrow_bind fun entry found => Does.require_bind fun _ =>
    Does.require_bind fun waits => Does.modify_bind ?_
      (Does.bind (save_does 0) fun _ => Does.pure fun _ _ => trivial))
  exact .entryWithdrawn _ _ _ (List.mem_of_find?_eq_some found) (of_decide_eq_true waits)

theorem launchFailed_does {R : LandingQueueManager → LandingQueueManager → Prop}
    {launch : LandingRunnerLaunch} (ends : R m (m.endLaunch launch.id (w.now 2)))
    (quiet : ∀ s key now, R s (s.recordFailureFor key now)) :
    Does R (· = m) (launchFailed w launch) fun _ t =>
      t = (m.endLaunch launch.id (w.now 2)).recordFailureFor launch.key (w.now 3) :=
  Does.modify_bind ends (Does.modify_bind (quiet _ _ _) (save_does 1))

theorem runnerExited_does (consistent : m.Consistent) {launchId : JsString} :
    Does (Change terms) (· = m) (runnerExited w launchId) fun _ _ => True := by
  unfold runnerExited
  refine Does.get_bind (Does.bind (Q := fun _ _ => True) ?_ fun _ => Does.pure fun _ _ => trivial)
  cases found : m.launches.find? fun launch => launch.id = launchId with
  | none => exact Does.pure fun _ _ => trivial
  | some launch =>
    have stored := List.mem_of_find?_eq_some found
    refine Does.bind (Q := fun _ _ => True) ?_ fun _ => Does.pure fun _ _ => trivial
    show Does (Change terms) (· = m) (launchExited w m launch) fun _ _ => True
    unfold launchExited
    split
    · rename_i run running
      obtain ⟨named, runs⟩ := Option.filter_eq_some_iff.mp running
      obtain ⟨runId, -, listed⟩ := Option.bind_eq_some_iff.mp named
      have abandons := (abandon_does (w := w) (List.mem_of_find?_eq_some listed)
        (of_decide_eq_true runs)).steps fun _ _ step => (.retreat step : Change terms _ _)
      refine Does.bind abandons fun _ => (Does.modify ?_).weaken (fun _ same => same) fun _ _ _ =>
        trivial
      exact .retreat (.quiet _ _ _)
    · rename_i stopped
      refine Does.ite (fun idle => ?_) fun busy => ?_
      · simp only [Bool.and_eq_true, Option.isNone_iff_eq_none] at idle
        refine (launchFailed_does (.retreat (.launchEnded _ fun other before same => ?_))
          fun _ _ _ => .retreat (.quiet _ _ _)).weaken (fun _ same => same) fun _ _ _ => trivial
        rw [consistent.launch_eq before stored same, idle.1]
      · refine Does.modify_bind (.launchStopped _ stored (fun run inside own runs => ?_) ?_)
          ((save_does 1).weaken (fun _ same => same) fun _ _ _ => trivial)
        · have present : (m.runs.find? fun other => other.id = run.id) = some run := by
            cases search : m.runs.find? fun other => other.id = run.id with
            | none =>
              have absent := List.find?_eq_none.mp search run inside
              simp at absent
            | some other =>
              have named := List.find?_some search
              have same : other.id = run.id := of_decide_eq_true named
              rw [consistent.run_eq (List.mem_of_find?_eq_some search) inside same]
          rw [own, Option.bind_some, present, Option.filter_some, if_pos (by simp [runs])] at stopped
          cases stopped
        · simp only [Bool.and_eq_true, Option.isNone_iff_eq_none, Bool.not_eq_true',
            not_and, Bool.not_eq_false] at busy
          by_cases claimed : launch.runId = none
          · exact .inr (busy claimed)
          · exact .inl claimed

theorem sweepRun_does {now : Nat} {run : LandingRun} (inside : run ∈ m.runs)
    (runs : run.state = .running) :
    Does Retreat (· = m) (sweepRun now w run) fun _ t => t = m ∨
      ∃ time time', t.runs = (m.abandonRun run time time').runs := by
  unfold sweepRun
  have abandons := (abandon_does (w := w) inside runs).weaken (fun _ same => same)
    fun _ t (same : t = _) => (.inr ⟨w.now 0, w.now 1, congrArg LandingQueueManager.runs same⟩ :
      t = m ∨ ∃ time time', t.runs = (m.abandonRun run time time').runs)
  refine Does.ite (fun _ => abandons) fun _ => Does.ite (fun _ => ?_) fun _ =>
    Does.pure fun _ same => .inl same
  refine Does.bind (abandon_does inside runs) fun _ => (Does.modify (.quiet _ _ _)).weaken
    (fun _ same => same) fun _ t same => .inr ⟨w.now 0, w.now 1, ?_⟩
  rw [same]
  rfl

theorem sweepLaunch_does {now : Nat} {started : Bool} {launch : LandingRunnerLaunch}
    (idle : ∀ other ∈ m.launches, other.id = launch.id → other.runId = none) :
    Does Retreat (· = m) (sweepLaunch now w started launch) fun _ t =>
      ∃ h : LandingRunnerLaunch → LandingRunnerLaunch, t.launches = m.launches.map h ∧
        ∀ launch, (h launch).id = launch.id ∧ (h launch).runId = launch.runId := by
  have ended (time : Nat) : ∀ launch' : LandingRunnerLaunch,
      (if launch'.id = launch.id then { launch' with endedAt := some time } else launch').id =
        launch'.id ∧
      (if launch'.id = launch.id then { launch' with endedAt := some time } else launch').runId =
        launch'.runId := fun launch' => by
    split <;> exact ⟨rfl, rfl⟩
  unfold sweepLaunch
  refine Does.get_bind (Does.ite (fun _ => ?_) fun _ => Does.ite (fun _ => ?_) fun _ =>
    Does.ite (fun _ => ?_) fun _ => ?_)
  · refine Does.pure fun t same => ⟨id, ?_, fun _ => ⟨rfl, rfl⟩⟩
    rw [same, List.map_id]
  · refine Does.modify_bind (.launchEnded _ idle) ((save_does 0).weaken (fun _ same => same)
      fun _ t same => ⟨_, ?_, ended now⟩)
    rw [same]
    rfl
  · refine (launchFailed_does (.launchEnded _ idle) fun _ _ _ => .quiet _ _ _).weaken
      (fun _ same => same) fun _ t same => ⟨_, ?_, ended (w.now 2)⟩
    rw [same]
    rfl
  · refine Does.pure fun t same => ⟨id, ?_, fun _ => ⟨rfl, rfl⟩⟩
    rw [same, List.map_id]

theorem LandingQueueManager.Consistent.retreats (consistent : m.Consistent) {m' : LandingQueueManager}
    (moved : ReflTransGen Retreat m m') : m'.Consistent := by
  induction moved with
  | refl => exact consistent
  | tail _ step ih => exact ih.retreat step

/-- What is true before `sweepRun` comes to the runs that are left. -/
structure RunsLeft (rest : List LandingRun) (s : LandingQueueManager) : Prop where
  consistent : s.Consistent
  distinct : (rest.map LandingRun.id).Nodup
  running : ∀ run ∈ rest, run ∈ s.runs ∧ run.state = .running

theorem sweepRuns_does (consistent : m.Consistent) {now : Nat} {ofRun : Nat → World} :
    Does Retreat (· = m) (eachFrom (fun n run => sweepRun now (ofRun n) run) 0
      (m.runs.filter fun run => run.state = .running)) fun _ t => ReflTransGen Retreat m t := by
  have loop := Does.eachFrom (R := Retreat) (P := RunsLeft)
    (f := fun n run => sweepRun now (ofRun n) run) (fun n run rest => Does.known fun s left => ?_) 0
    (m.runs.filter fun run => run.state = .running)
  · have start : ∀ s, s = m → RunsLeft (m.runs.filter fun run => run.state = .running) s := by
      rintro s rfl
      refine ⟨consistent, consistent.runIds.sublist (List.filter_sublist.map _),
        fun run listed => ?_⟩
      obtain ⟨inside, runs⟩ := List.mem_filter.mp listed
      exact ⟨inside, of_decide_eq_true runs⟩
    exact (loop.weaken start fun _ _ left => left).tracked.weaken (fun _ same => same)
      fun _ _ moved => moved.1
  · obtain ⟨inside, runs⟩ := left.running run List.mem_cons_self
    obtain ⟨apart, distinct⟩ := List.nodup_cons.mp left.distinct
    refine (sweepRun_does inside runs).tracked.weaken (fun _ same => same) fun _ t
      ⟨moved, result⟩ => ⟨left.consistent.retreats moved, distinct, fun other later => ?_⟩
    obtain ⟨inside', runs'⟩ := left.running other (List.mem_cons_of_mem _ later)
    refine ⟨?_, runs'⟩
    rcases result with rfl | ⟨time, time', after⟩
    · exact inside'
    · obtain ⟨f, g, h, retired, -⟩ := LandingQueueManager.abandonRun_ends left.consistent inside runs time time'
      rw [after, retired.runs]
      refine List.mem_map.mpr ⟨other, inside', if_neg fun same => ?_⟩
      exact apart (same ▸ List.mem_map_of_mem later)

/-- What is true before `sweepLaunch` comes to the launches that are left. -/
def LaunchesLeft (rest : List LandingRunnerLaunch) (s : LandingQueueManager) : Prop :=
  ∀ launch ∈ rest, ∀ other ∈ s.launches, other.id = launch.id → other.runId = none

theorem sweepLaunches_does (consistent : m.Consistent) {now : Nat} {ofLaunch : Nat → World}
    {started : Nat → Bool} :
    Does Retreat (· = m) (eachFrom (fun n launch => sweepLaunch now (ofLaunch n) (started n) launch)
      0 (m.launches.filter fun launch => !launch.ended && launch.runId.isNone))
      fun _ t => ReflTransGen Retreat m t := by
  have loop := Does.eachFrom (R := Retreat) (P := LaunchesLeft)
    (f := fun n launch => sweepLaunch now (ofLaunch n) (started n) launch)
    (fun n launch rest => Does.known fun s left => ?_) 0
    (m.launches.filter fun launch => !launch.ended && launch.runId.isNone)
  · have start : ∀ s, s = m → LaunchesLeft (m.launches.filter fun launch =>
        !launch.ended && launch.runId.isNone) s := by
      rintro s rfl launch listed other stored same
      obtain ⟨stored', idle⟩ := List.mem_filter.mp listed
      simp only [Bool.and_eq_true, Option.isNone_iff_eq_none] at idle
      rw [consistent.launch_eq stored stored' same, idle.2]
    exact (loop.weaken start fun _ _ left => left).tracked.weaken (fun _ same => same)
      fun _ _ moved => moved.1
  · refine (sweepLaunch_does (left launch List.mem_cons_self)).weaken (fun _ same => same)
      fun _ t ⟨h, launches, keeps⟩ => ?_
    intro later listed other stored same
    rw [launches] at stored
    obtain ⟨old, before, rfl⟩ := List.mem_map.mp stored
    rw [(keeps old).1] at same
    rw [(keeps old).2]
    exact left later (List.mem_cons_of_mem _ listed) old before same

theorem sweep_does (consistent : m.Consistent) {now pruned : Nat} {ofRun ofLaunch : Nat → World}
    {started : Nat → Bool}
    (meets : ∀ m', ReflTransGen Retreat m m' → terms.prunes m' pruned) :
    Does (Change terms) (· = m) (sweep now pruned ofRun ofLaunch started) fun _ _ => True := by
  unfold sweep
  refine Does.get_bind (Does.bind ((sweepRuns_does consistent).steps fun _ _ => .retreat) fun _ =>
    Does.known fun s moved => Does.get_bind ?_)
  have after := consistent.retreats moved
  refine Does.bind ((sweepLaunches_does after).steps fun _ _ => .retreat) fun _ =>
    Does.known fun t moved' => (Does.modify ?_).weaken (fun _ same => same) fun _ _ _ => trivial
  exact .pruned (meets t (moved.trans moved'))

theorem acquireLease_does {R : LandingQueueManager → LandingQueueManager → Prop} :
    Does R (· = m) (acquireLease w) fun _ t => t = m := by
  unfold acquireLease
  refine Does.ite (fun _ => Does.pure fun _ same => same) fun _ => ?_
  split
  · exact Does.throw
  · exact Does.pure fun _ same => same
  · exact Does.pure fun _ same => same
  · exact Does.pure fun _ same => same

theorem planOn_does (fresh : m.isFresh w.random = true) {key : JsString} {target : LandingTarget} :
    Does (Change terms) (· = m) (planOn toLowerCase w key target) fun _ _ => True := by
  unfold planOn
  refine Does.get_bind ?_
  dsimp only
  split
  · exact Does.modify_bind (.retreat (.quiet _ _ _)) (Does.pure fun _ _ => trivial)
  · refine Does.modify_bind (.launchAdded (fresh_drawn fresh).2.2 rfl) (Does.bind (save_does 0)
      fun _ => Does.modify_bind (.retreat (.quiet _ _ _)) (Does.pure fun _ _ => trivial))

theorem planLaunch_does (fresh : m.isFresh w.random = true) {key : JsString} :
    Does (Change terms) (· = m) (planLaunch toLowerCase w key) fun _ _ => True := by
  unfold planLaunch
  refine Does.get_bind (Does.ite (fun _ => Does.pure fun _ _ => trivial) fun _ => ?_)
  split
  · exact Does.modify_bind (.retreat (.quiet _ _ _)) (Does.pure fun _ _ => trivial)
  · refine Does.ite (fun _ => Does.pure fun _ _ => trivial) fun _ =>
      Does.bind acquireLease_does fun acquired => Does.ite (fun _ => planOn_does fresh) fun _ =>
        Does.pure fun _ _ => trivial

theorem startFailed_does {launchId : JsString} (meets : ∀ launch ∈ m.launches,
      launch.id = launchId → launch.ended = false → terms.fails m.runs launch) :
    Does (Change terms) (· = m) (startFailed w launchId) fun _ _ => True := by
  unfold startFailed
  refine Does.modify_bind (.retreat (.quiet _ _ _)) (Does.get_bind ?_)
  show Does (Change terms) _ (each (launchFailed w) ((m.launches.find? fun launch =>
    launch.id = launchId).filter fun launch => !launch.ended).toList) _
  cases found : (m.launches.find? fun launch => launch.id = launchId).filter fun launch =>
      !launch.ended with
  | none => exact Does.pure fun _ _ => trivial
  | some launch =>
    obtain ⟨listed, opened⟩ := Option.filter_eq_some_iff.mp found
    have stored := List.mem_of_find?_eq_some listed
    have named := List.find?_some listed
    refine Does.bind ((launchFailed_does (.launchFailed _ stored (meets launch stored
      (of_decide_eq_true named) (by simpa using opened))) fun _ _ _ =>
        .retreat (.quiet _ _ _)).weaken (fun _ same => same) (S := fun _ _ => True) fun _ _ _ =>
          trivial) fun _ => Does.pure fun _ _ => trivial

/-! ## Steps -/

/-- The operation meets the terms in this state. -/
def Operation.Meets (terms : Terms) (m : LandingQueueManager) : Operation → Prop
  | .submit _ input => ∀ entry : LandingEntry, entry.sessionId = input.callerSessionId →
      entry.preparationId = input.preparationId.filter (!·.isEmpty) → terms.submits m entry
  | .finish _ runId runner report => ∀ run ∈ m.runs, run.Accepts runId runner report →
      m.Own run report ∧ terms.reports run report
  | .startFailed _ launchId => ∀ launch ∈ m.launches, launch.id = launchId →
      launch.ended = false → terms.fails m.runs launch
  | .sweep _ pruned _ _ _ => ∀ m', ReflTransGen Retreat m m' → terms.prunes m' pruned
  | _ => True

/-- A step is a sequence of changes. -/
theorem perform_changes (consistent : m.Consistent) {m' : LandingQueueManager}
    {operation : Operation} (meets : operation.Meets terms m)
    (step : m.perform toLowerCase operation = some m') : ReflTransGen (Change terms) m m' := by
  unfold LandingQueueManager.perform at step
  cases operation with
  | submit w input =>
    obtain ⟨fresh, same⟩ := Option.ite_none_right_eq_some.mp step
    cases same
    exact (submit_does fresh meets m rfl).1
  | startRunnerByHand w target hostId baseCheckout =>
    obtain ⟨fresh, same⟩ := Option.ite_none_right_eq_some.mp step
    cases same
    exact (startRunnerByHand_does consistent fresh m rfl).1
  | claim w runner target =>
    obtain ⟨fresh, same⟩ := Option.ite_none_right_eq_some.mp step
    cases same
    exact (claim_does consistent fresh m rfl).1
  | heartbeat w runId runner phase =>
    cases step
    exact (heartbeat_does m rfl).1
  | recordPlan w runId runner base tip mapping =>
    cases step
    exact (recordPlan_does m rfl).1
  | finish w runId runner report =>
    cases step
    refine (finish_does (fun run inside accepts => ?_) m rfl).1
    obtain ⟨own, agreed⟩ := meets run inside accepts
    exact .runFinished _ _ inside accepts.2.2.1 accepts.2.2.2 own agreed
  | reconcile w runId runner pushed =>
    cases step
    exact (reconcile_does (fun run inside _ open' => .runReconciled _ _ _ inside open') m rfl).1
  | withdraw w entryId caller leads =>
    cases step
    exact (withdraw_does m rfl).1
  | runnerExited w launchId =>
    cases step
    exact (runnerExited_does consistent m rfl).1
  | sweep now pruned ofRun ofLaunch started =>
    cases step
    exact (sweep_does consistent meets m rfl).1
  | pump w key =>
    obtain ⟨fresh, same⟩ := Option.ite_none_right_eq_some.mp step
    cases same
    exact (planLaunch_does fresh m rfl).1
  | startFailed w launchId =>
    obtain ⟨-, same⟩ := Option.ite_none_right_eq_some.mp step
    cases same
    exact (startFailed_does meets m rfl).1
  | startSettled launchId =>
    obtain ⟨start, -, same⟩ := Option.bind_eq_some_iff.mp step
    cases same
    exact .single (.retreat (.quiet _ _ _))
  | announce entryId handled => exact .single (.announced step)

end Takode.LandingQueue
