import Takode.LandingQueue.Steps

/-!
# Entries, runs and launches agree

The tables agree as long as reports name only entries of their own run and no
runner fails to start after it has claimed its run: the code ends the launch of
such a runner while its run goes on.
-/

namespace Takode.LandingQueue

open Program Relation

namespace LandingQueueManager

variable {m m' : LandingQueueManager}

/-- A run that is running has its launch, which knows it and has not ended. -/
def Opened (m : LandingQueueManager) : Prop :=
  ∀ run ∈ m.runs, run.state = .running → ∃ launch ∈ m.launches,
    run.launchId = some launch.id ∧ launch.ended = false ∧ launch.runId = some run.id ∧
      launch.key = run.key

/-- The launch is not that of a run that is running. -/
def Idle (runs : List LandingRun) (launch : LandingRunnerLaunch) : Prop :=
  ∀ run ∈ runs, run.state = .running → run.launchId ≠ some launch.id

instance (runs : List LandingRun) (launch : LandingRunnerLaunch) : Decidable (Idle runs launch) :=
  inferInstanceAs (Decidable (∀ run ∈ runs, run.state = .running → run.launchId ≠ some launch.id))

/-- No runner fails to start once its run is running. -/
def punctual : Terms where
  fails := Idle

/-- Launches may change as long as those of the runs that are running do not end. -/
theorem Opened.relaunch (opened : m.Opened) {h : LandingRunnerLaunch → LandingRunnerLaunch}
    (runs : m'.runs = m.runs) (launches : m'.launches = m.launches.map h)
    (keeps : ∀ run ∈ m.runs, run.state = .running → ∀ launch ∈ m.launches,
      run.launchId = some launch.id → launch.runId = some run.id → launch.key = run.key →
        h launch = launch) : m'.Opened := by
  intro run inside state
  rw [runs] at inside
  obtain ⟨launch, stored, own, still, claimed, key⟩ := opened run inside state
  refine ⟨launch, ?_, own, still, claimed, key⟩
  rw [launches]
  exact List.mem_map.mpr ⟨launch, stored, keeps run inside state launch stored own claimed key⟩

theorem Opened.quiet (opened : m.Opened) (runs : m'.runs = m.runs)
    (launches : m'.launches = m.launches) : m'.Opened :=
  opened.relaunch (h := id) runs (by rw [launches, List.map_id]) fun _ _ _ _ _ _ _ _ => rfl

theorem Opened.ends (opened : m.Opened) (consistent : m.Consistent) {run : LandingRun}
    (inside : run ∈ m.runs) (runs : run.state = .running) (ends : Ends m m' run) : m'.Opened := by
  obtain ⟨f, g, h, retired, keeps⟩ := ends
  intro other listed state
  rw [retired.runs] at listed
  obtain ⟨old, before, rfl⟩ := List.mem_map.mp listed
  by_cases same : old.id = run.id
  · rw [if_pos same, consistent.run_eq before inside same] at state
    exact absurd state retired.past
  · rw [if_neg same] at state ⊢
    obtain ⟨launch, stored, own, still, claimed, key⟩ := opened old before state
    have other : run.launchId ≠ some launch.id := by
      intro shared
      have tied := consistent.tied run inside runs launch stored shared
      rw [claimed] at tied
      exact same (Option.some.inj tied)
    refine ⟨launch, ?_, own, still, claimed, key⟩
    rw [retired.launches]
    exact List.mem_map.mpr ⟨launch, stored, (keeps launch).2 other⟩

theorem Opened.reconciled (opened : m.Opened) {run : LandingRun} (pushed : Bool) (now : Nat)
    (saved : Bool) : (m.reconcileRun run pushed now saved).Opened := by
  intro other listed state
  obtain ⟨old, before, rfl⟩ := List.mem_map.mp listed
  by_cases same : old.id = run.id
  · rw [if_pos same] at state ⊢
    exact opened old before state
  · rw [if_neg same] at state ⊢
    exact opened old before state

theorem Opened.updated (opened : m.Opened) {run run' : LandingRun}
    (inside : run ∈ m.runs) (runs : run.state = .running) (sameId : run'.id = run.id)
    (sameKey : run'.key = run.key) (sameLaunch : run'.launchId = run.launchId) :
    (m.updateRun run.id fun _ => run').Opened := by
  intro other listed state
  obtain ⟨old, before, rfl⟩ := List.mem_map.mp listed
  by_cases same : old.id = run.id
  · rw [if_pos same, sameId, sameKey, sameLaunch]
    exact opened run inside runs
  · rw [if_neg same] at state ⊢
    exact opened old before state

theorem Opened.added (opened : m.Opened) {run : LandingRun} {launch : LandingRunnerLaunch}
    (stored : launch ∈ m.launches) (own : launch.key = run.key) (still : launch.ended = false)
    (idle : launch.runId = none) (owner : run.launchId = some launch.id)
    (consistent : m.Consistent) : (m.addRun run launch.id).Opened := by
  intro other listed state
  rcases List.mem_append.mp listed with before | added
  · obtain ⟨launch', stored', own', still', claimed, key⟩ := opened other before state
    have different : launch'.id ≠ launch.id := fun same => by
      rw [consistent.launch_eq stored' stored same, idle] at claimed
      cases claimed
    exact ⟨launch', List.mem_map.mpr ⟨launch', stored', if_neg different⟩, own', still', claimed,
      key⟩
  · rw [List.mem_singleton.mp added]
    exact ⟨_, List.mem_map.mpr ⟨launch, stored, if_pos rfl⟩, owner, still, rfl, own⟩

theorem Opened.pruned (opened : m.Opened) (now : Nat) : (m.prune now).Opened := by
  intro run listed state
  obtain ⟨launch, stored, own, still, found⟩ := opened run (mem_of_mem_kept listed) state
  exact ⟨launch, mem_kept stored (by simp [still]), own, still, found⟩

theorem Opened.endLaunch (opened : m.Opened) {id : JsString} (now : Nat)
    (idle : ∀ run ∈ m.runs, run.state = .running → ∀ launch ∈ m.launches, launch.id = id →
      run.launchId = some id → launch.runId ≠ some run.id) : (m.endLaunch id now).Opened := by
  refine opened.relaunch rfl rfl fun run inside state launch stored own claimed key => if_neg ?_
  intro same
  exact idle run inside state launch stored same (same ▸ own) claimed

theorem Opened.change (opened : m.Opened) (consistent : m.Consistent)
    (step : Change punctual m m') : m'.Opened := by
  cases step with
  | retreat step =>
    cases step with
    | quiet trouble launching starting => exact opened.quiet rfl rfl
    | launchEnded now idle =>
      refine opened.endLaunch now fun run _ _ launch stored same _ claimed => ?_
      rw [idle launch stored same] at claimed
      cases claimed
    | runAbandoned now now' inside runs =>
      exact opened.ends consistent inside runs (abandonRun_ends consistent inside runs now now')
  | entryAdded fresh waits _ alone _ => exact opened.quiet rfl rfl
  | @launchAdded launch fresh idle =>
    intro run inside state
    obtain ⟨launch', stored, found⟩ := opened run inside state
    exact ⟨launch', List.mem_append_left _ stored, found⟩
  | launchFailed now stored idle =>
    exact opened.endLaunch now fun run inside state _ _ _ own => absurd own (idle run inside state)
  | @launchStopped stopped now stored past done =>
    refine opened.relaunch rfl rfl fun run inside state launch stored' own claimed key =>
      if_neg fun same => ?_
    have equal : launch = stopped := consistent.launch_eq stored' stored same
    subst equal
    exact past run inside claimed state
  | launchesEnded now past =>
    refine opened.relaunch rfl rfl fun run inside state launch stored own claimed key =>
      if_neg fun same => ?_
    exact past run inside (key.symm.trans same) state
  | runAdded fresh starts unplanned stored own still idle owner alone waiting distinct =>
    exact opened.added stored own still idle owner consistent
  | runUpdated run' inside runs sameId sameKey sameLaunch sameEntries sameState plan =>
    exact opened.updated inside runs sameId sameKey sameLaunch
  | runFinished now saved inside runs covers own _ =>
    exact opened.ends consistent inside runs
      (finishRun_ends consistent inside runs own covers now saved)
  | runReconciled pushed now saved inside open' => exact opened.reconciled pushed now saved
  | entryWithdrawn caller now saved inside waits => exact opened.quiet rfl rfl
  | pruned _ => exact opened.pruned _
  | announced told =>
    unfold announce at told
    split at told
    · cases told
      exact opened.quiet rfl rfl
    · cases told

/-- The tables agree with each other. -/
structure Agree (m : LandingQueueManager) : Prop where
  oneRun : ∀ key, (m.runs.filter fun run => run.key = key && run.state = .running).length ≤ 1
  running : ∀ entry ∈ m.entries, entry.state = .running ↔ ∃ run ∈ m.runs,
    entry.runId = some run.id ∧ entry.id ∈ run.entryIds ∧
      (run.state = .running ∨ run.isUnreconciled = true)
  outside : ∀ entry ∈ m.entries, entry.state ≠ .running → ∀ run ∈ m.runs,
    run.state = .running ∨ run.isUnreconciled = true → entry.id ∉ run.entryIds
  launched : ∀ run ∈ m.runs, run.state = .running → ∃ launch ∈ m.launches,
    run.launchId = some launch.id ∧ launch.ended = false
  oneActive : ∀ sessionId, (m.entries.filter fun entry => entry.sessionId = sessionId &&
    (entry.state = .pending || entry.state = .running)).length ≤ 1

theorem length_le_one {α : Type} {f : α → JsString} {list : List α} {p : α → Bool}
    (distinct : (list.map f).Nodup) (same : ∀ a ∈ list, ∀ b ∈ list, p a = true → p b = true →
      f a = f b) : (list.filter p).length ≤ 1 := by
  have nodup : ((list.filter p).map f).Nodup := distinct.sublist (List.filter_sublist.map f)
  rcases filtered : list.filter p with _ | ⟨a, _ | ⟨b, rest⟩⟩
  · simp
  · simp
  · have inA : a ∈ list.filter p := by simp [filtered]
    have inB : b ∈ list.filter p := by simp [filtered]
    obtain ⟨a', pa⟩ := List.mem_filter.mp inA
    obtain ⟨b', pb⟩ := List.mem_filter.mp inB
    rw [filtered] at nodup
    simp [same a a' b b' pa pb] at nodup

theorem isLive_iff {run : LandingRun} :
    run.isLive = true ↔ run.state = .running ∨ run.isUnreconciled = true := by
  simp [LandingRun.isLive]

theorem Consistent.agree (consistent : m.Consistent) (opened : m.Opened) : m.Agree := by
  constructor
  · intro key
    refine length_le_one consistent.runIds fun run inside run' inside' here there => ?_
    simp only [Bool.and_eq_true, decide_eq_true_eq] at here there
    exact consistent.oneRun run inside run' inside' here.2 there.2 (here.1.trans there.1.symm)
  · intro entry present
    constructor
    · intro state
      obtain ⟨run, inside, live, runId, listed⟩ := consistent.running entry present state
      exact ⟨run, inside, runId, listed, isLive_iff.mp live⟩
    · rintro ⟨run, inside, -, listed, live⟩
      exact (consistent.in_run inside (isLive_iff.mpr live) present listed).1
  · intro entry present state run inside live listed
    exact state (consistent.in_run inside (isLive_iff.mpr live) present listed).1
  · intro run inside state
    obtain ⟨launch, stored, own, still, -⟩ := opened run inside state
    exact ⟨launch, stored, own, still⟩
  · intro sessionId
    refine length_le_one consistent.entryIds fun entry present entry' present' here there => ?_
    simp only [Bool.and_eq_true, decide_eq_true_eq] at here there
    exact congrArg _ (consistent.oneActive entry present entry' present' here.2 there.2
      (here.1.trans there.1.symm))

end LandingQueueManager

open LandingQueueManager

/-! ## Runs -/

/-- A report that is taken names only entries of its own run, and a runner fails to start only while
its run is not running. -/
def Operation.Careful (m : LandingQueueManager) : Operation → Prop
  | .finish _ runId runner report => ∀ run ∈ m.runs, run.Accepts runId runner report →
      m.Own run report
  | .startFailed _ launchId => ∀ launch ∈ m.launches, launch.id = launchId →
      launch.ended = false → Idle m.runs launch
  | _ => True

instance (m : LandingQueueManager) : (operation : Operation) → Decidable (operation.Careful m)
  | .finish _ runId runner report => inferInstanceAs (Decidable (∀ run ∈ m.runs,
      run.Accepts runId runner report → m.Own run report))
  | .startFailed _ launchId => inferInstanceAs (Decidable (∀ launch ∈ m.launches,
      launch.id = launchId → launch.ended = false → Idle m.runs launch))
  | .submit .. | .startRunnerByHand .. | .claim .. | .heartbeat .. | .recordPlan ..
  | .reconcile .. | .withdraw .. | .runnerExited .. | .sweep .. | .pump ..
  | .startSettled .. | .announce .. => .isTrue trivial

theorem Operation.Careful.meets {m : LandingQueueManager} {operation : Operation}
    (careful : operation.Careful m) : operation.Meets punctual m := by
  cases operation with
  | finish w runId runner report =>
    exact fun run inside accepts => ⟨careful run inside accepts, trivial⟩
  | startFailed w launchId => exact careful
  | submit w input => exact fun _ _ _ => trivial
  | sweep now pruned ofRun ofLaunch started => exact fun _ _ => trivial
  | _ => exact trivial

variable {toLowerCase : JsString → JsString} {m : LandingQueueManager}

theorem opened_of_careful
    (reached : (landingRuns toLowerCase).Reaches (fun m operation => operation.Careful m) m) :
    m.Consistent ∧ m.Opened := by
  induction reached with
  | start => exact ⟨consistent_start, fun run inside => nomatch inside⟩
  | step _ careful step ih =>
    obtain ⟨consistent, opened⟩ := ih
    have moved := perform_changes consistent careful.meets step
    clear step careful
    induction moved with
    | refl => exact ⟨consistent, opened⟩
    | tail _ change ih => exact ⟨ih.1.change change, ih.2.change ih.1 change⟩

theorem tables_agree
    (reached : (landingRuns toLowerCase).Reaches (fun m operation => operation.Careful m) m) :
    m.Agree := by
  obtain ⟨consistent, opened⟩ := opened_of_careful reached
  exact consistent.agree opened

/-! ## Two runs -/

/-- What an operation is told at a time: its saves succeed and the queue holds the lease. -/
def World.at (time : Nat) (random : String) : World where
  now := fun _ => time
  random := js random

def mainBranch : LandingTarget := ⟨js "takode", js "main"⟩
def devBranch : LandingTarget := ⟨js "takode", js "dev"⟩

def runnerOf (random branch : String) : LandingRunnerCaller :=
  ⟨js "ll-" ++ js random, LANDING_QUEUE_OWNER_PREFIX ++ js "takode:" ++ js branch⟩

def change (session preparation : String) (target : LandingTarget) : LandingSubmitInput where
  callerSessionId := js session
  target := target
  baseCheckout := js "/takode"
  preparationId := some (js preparation)
  commits := 1

def sourceSha : JsString := js "1111111111111111111111111111111111111111"
def targetSha : JsString := js "2222222222222222222222222222222222222222"
def landedCommit : LandingCommitMapping := { source := sourceSha, target := targetSha, subject := js "fix" }

/-- Two changes wait for two branches, and each is in a run. -/
def twoRuns : List Operation :=
  [.submit (.at 1 "a") (change "s1" "p1" mainBranch), .submit (.at 2 "b") (change "s2" "p2" devBranch),
    .pump (.at 3 "c") (js "takode:main"), .pump (.at 4 "d") (js "takode:dev"),
    .startSettled (js "ll-c"), .claim (.at 5 "e") (runnerOf "c" "main") mainBranch,
    .claim (.at 6 "f") (runnerOf "d" "dev") devBranch]

theorem two_runs_agree :
    ∃ m, (landingRuns id).Reaches (fun m operation => operation.Careful m) m ∧
      m.entries.map LandingEntry.state = [.landed, .running] ∧ m.Agree := by
  obtain ⟨m, reached, states⟩ := (landingRuns id).exists_reaches_of_admitted
    (fun m operation => decide (operation.Careful m))
    (fun m => m.entries.map LandingEntry.state = [.landed, .running])
    (twoRuns ++ [.finish (.at 7 "") (js "lr-e") (runnerOf "c" "main")
      { outcomes := [.landed (js "le-a") [landedCommit]] }])
    (fun _ _ _ _ careful => of_decide_eq_true careful) (by decide +kernel)
  exact ⟨m, reached, states, tables_agree reached⟩

/-- A report names an entry of another run as well, or a start that succeeded is reported as failed
after its runner has claimed a run. -/
theorem tables_disagree :
    (∃ m, (landingRuns id).Reachable m ∧
      (∃ entry ∈ m.entries, entry.state = .pending ∧ ∃ run ∈ m.runs, run.state = .running ∧
        entry.id ∈ run.entryIds) ∧ ¬ m.Agree) ∧
    ∃ m, (landingRuns id).Reachable m ∧
      (∃ run ∈ m.runs, run.state = .running ∧ ∀ launch ∈ m.launches,
        run.launchId = some launch.id → launch.ended = true) ∧ ¬ m.Agree := by
  constructor
  · obtain ⟨m, reached, entry, present, state, run, inside, runs, listed⟩ :=
      (landingRuns id).exists_reaches_of_run (fun _ _ => true)
      (fun m => ∃ entry ∈ m.entries, entry.state = .pending ∧ ∃ run ∈ m.runs,
        run.state = .running ∧ entry.id ∈ run.entryIds)
      (twoRuns ++ [.finish (.at 7 "") (js "lr-e") (runnerOf "c" "main")
        { outcomes := [.landed (js "le-a") [landedCommit], .requeue (js "le-b") (js "retry")] }])
      (by decide +kernel)
    refine ⟨m, reached.reachable, ⟨entry, present, state, run, inside, runs, listed⟩, fun agree => ?_⟩
    exact agree.outside entry present (by simp [state]) run inside (.inl runs) listed
  · obtain ⟨m, reached, run, inside, runs, ended⟩ :=
      (landingRuns id).exists_reaches_of_run (fun _ _ => true)
      (fun m => ∃ run ∈ m.runs, run.state = .running ∧ ∀ launch ∈ m.launches,
        run.launchId = some launch.id → launch.ended = true)
      (twoRuns ++ [.startFailed (.at 7 "") (js "ll-d")]) (by decide +kernel)
    refine ⟨m, reached.reachable, ⟨run, inside, runs, ended⟩, fun agree => ?_⟩
    obtain ⟨launch, stored, own, still⟩ := agree.launched run inside runs
    rw [ended launch stored own] at still
    cases still

end Takode.LandingQueue
