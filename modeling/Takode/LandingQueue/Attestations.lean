import Takode.LandingQueue.Outcomes

/-!
# Attestations

What the queue attests of a preparation is read from the entries that are left.
It is sound as long as no landed record is forgotten while another entry of the
same preparation is there: resolved entries are pruned by age, and a preparation
can be submitted again after it has landed.
-/

namespace Takode.LandingQueue

open Program Relation LandingQueueManager

/-- The entry carries the preparation for the session. -/
def LandingEntry.Carries (entry : LandingEntry) (sessionId preparationId : JsString) : Prop :=
  entry.sessionId = sessionId ∧ entry.preparationId = some preparationId

instance (entry : LandingEntry) (sessionId preparationId : JsString) :
    Decidable (entry.Carries sessionId preparationId) :=
  inferInstanceAs (Decidable (_ ∧ _))

/-- There is a landed record of the preparation. -/
def Recorded (entries : List LandingEntry) (sessionId preparationId : JsString) : Prop :=
  ∃ entry ∈ entries, entry.state = .landed ∧ entry.Carries sessionId preparationId

instance (entries : List LandingEntry) (sessionId preparationId : JsString) :
    Decidable (Recorded entries sessionId preparationId) :=
  inferInstanceAs (Decidable (∃ entry ∈ entries, _ ∧ _))

/-- The entries tell that the preparation has landed, or nothing of it. -/
def Remembered (entries : List LandingEntry) (sessionId preparationId : JsString) : Prop :=
  Recorded entries sessionId preparationId ∨
    ∀ entry ∈ entries, ¬ entry.Carries sessionId preparationId

instance (entries : List LandingEntry) (sessionId preparationId : JsString) :
    Decidable (Remembered entries sessionId preparationId) :=
  inferInstanceAs (Decidable (_ ∨ _))

/-- Pruning forgets no landed record of a preparation and keeps another entry of it. -/
def Mindful (entries : List LandingEntry) (now : Nat) : Prop :=
  ∀ entry ∈ entries, entry.state = .landed → ∀ preparationId ∈ entry.preparationId,
    Remembered (entries.filter fun entry => entry.isKept now) entry.sessionId preparationId

instance (entries : List LandingEntry) (now : Nat) : Decidable (Mindful entries now) :=
  inferInstanceAs (Decidable (∀ entry ∈ entries, entry.state = .landed →
    ∀ preparationId ∈ entry.preparationId, _))

/-- No preparation is submitted that has landed for its session and whose record is gone. -/
def Unforgotten (m : LandingQueueManager) (sessionId : JsString)
    (preparationId : Option JsString) : Prop :=
  ∀ landing ∈ m.landings, landing.sessionId = sessionId → ∀ preparation ∈ preparationId,
    landing.preparationId = some preparation → Recorded m.entries sessionId preparation

instance (m : LandingQueueManager) (sessionId : JsString) (preparationId : Option JsString) :
    Decidable (Unforgotten m sessionId preparationId) :=
  inferInstanceAs (Decidable (∀ landing ∈ m.landings, landing.sessionId = sessionId →
    ∀ preparation ∈ preparationId, _ → _))

namespace LandingQueueManager

variable {m m' : LandingQueueManager} {terms : Terms}

def remembering : Terms where
  submits := fun m entry => Unforgotten m entry.sessionId entry.preparationId
  reports := Once
  prunes := fun m now => Mindful m.entries now

/-- What the entries tell of landings and of reports. -/
structure Honest (m : LandingQueueManager) : Prop where
  remembered : ∀ landing ∈ m.landings, ∀ preparationId ∈ landing.preparationId,
    Remembered m.entries landing.sessionId preparationId
  reported : ∀ entry ∈ m.entries, entry.state = .landed → ∃ runId report,
    (runId, report) ∈ m.reported ∧ ∃ mapping, .landed entry.id mapping ∈ report.outcomes ∧
      entry.mapping = some mapping

theorem Honest.of_map (honest : m.Honest) {g : LandingEntry → LandingEntry}
    (entries : m'.entries = m.entries.map g) (landings : m'.landings = m.landings)
    (reported : m'.reported = m.reported)
    (same : ∀ entry ∈ m.entries, (g entry).sessionId = entry.sessionId ∧
      (g entry).preparationId = entry.preparationId ∧
      (entry.state = .landed ∨ (g entry).state = .landed → g entry = entry)) : m'.Honest := by
  constructor
  · intro landing listed preparationId own
    rw [landings] at listed
    rw [entries]
    rcases honest.remembered landing listed preparationId own with ⟨entry, present, state, carries⟩ | none
    · refine .inl ⟨entry, ?_, state, carries⟩
      exact List.mem_map.mpr ⟨entry, present, (same entry present).2.2 (.inl state)⟩
    · refine .inr fun entry' present carries => ?_
      obtain ⟨entry, before, rfl⟩ := List.mem_map.mp present
      obtain ⟨session, preparation, -⟩ := same entry before
      exact none entry before ⟨session ▸ carries.1, preparation ▸ carries.2⟩
  · intro entry' present state
    rw [entries] at present
    obtain ⟨entry, before, rfl⟩ := List.mem_map.mp present
    have unchanged := (same entry before).2.2 (.inr state)
    rw [unchanged] at state ⊢
    rw [reported]
    exact honest.reported entry before state

theorem Honest.of_entries (honest : m.Honest) (entries : m'.entries = m.entries)
    (landings : m'.landings = m.landings) (reported : m'.reported = m.reported) : m'.Honest :=
  honest.of_map (g := id) (by rw [entries, List.map_id]) landings reported fun _ _ =>
    ⟨rfl, rfl, fun _ => rfl⟩

theorem Honest.entryAdded (honest : m.Honest) {entry : LandingEntry} (waits : entry.state = .pending)
    (unforgotten : Unforgotten m entry.sessionId entry.preparationId) :
    (m.addEntry entry).Honest := by
  constructor
  · intro landing listed preparationId own
    rcases honest.remembered landing listed preparationId own with ⟨old, present, found⟩ | none
    · exact .inl ⟨old, List.mem_append_left _ present, found⟩
    · by_cases carries : entry.Carries landing.sessionId preparationId
      · obtain ⟨old, present, found⟩ := unforgotten landing listed carries.1.symm preparationId
          carries.2 own
        exact .inl ⟨old, List.mem_append_left _ present, found.1, carries.1 ▸ found.2⟩
      · refine .inr fun other present => ?_
        rcases List.mem_append.mp present with before | added
        · exact none other before
        · rwa [List.mem_singleton.mp added]
  · intro other present state
    rcases List.mem_append.mp present with before | added
    · exact honest.reported other before state
    · rw [List.mem_singleton.mp added, waits] at state
      cases state

theorem Honest.pruned (honest : m.Honest) {now : Nat} (mindful : Mindful m.entries now) :
    (m.prune now).Honest := by
  constructor
  · intro landing listed preparationId own
    rcases honest.remembered landing listed preparationId own with ⟨entry, present, state, carries⟩ | none
    · exact carries.1 ▸ mindful entry present state preparationId carries.2
    · exact .inr fun entry present => none entry (List.mem_filter.mp present).1
  · intro entry present state
    exact honest.reported entry (List.mem_filter.mp present).1 state

/-- A report that is taken: what it records as landed is there. -/
theorem Honest.settled_by (honest : m.Honest) (consistent : m.Consistent) {run : LandingRun}
    (inside : run ∈ m.runs) (live : run.isLive = true) {report : LandingRunReport}
    (own : m.Own run report) (once : Once run report)
    (covers : ∀ id ∈ run.entryIds, ∃ outcome ∈ report.outcomes, outcome.entryId = id) (now : Nat)
    (entries : m'.entries = settleAll report now m.entries)
    (landings : m'.landings = m.landings ++ m.landedBy report)
    (reported : m'.reported = m.reported ++ [(run.id, report)]) : m'.Honest := by
  rw [settleAll_eq_map] at entries
  have unnamed {entry : LandingEntry} (present : entry ∈ m.entries)
      (unlisted : entry.id ∉ run.entryIds) : entry.settleBy report now = entry := by
    refine LandingEntry.settleBy_unnamed fun outcome told same => ?_
    rcases own outcome told with listed | unknown
    · exact unlisted (same ▸ listed)
    · exact unknown entry present same.symm
  constructor
  · intro landing listed preparationId carried
    rw [entries]
    rw [landings] at listed
    rcases List.mem_append.mp listed with before | now'
    · rcases honest.remembered landing before preparationId carried with
        ⟨entry, present, state, carries⟩ | none
      · have outside : entry.id ∉ run.entryIds := fun own => by
          rw [(consistent.in_run inside live present own).1] at state
          cases state
        exact .inl ⟨entry, List.mem_map.mpr ⟨entry, present, unnamed present outside⟩, state, carries⟩
      · refine .inr fun entry' present carries => ?_
        obtain ⟨entry, before, rfl⟩ := List.mem_map.mp present
        exact none entry before ⟨(entry.settleBy_sessionId now report) ▸ carries.1,
          (entry.settleBy_preparationId now report) ▸ carries.2⟩
    · obtain ⟨outcome, told, found⟩ := List.mem_filterMap.mp now'
      split at found
      · rename_i lands
        obtain ⟨entry, search, rfl⟩ := Option.map_eq_some_iff.mp found
        have present := List.mem_of_find?_eq_some search
        have named := List.find?_some search
        have same : entry.id = outcome.entryId := of_decide_eq_true named
        have listed' : entry.id ∈ run.entryIds := by
          rcases own outcome told with listed | unknown
          · exact same ▸ listed
          · exact absurd same (unknown entry present)
        obtain ⟨only, -, -, all, settled⟩ := settleBy_once once covers listed' now
        have inOnly : outcome ∈ report.outcomes.filter fun outcome =>
            entry.id = outcome.entryId := by
          simp [told, same]
        rw [all, List.mem_singleton] at inOnly
        subst inOnly
        refine .inl ⟨_, List.mem_map_of_mem present, ?_, entry.settleBy_sessionId now report,
          (entry.settleBy_preparationId now report).trans carried⟩
        rw [settled]
        cases outcome with
        | landed => rfl
        | bounced => cases lands
        | requeue => cases lands
      · cases found
  · intro entry' present state
    rw [entries] at present
    obtain ⟨entry, before, rfl⟩ := List.mem_map.mp present
    by_cases listed : entry.id ∈ run.entryIds
    · obtain ⟨outcome, told, same, -, settled⟩ := settleBy_once once covers listed now
      rw [settled] at state ⊢
      refine ⟨run.id, report, by simp [reported], ?_⟩
      rw [LandingEntry.settle_id, ← same]
      cases outcome with
      | landed entryId mapping => exact ⟨mapping, told, rfl⟩
      | bounced => cases state
      | requeue => cases state
    · rw [unnamed before listed] at state ⊢
      obtain ⟨runId, old, told, found⟩ := honest.reported entry before state
      exact ⟨runId, old, by simp [reported, told], found⟩

theorem Mindful.of_map {entries : List LandingEntry} {now : Nat} (mindful : Mindful entries now)
    {g : LandingEntry → LandingEntry}
    (same : ∀ entry ∈ entries, (g entry).sessionId = entry.sessionId ∧
      (g entry).preparationId = entry.preparationId ∧ (g entry).isKept now = entry.isKept now ∧
      (entry.state = .landed ∨ (g entry).state = .landed → g entry = entry)) :
    Mindful (entries.map g) now := by
  intro entry' present state preparationId own
  obtain ⟨entry, before, rfl⟩ := List.mem_map.mp present
  have unchanged := (same entry before).2.2.2 (.inr state)
  rw [unchanged] at state own ⊢
  rcases mindful entry before state preparationId own with ⟨other, kept, landed, carries⟩ | none
  · obtain ⟨present', keeps⟩ := List.mem_filter.mp kept
    have unchanged' := (same other present').2.2.2 (.inl landed)
    refine .inl ⟨other, List.mem_filter.mpr ⟨?_, keeps⟩, landed, carries⟩
    exact List.mem_map.mpr ⟨other, present', unchanged'⟩
  · refine .inr fun other' kept carries => ?_
    obtain ⟨present', keeps⟩ := List.mem_filter.mp kept
    obtain ⟨other, before', rfl⟩ := List.mem_map.mp present'
    obtain ⟨session, preparation, place, -⟩ := same other before'
    exact none other (List.mem_filter.mpr ⟨before', place ▸ keeps⟩)
      ⟨session ▸ carries.1, preparation ▸ carries.2⟩

theorem Mindful.retreat (consistent : m.Consistent) {now : Nat} (mindful : Mindful m.entries now)
    (step : Retreat m m') : Mindful m'.entries now := by
  cases step with
  | quiet trouble launching starting => exact mindful
  | launchEnded now idle => exact mindful
  | @runAbandoned run now now' inside runs =>
    have live : run.isLive = true := by simp [LandingRun.isLive, runs]
    rw [(abandonRun_same (m := m) run now now').2]
    refine Mindful.of_map mindful fun entry present => ?_
    split
    · rename_i taken
      have state := (consistent.in_run inside live present taken.2).1
      refine ⟨rfl, rfl, ?_, fun landed => ?_⟩
      · simp [LandingEntry.isKept, LandingEntry.isActive, LandingEntry.release, state]
      · rcases landed with landed | landed
        · rw [state] at landed
          cases landed
        · cases landed
    · exact ⟨rfl, rfl, rfl, fun _ => rfl⟩

theorem Mindful.retreats (consistent : m.Consistent) {now : Nat} (mindful : Mindful m.entries now)
    (moved : ReflTransGen Retreat m m') : Mindful m'.entries now := by
  induction moved with
  | refl => exact mindful
  | tail before step ih => exact Mindful.retreat (consistent.retreats before) ih step

theorem abandonRun_history (run : LandingRun) (now now' : Nat) :
    (m.abandonRun run now now').landings = m.landings ∧
      (m.abandonRun run now now').reported = m.reported := by
  obtain ⟨h, ended, -⟩ := endLaunchOf_spec
    (m := m.updateRun run.id fun run => run.abandon now) run now'
  unfold abandonRun
  rw [ended]
  dsimp only
  split <;> exact ⟨rfl, rfl⟩

theorem finishRun_history (run : LandingRun) (report : LandingRunReport) (now : Nat → Nat)
    (saved : Bool) :
    (m.finishRun run report now saved).landings = m.landings ++ m.landedBy report ∧
      (m.finishRun run report now saved).reported = m.reported ++ [(run.id, report)] := by
  obtain ⟨h, ended, -⟩ := endLaunchOf_spec
    (m := m.updateRun run.id fun run => run.finish (now 0)) run (now 1)
  unfold finishRun
  rw [ended]
  dsimp only
  split <;> exact ⟨rfl, rfl⟩

theorem Honest.change (honest : m.Honest) (consistent : m.Consistent)
    (step : Change remembering m m') : m'.Honest := by
  cases step with
  | retreat step =>
    cases step with
    | quiet trouble launching starting => exact honest.of_entries rfl rfl rfl
    | launchEnded now idle => exact honest.of_entries rfl rfl rfl
    | @runAbandoned run now now' inside runs =>
      have live : run.isLive = true := by simp [LandingRun.isLive, runs]
      obtain ⟨landings, reported⟩ := abandonRun_history (m := m) run now now'
      refine honest.of_map (abandonRun_same run now now').2 landings reported fun entry present => ?_
      split
      · rename_i taken
        have state := (consistent.in_run inside live present taken.2).1
        refine ⟨rfl, rfl, fun landed => ?_⟩
        rcases landed with landed | landed
        · rw [state] at landed
          cases landed
        · cases landed
      · exact ⟨rfl, rfl, fun _ => rfl⟩
  | entryAdded fresh waits _ alone unforgotten => exact honest.entryAdded waits unforgotten
  | launchAdded fresh idle => exact honest.of_entries rfl rfl rfl
  | launchFailed now stored idle => exact honest.of_entries rfl rfl rfl
  | launchStopped now stored past done => exact honest.of_entries rfl rfl rfl
  | launchesEnded now past => exact honest.of_entries rfl rfl rfl
  | @runAdded run launch fresh starts unplanned stored own still idle owner alone waiting distinct =>
    refine honest.of_map rfl rfl rfl fun entry present => ?_
    split
    · rename_i taken
      refine ⟨rfl, rfl, fun landed => ?_⟩
      obtain ⟨entry', present', same, waits⟩ := waiting _ taken
      rw [consistent.entry_eq present' present same] at waits
      rcases landed with landed | landed
      · rw [waits] at landed
        cases landed
      · cases landed
    · exact ⟨rfl, rfl, fun _ => rfl⟩
  | runUpdated run' inside runs sameId sameKey sameLaunch sameEntries sameState plan =>
    exact honest.of_entries rfl rfl rfl
  | @runFinished run report now saved inside runs covers own once =>
    obtain ⟨landings, reported⟩ := finishRun_history (m := m) run report now saved
    exact honest.settled_by consistent inside (by simp [LandingRun.isLive, runs]) own once covers
      _ (finishRun_same run report now saved).1 landings reported
  | @runReconciled run pushed now saved inside open' =>
    exact honest.settled_by consistent inside (by simp [LandingRun.isLive, open'])
      (reconcileReport_own m run pushed) (reconcileReport_once (consistent.distinct run inside) pushed)
      (reconcileReport_covers run pushed) now rfl rfl rfl
  | @entryWithdrawn entry caller now saved inside waits =>
    refine honest.of_map rfl rfl rfl fun other present => ?_
    split
    · rename_i same
      refine ⟨rfl, rfl, fun landed => ?_⟩
      rw [consistent.entry_eq present inside same] at landed
      rcases landed with landed | landed
      · rw [waits] at landed
        cases landed
      · cases landed
    · exact ⟨rfl, rfl, fun _ => rfl⟩
  | pruned mindful => exact honest.pruned mindful
  | announced told =>
    unfold announce at told
    split at told
    · cases told
      exact honest.of_entries rfl rfl rfl
    · cases told

/-- What the queue attests is so. -/
structure Attests (m : LandingQueueManager) : Prop where
  unlanded : ∀ preparationId sessionId, m.attestsUnlanded preparationId sessionId = true →
    (∀ landing ∈ m.landings, landing.sessionId = sessionId →
      landing.preparationId ≠ some preparationId) ∧
    ∀ entry ∈ m.entries, entry.Carries sessionId preparationId →
      entry.state ≠ .pending ∧ entry.state ≠ .running
  landing : ∀ entryId sessionId preparationId source target,
    m.attestsLanding entryId sessionId preparationId source target = true →
      ∃ runId report, (runId, report) ∈ m.reported ∧ ∃ mapping,
        .landed entryId mapping ∈ report.outcomes ∧
          ∃ commit ∈ mapping, commit.source = source ∧ commit.target = target

theorem Honest.attests (honest : m.Honest) : m.Attests := by
  constructor
  · intro preparationId sessionId attested
    simp only [attestsUnlanded, Bool.and_eq_true, Bool.not_eq_true', List.isEmpty_eq_false_iff,
      List.all_eq_true, List.mem_filter, Bool.or_eq_true, decide_eq_true_eq, and_imp] at attested
    obtain ⟨some, past⟩ := attested
    have settled {entry : LandingEntry} (present : entry ∈ m.entries)
        (carries : entry.Carries sessionId preparationId) :
        entry.state = .bounced ∨ entry.state = .withdrawn :=
      past entry present carries.2 carries.1
    constructor
    · rintro landing listed rfl own
      rcases honest.remembered landing listed preparationId own with
        ⟨entry, present, state, carries⟩ | none
      · rcases settled present carries with other | other <;> rw [state] at other <;> cases other
      · obtain ⟨entry, inside⟩ := List.exists_mem_of_ne_nil _ some
        obtain ⟨present, carried⟩ := List.mem_filter.mp inside
        simp only [Bool.and_eq_true, decide_eq_true_eq] at carried
        exact none entry present ⟨carried.2, carried.1⟩
    · intro entry present carries
      rcases settled present carries with state | state <;> simp [state]
  · intro entryId sessionId preparationId source target attested
    obtain ⟨entry, search, holds⟩ := (Option.any_eq_true _ _).mp attested
    have named := List.find?_some search
    have same : entry.id = entryId := of_decide_eq_true named
    simp only [Bool.and_eq_true, decide_eq_true_eq, List.any_eq_true] at holds
    obtain ⟨⟨⟨-, state⟩, -⟩, commit, inside, sourceOf, targetOf⟩ := holds
    obtain ⟨runId, report, told, mapping, outcome, mapped⟩ :=
      honest.reported entry (List.mem_of_find?_eq_some search) state
    rw [mapped] at inside
    exact ⟨runId, report, told, mapping, same ▸ outcome, commit, inside, sourceOf, targetOf⟩

end LandingQueueManager

/-! ## Runs -/

/-- A report that is taken names only entries of its own run, and each of them once; no preparation
is submitted again after its landed record is gone, and pruning keeps a landed record as long as it
keeps another entry of the same preparation. -/
def Operation.Recalls (m : LandingQueueManager) : Operation → Prop
  | .submit _ input => Unforgotten m input.callerSessionId
      (input.preparationId.filter (!·.isEmpty))
  | .finish _ runId runner report => ∀ run ∈ m.runs, run.Accepts runId runner report →
      m.Own run report ∧ Once run report
  | .sweep _ pruned _ _ _ => Mindful m.entries pruned
  | _ => True

instance (m : LandingQueueManager) : (operation : Operation) → Decidable (operation.Recalls m)
  | .submit _ input => inferInstanceAs (Decidable (Unforgotten m input.callerSessionId
      (input.preparationId.filter (!·.isEmpty))))
  | .finish _ runId runner report => inferInstanceAs (Decidable (∀ run ∈ m.runs,
      run.Accepts runId runner report → m.Own run report ∧ Once run report))
  | .sweep _ pruned _ _ _ => inferInstanceAs (Decidable (Mindful m.entries pruned))
  | .startRunnerByHand .. | .claim .. | .heartbeat .. | .recordPlan .. | .reconcile ..
  | .withdraw .. | .runnerExited .. | .pump .. | .startFailed .. | .startSettled ..
  | .announce .. => .isTrue trivial

theorem Operation.Recalls.meets {m : LandingQueueManager} (consistent : m.Consistent)
    {operation : Operation} (recalls : operation.Recalls m) : operation.Meets remembering m := by
  cases operation with
  | finish w runId runner report => exact recalls
  | startFailed w launchId => exact fun _ _ _ _ => trivial
  | submit w input =>
    intro entry session preparation
    show Unforgotten m entry.sessionId entry.preparationId
    rw [session, preparation]
    exact recalls
  | sweep now pruned ofRun ofLaunch started =>
    exact fun m' moved => Mindful.retreats consistent recalls moved
  | _ => exact trivial

variable {toLowerCase : JsString → JsString} {m : LandingQueueManager}

theorem honest_of_recalling
    (reached : (landingRuns toLowerCase).Reaches (fun m operation => operation.Recalls m) m) :
    m.Consistent ∧ m.Honest := by
  induction reached with
  | start =>
    exact ⟨consistent_start, ⟨fun _ listed => (nomatch listed), fun _ listed => (nomatch listed)⟩⟩
  | step _ recalls step ih =>
    obtain ⟨consistent, honest⟩ := ih
    have moved := perform_changes consistent (recalls.meets consistent) step
    clear step recalls
    induction moved with
    | refl => exact ⟨consistent, honest⟩
    | tail _ change ih => exact ⟨ih.1.change change, ih.2.change ih.1 change⟩

theorem attestations_sound
    (reached : (landingRuns toLowerCase).Reaches (fun m operation => operation.Recalls m) m) :
    m.Attests :=
  (honest_of_recalling reached).2.attests

/-- A change lands, and the same preparation is submitted again and withdrawn. -/
def landedAndWithdrawn : List Operation :=
  [.submit (.at 1 "a") (change "s1" "p1" mainBranch), .pump (.at 2 "b") (js "takode:main"),
    .startSettled (js "ll-b"), .claim (.at 3 "c") (runnerOf "b" "main") mainBranch,
    .finish (.at 4 "") (js "lr-c") (runnerOf "b" "main")
      { outcomes := [.landed (js "le-a") [landedCommit]] },
    .submit (.at 864000000 "d") (change "s1" "p1" mainBranch),
    .withdraw (.at 864000001 "") (js "le-d") (js "s1") fun _ => false]

/-- A sweep at a time. -/
def sweepAt (time : Nat) : Operation :=
  .sweep time time (fun _ => .at time "") (fun _ => .at time "") fun _ => false

theorem landing_attested :
    ∃ m, (landingRuns id).Reaches (fun m operation => operation.Recalls m) m ∧
      m.attestsLanding (js "le-a") (js "s1") (js "p1") sourceSha targetSha = true ∧
      m.attestsUnlanded (js "p1") (js "s1") = false ∧ m.Attests := by
  obtain ⟨m, reached, landing, unlanded⟩ := (landingRuns id).exists_reaches_of_admitted
    (fun m operation => decide (operation.Recalls m))
    (fun m => m.attestsLanding (js "le-a") (js "s1") (js "p1") sourceSha targetSha = true ∧
      m.attestsUnlanded (js "p1") (js "s1") = false)
    (landedAndWithdrawn ++ [sweepAt 864000002])
    (fun _ _ _ _ recalls => of_decide_eq_true recalls) (by decide +kernel)
  exact ⟨m, reached, landing, unlanded, attestations_sound reached⟩

/-- Fourteen days after the landing its record is gone, and what is left of the preparation is the
entry that was withdrawn ten days after it. -/
theorem landing_forgotten :
    ∃ m, (landingRuns id).Reachable m ∧ m.attestsUnlanded (js "p1") (js "s1") = true ∧
      m.landings = [⟨js "le-a", js "s1", some (js "p1")⟩] := by
  obtain ⟨m, reached, attested, landings⟩ := (landingRuns id).exists_reaches_of_run
    (fun _ _ => true)
    (fun m => m.attestsUnlanded (js "p1") (js "s1") = true ∧
      m.landings = [⟨js "le-a", js "s1", some (js "p1")⟩])
    (landedAndWithdrawn ++ [sweepAt 1209600005]) (by decide +kernel)
  exact ⟨m, reached.reachable, attested, landings⟩

end Takode.LandingQueue
