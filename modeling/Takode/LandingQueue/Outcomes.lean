import Takode.LandingQueue.Tables

/-!
# Outcomes are final

As long as reports name only entries of their own run, and each of them once, an
entry that is settled stays as it is, and its owner is told once.
-/

namespace Takode.LandingQueue

open Program Relation LandingQueueManager

/-- The report has at most one outcome for each entry of the run. -/
def Once (run : LandingRun) (report : LandingRunReport) : Prop :=
  ∀ id ∈ run.entryIds, (report.outcomes.filter fun outcome => id = outcome.entryId).length ≤ 1

instance (run : LandingRun) (report : LandingRunReport) : Decidable (Once run report) :=
  inferInstanceAs (Decidable (∀ id ∈ run.entryIds,
    (report.outcomes.filter fun outcome => id = outcome.entryId).length ≤ 1))

theorem settleBy_once {run : LandingRun} {report : LandingRunReport} (once : Once run report)
    (covers : ∀ id ∈ run.entryIds, ∃ outcome ∈ report.outcomes, outcome.entryId = id)
    {entry : LandingEntry} (listed : entry.id ∈ run.entryIds) (now : Nat) :
    ∃ outcome ∈ report.outcomes, outcome.entryId = entry.id ∧
      (report.outcomes.filter fun outcome => entry.id = outcome.entryId) = [outcome] ∧
      entry.settleBy report now = entry.settle report.pushedTip now outcome := by
  obtain ⟨outcome, told, same⟩ := covers entry.id listed
  have one := once entry.id listed
  have inside : outcome ∈ report.outcomes.filter fun outcome => entry.id = outcome.entryId := by
    simp [told, same]
  rcases all : report.outcomes.filter fun outcome => entry.id = outcome.entryId with
    _ | ⟨first, _ | ⟨second, rest⟩⟩
  · simp [all] at inside
  · rw [all, List.mem_singleton] at inside
    subst inside
    refine ⟨outcome, told, same, all, ?_⟩
    rw [LandingEntry.settleBy, all]
    rfl
  · rw [all] at one
    simp at one

namespace LandingQueueManager

theorem reconcileReport_once {run : LandingRun} (distinct : run.entryIds.Nodup) (pushed : Bool) :
    Once run (run.reconcileReport pushed) := by
  intro id _
  have count := List.nodup_iff_count_le_one.mp (reconcileReport_ids run pushed ▸ distinct) id
  rw [List.count_eq_countP, List.countP_map, List.countP_eq_length_filter] at count
  refine Nat.le_trans (Nat.le_of_eq (congrArg List.length (List.filter_congr
    fun outcome _ => ?_))) count
  by_cases same : id = outcome.entryId
  · simp [same]
  · simp [same, Ne.symm same]

theorem reconcileReport_own (m : LandingQueueManager) (run : LandingRun) (pushed : Bool) :
    m.Own run (run.reconcileReport pushed) := by
  intro outcome told
  apply Or.inl
  rw [← reconcileReport_ids run pushed]
  exact List.mem_map_of_mem told

theorem reconcileReport_covers (run : LandingRun) (pushed : Bool) :
    ∀ id ∈ run.entryIds, ∃ outcome ∈ (run.reconcileReport pushed).outcomes,
      outcome.entryId = id := by
  intro id listed
  rw [← reconcileReport_ids run pushed] at listed
  exact List.mem_map.mp listed

variable {m m' m'' : LandingQueueManager} {terms : Terms}

/-! ## What stays -/

/-- Entries that had been drawn are still those of before, and the settled ones have not changed. -/
structure Keeps (m m' : LandingQueueManager) : Prop where
  drawn : ∀ id ∈ m.drawn, id ∈ m'.drawn
  origin : ∀ entry' ∈ m'.entries, entry'.id ∈ m.drawn → ∃ entry ∈ m.entries,
    entry'.id = entry.id ∧ entry'.sessionId = entry.sessionId ∧
      entry'.preparationId = entry.preparationId ∧ (entry.isActive = false → entry' = entry)

theorem Keeps.refl (m : LandingQueueManager) : Keeps m m where
  drawn := fun _ known => known
  origin := fun entry present _ => ⟨entry, present, rfl, rfl, rfl, fun _ => rfl⟩

theorem Keeps.trans (first : Keeps m m') (second : Keeps m' m'') : Keeps m m'' := by
  refine ⟨fun id known => second.drawn id (first.drawn id known), fun entry'' present known => ?_⟩
  obtain ⟨entry', present', id', session', preparation', settled'⟩ :=
    second.origin entry'' present (first.drawn _ known)
  obtain ⟨entry, before, id, session, preparation, settled⟩ :=
    first.origin entry' present' (id' ▸ known)
  refine ⟨entry, before, id'.trans id, session'.trans session, preparation'.trans preparation,
    fun inactive => ?_⟩
  have same := settled inactive
  subst same
  exact settled' inactive

theorem Keeps.of_map (drawn : ∀ id ∈ m.drawn, id ∈ m'.drawn) {g : LandingEntry → LandingEntry}
    (entries : m'.entries = m.entries.map g)
    (keeps : ∀ entry ∈ m.entries, (g entry).id = entry.id ∧
      (g entry).sessionId = entry.sessionId ∧ (g entry).preparationId = entry.preparationId ∧
      (entry.isActive = false → g entry = entry)) : Keeps m m' := by
  refine ⟨drawn, fun entry' present _ => ?_⟩
  rw [entries] at present
  obtain ⟨entry, before, rfl⟩ := List.mem_map.mp present
  exact ⟨entry, before, keeps entry before⟩

theorem Keeps.of_entries (drawn : m'.drawn = m.drawn) (entries : m'.entries = m.entries) :
    Keeps m m' :=
  .of_map (g := id) (fun _ known => drawn ▸ known) (by rw [entries, List.map_id])
    fun _ _ => ⟨rfl, rfl, rfl, fun _ => rfl⟩

theorem Consistent.active_of_listed (consistent : m.Consistent) {run : LandingRun}
    (inside : run ∈ m.runs) (live : run.isLive = true) {entry : LandingEntry}
    (present : entry ∈ m.entries) (listed : entry.id ∈ run.entryIds) : entry.isActive = true := by
  simp [LandingEntry.isActive, (consistent.in_run inside live present listed).1]

theorem Keeps.settled (consistent : m.Consistent) {run : LandingRun} (inside : run ∈ m.runs)
    (live : run.isLive = true) {report : LandingRunReport} (own : m.Own run report) (now : Nat)
    (drawn : m'.drawn = m.drawn) (entries : m'.entries = settleAll report now m.entries) :
    Keeps m m' := by
  refine .of_map (fun _ known => drawn ▸ known) (entries.trans (settleAll_eq_map _ _ _))
    fun entry present => ⟨entry.settleBy_id _ _, entry.settleBy_sessionId _ _,
      entry.settleBy_preparationId _ _, fun inactive => ?_⟩
  refine LandingEntry.settleBy_unnamed fun outcome told same => ?_
  rcases own outcome told with listed | unknown
  · rw [consistent.active_of_listed inside live present (same ▸ listed)] at inactive
    cases inactive
  · exact unknown entry present same.symm

theorem endLaunchOf_same (run : LandingRun) (now : Nat) :
    (m.endLaunchOf run now).entries = m.entries ∧ (m.endLaunchOf run now).drawn = m.drawn := by
  obtain ⟨h, ended, -⟩ := endLaunchOf_spec (m := m) run now
  rw [ended]
  exact ⟨rfl, rfl⟩

theorem finishRun_same (run : LandingRun) (report : LandingRunReport) (now : Nat → Nat)
    (saved : Bool) :
    (m.finishRun run report now saved).entries = settleAll report (now 3) m.entries ∧
      (m.finishRun run report now saved).drawn = m.drawn := by
  obtain ⟨entries, drawn⟩ := endLaunchOf_same
    (m := m.updateRun run.id fun run => run.finish (now 0)) run (now 1)
  unfold finishRun
  dsimp only
  split
  · exact ⟨congrArg (settleAll report (now 3)) entries, drawn⟩
  · exact ⟨congrArg (settleAll report (now 3)) entries, drawn⟩

theorem abandonRun_same (run : LandingRun) (now now' : Nat) :
    (m.abandonRun run now now').drawn = m.drawn ∧
      (m.abandonRun run now now').entries = m.entries.map fun entry =>
        if run.plan = none ∧ entry.id ∈ run.entryIds then entry.release else entry := by
  obtain ⟨same, drawn⟩ := endLaunchOf_same
    (m := m.updateRun run.id fun run => run.abandon now) run now'
  have entries : ((m.updateRun run.id fun run => run.abandon now).endLaunchOf run now').entries =
    m.entries := same
  unfold abandonRun
  cases run.plan with
  | none => exact ⟨drawn, by simp⟩
  | some plan => exact ⟨drawn, by simp [entries]⟩

theorem Keeps.of_change (consistent : m.Consistent) (step : Change terms m m') : Keeps m m' := by
  cases step with
  | retreat step =>
    cases step with
    | quiet trouble launching starting => exact .of_entries rfl rfl
    | launchEnded now idle => exact .of_entries rfl rfl
    | @runAbandoned run now now' inside runs =>
      obtain ⟨drawn, entries⟩ := abandonRun_same (m := m) run now now'
      have live : run.isLive = true := by simp [LandingRun.isLive, runs]
      refine .of_map (fun _ known => drawn ▸ known) entries fun entry present => ?_
      split
      · rename_i taken
        refine ⟨rfl, rfl, rfl, fun inactive => ?_⟩
        rw [consistent.active_of_listed inside live present taken.2] at inactive
        cases inactive
      · exact ⟨rfl, rfl, rfl, fun _ => rfl⟩
  | @entryAdded entry fresh waits _ alone _ =>
    refine ⟨fun _ known => List.mem_cons_of_mem _ known, fun entry' present known => ?_⟩
    rcases List.mem_append.mp present with before | added
    · exact ⟨entry', before, rfl, rfl, rfl, fun _ => rfl⟩
    · rw [List.mem_singleton.mp added] at known
      exact absurd known fresh
  | launchAdded fresh idle =>
    exact ⟨fun _ known => List.mem_cons_of_mem _ known, (Keeps.refl m).origin⟩
  | launchFailed now stored idle => exact .of_entries rfl rfl
  | launchStopped now stored past done => exact .of_entries rfl rfl
  | launchesEnded now past => exact .of_entries rfl rfl
  | @runAdded run launch fresh starts unplanned stored own still idle owner alone waiting distinct =>
    refine .of_map (fun _ known => List.mem_cons_of_mem _ known) rfl fun entry present => ?_
    split
    · rename_i taken
      refine ⟨rfl, rfl, rfl, fun inactive => ?_⟩
      obtain ⟨entry', present', same, waits⟩ := waiting _ taken
      rw [consistent.entry_eq present' present same] at waits
      simp [LandingEntry.isActive, waits] at inactive
    · exact ⟨rfl, rfl, rfl, fun _ => rfl⟩
  | runUpdated run' inside runs sameId sameKey sameLaunch sameEntries sameState plan =>
    exact .of_entries rfl rfl
  | @runFinished run report now saved inside runs covers own _ =>
    obtain ⟨entries, drawn⟩ := finishRun_same (m := m) run report now saved
    exact .settled consistent inside (by simp [LandingRun.isLive, runs]) own _ drawn entries
  | @runReconciled run pushed now saved inside open' =>
    exact .settled consistent inside (by simp [LandingRun.isLive, open'])
      (reconcileReport_own m run pushed) now rfl rfl
  | @entryWithdrawn entry caller now saved inside waits =>
    refine .of_map (fun _ known => known) rfl fun other present => ?_
    split
    · rename_i same
      refine ⟨rfl, rfl, rfl, fun inactive => ?_⟩
      rw [consistent.entry_eq present inside same] at inactive
      simp [LandingEntry.isActive, waits] at inactive
    · exact ⟨rfl, rfl, rfl, fun _ => rfl⟩
  | pruned _ =>
    refine ⟨fun _ known => known, fun entry' present _ => ?_⟩
    exact ⟨entry', (List.mem_filter.mp present).1, rfl, rfl, rfl, fun _ => rfl⟩
  | announced told =>
    unfold announce at told
    split at told
    · cases told
      exact .of_entries rfl rfl
    · cases told

theorem Keeps.of_changes (consistent : m.Consistent) (moved : ReflTransGen (Change terms) m m') :
    Keeps m m' := by
  induction moved with
  | refl => exact .refl m
  | tail before change ih => exact ih.trans (.of_change (consistent.changes before) change)

/-! ## Who has been told -/

/-- What is told of outcomes, or still to be told: each entry once, and only when it is settled. -/
structure Told (m : LandingQueueManager) : Prop where
  once : (m.announcing ++ m.resolvedCalls).Nodup
  drawn : ∀ id ∈ m.announcing ++ m.resolvedCalls, id ∈ m.drawn
  settled : ∀ id ∈ m.announcing ++ m.resolvedCalls, ∀ entry ∈ m.entries, entry.id = id →
    entry.isActive = false
  messages : m.notified.Sublist m.resolvedCalls

/-- Each report has one outcome for an entry of its run. -/
def terse : Terms where
  reports := Once

theorem Told.still (told : m.Told) (keeps : Keeps m m') {id : JsString}
    (listed : id ∈ m.announcing ++ m.resolvedCalls) {entry' : LandingEntry}
    (present : entry' ∈ m'.entries) (same : entry'.id = id) : entry'.isActive = false := by
  obtain ⟨entry, before, sameId, -, -, unchanged⟩ :=
    keeps.origin entry' present (same ▸ told.drawn id listed)
  have inactive := told.settled id listed entry before (sameId.symm.trans same)
  rw [unchanged inactive]
  exact inactive

/-- What has been told stays so while entries are kept. -/
theorem Told.keeps (told : m.Told) (keeps : Keeps m m') (announcing : m'.announcing = m.announcing)
    (calls : m'.resolvedCalls = m.resolvedCalls) (messages : m'.notified = m.notified) :
    m'.Told := by
  constructor
  · rw [announcing, calls]
    exact told.once
  · rw [announcing, calls]
    exact fun id listed => keeps.drawn id (told.drawn id listed)
  · rw [announcing, calls]
    exact fun id listed entry' present same => told.still keeps listed present same
  · rw [messages, calls]
    exact told.messages

theorem mem_resolvedBy {report : LandingRunReport} {id : JsString}
    (resolved : id ∈ m.resolvedBy report) : ∃ outcome ∈ report.outcomes,
      outcome.isRequeue = false ∧ outcome.entryId = id ∧ ∃ entry ∈ m.entries, entry.id = id := by
  obtain ⟨outcome, told, found⟩ := List.mem_filterMap.mp resolved
  split at found
  · cases found
  · rename_i settles
    obtain ⟨entry, listed, same⟩ := Option.map_eq_some_iff.mp found
    have named := List.find?_some listed
    have equal : entry.id = outcome.entryId := of_decide_eq_true named
    exact ⟨outcome, told, by simpa using settles, equal.symm.trans same, entry,
      List.mem_of_find?_eq_some listed, same⟩

theorem count_filterMap_le {α β : Type} [BEq β] [LawfulBEq β] [DecidableEq β] {f : α → Option β} {g : α → β}
    (maps : ∀ a b, f a = some b → b = g a) (list : List α) (b : β) :
    (list.filterMap f).count b ≤ (list.filter fun a => b = g a).length := by
  induction list with
  | nil => exact Nat.le_refl 0
  | cons a rest ih =>
    cases found : f a with
    | none =>
      rw [List.filterMap_cons_none found]
      exact Nat.le_trans ih ((List.sublist_cons_self a rest).filter _).length_le
    | some c =>
      have same := maps a c found
      rw [List.filterMap_cons_some found, List.count_cons, List.filter_cons]
      by_cases hit : c = b
      · have own : b = g a := hit ▸ same
        simpa [hit, own] using ih
      · have other : ¬ b = g a := fun own => hit (same.trans own.symm)
        simpa [hit, other] using ih

theorem resolvedBy_nodup {run : LandingRun} {report : LandingRunReport} (own : m.Own run report)
    (once : Once run report) : (m.resolvedBy report).Nodup := by
  -- an id that comes twice belongs to the run, whose entries are named once
  refine List.nodup_iff_count_le_one.mpr fun id => ?_
  by_cases resolved : id ∈ m.resolvedBy report
  · obtain ⟨outcome, told, -, same, entry, present, sameId⟩ := mem_resolvedBy resolved
    have listed : id ∈ run.entryIds := by
      rcases own outcome told with listed | unknown
      · exact same ▸ listed
      · exact absurd (sameId.trans same.symm) (unknown entry present)
    refine Nat.le_trans (count_filterMap_le (fun outcome i found => ?_) _ _) (once id listed)
    split at found
    · cases found
    · obtain ⟨other, search, same⟩ := Option.map_eq_some_iff.mp found
      have named := List.find?_some search
      exact same.symm.trans (of_decide_eq_true named)
  · rw [List.count_eq_zero_of_not_mem resolved]
    exact Nat.zero_le 1

/-- A report that is taken: what it settles is told once. -/
theorem Told.settled_by (told : m.Told) (consistent : m.Consistent) {run : LandingRun}
    (inside : run ∈ m.runs) (live : run.isLive = true) {report : LandingRunReport}
    (own : m.Own run report) (once : Once run report)
    (covers : ∀ id ∈ run.entryIds, ∃ outcome ∈ report.outcomes, outcome.entryId = id) (now' : Nat)
    (saved : Bool) (drawn : m'.drawn = m.drawn)
    (entries : m'.entries = settleAll report now' m.entries)
    (announcing : m'.announcing = m.announcing ++ if saved then m.resolvedBy report else [])
    (calls : m'.resolvedCalls = m.resolvedCalls) (messages : m'.notified = m.notified) :
    m'.Told := by
  have keeps := Keeps.settled consistent inside live own _ drawn entries
  cases saved with
  | false =>
    rw [if_neg (by simp), List.append_nil] at announcing
    exact told.keeps keeps announcing calls messages
  | true =>
    rw [if_pos rfl] at announcing
    -- what is told now belongs to the run, so it was active and had not been told
    have fresh {id : JsString} (resolved : id ∈ m.resolvedBy report) :
        id ∈ run.entryIds ∧ ∃ entry ∈ m.entries, entry.id = id := by
      obtain ⟨outcome, named, -, same, entry, present, sameId⟩ := mem_resolvedBy resolved
      refine ⟨?_, entry, present, sameId⟩
      rcases own outcome named with listed | unknown
      · exact same ▸ listed
      · exact absurd (sameId.trans same.symm) (unknown entry present)
    have mem {id : JsString} : id ∈ m'.announcing ++ m'.resolvedCalls ↔
        id ∈ m.announcing ++ m.resolvedCalls ∨ id ∈ m.resolvedBy report := by
      rw [announcing, calls]
      simp only [List.mem_append]
      tauto
    constructor
    · rw [announcing, calls, List.append_assoc]
      have swap : (m.announcing ++ (m.resolvedBy report ++ m.resolvedCalls)).Perm
          ((m.announcing ++ m.resolvedCalls) ++ m.resolvedBy report) := by
        rw [List.append_assoc]
        exact List.perm_append_comm.append_left _
      refine swap.nodup_iff.mpr (told.once.append (resolvedBy_nodup own once) ?_)
      intro id before now
      obtain ⟨listed, entry, present, same⟩ := fresh now
      have inactive := told.settled id before entry present same
      rw [consistent.active_of_listed inside live present (same ▸ listed)] at inactive
      cases inactive
    · intro id listed
      rw [drawn]
      rcases mem.mp listed with before | now
      · exact told.drawn id before
      · obtain ⟨-, entry, present, same⟩ := fresh now
        exact same ▸ consistent.drawnEntries entry present
    · intro id listed entry' present same
      rcases mem.mp listed with earlier | now
      · exact told.still keeps earlier present same
      · rw [entries, settleAll_eq_map] at present
        obtain ⟨entry, before, rfl⟩ := List.mem_map.mp present
        rw [LandingEntry.settleBy_id] at same
        subst same
        obtain ⟨outcome, named, settles, sameId, -⟩ := mem_resolvedBy now
        obtain ⟨only, -, -, all, settled⟩ := settleBy_once once covers (fresh now).1 now'
        rw [settled]
        have inOnly : outcome ∈ report.outcomes.filter fun outcome =>
            entry.id = outcome.entryId := by
          simp [named, sameId]
        rw [all, List.mem_singleton] at inOnly
        subst inOnly
        cases outcome with
        | requeue => cases settles
        | landed => rfl
        | bounced => rfl
    · rw [messages, calls]
      exact told.messages

theorem finishRun_tells (run : LandingRun) (report : LandingRunReport) (now : Nat → Nat)
    (saved : Bool) :
    (m.finishRun run report now saved).announcing =
        m.announcing ++ (if saved then m.resolvedBy report else []) ∧
      (m.finishRun run report now saved).resolvedCalls = m.resolvedCalls ∧
      (m.finishRun run report now saved).notified = m.notified := by
  obtain ⟨h, ended, -⟩ := endLaunchOf_spec
    (m := m.updateRun run.id fun run => run.finish (now 0)) run (now 1)
  unfold finishRun
  rw [ended]
  dsimp only
  split <;> exact ⟨rfl, rfl, rfl⟩

theorem abandonRun_tells (run : LandingRun) (now now' : Nat) :
    (m.abandonRun run now now').announcing = m.announcing ∧
      (m.abandonRun run now now').resolvedCalls = m.resolvedCalls ∧
      (m.abandonRun run now now').notified = m.notified := by
  obtain ⟨h, ended, -⟩ := endLaunchOf_spec
    (m := m.updateRun run.id fun run => run.abandon now) run now'
  unfold abandonRun
  rw [ended]
  dsimp only
  split <;> exact ⟨rfl, rfl, rfl⟩

theorem Told.withdrawn (told : m.Told) (consistent : m.Consistent) {entry : LandingEntry}
    (inside : entry ∈ m.entries) (waits : entry.state = .pending) {caller : JsString} {now : Nat}
    {saved : Bool} (keeps : Keeps m (m.withdrawEntry entry caller now saved)) :
    (m.withdrawEntry entry caller now saved).Told := by
  cases saved with
  | false => exact told.keeps keeps rfl (List.append_nil _) rfl
  | true =>
    have active : entry.isActive = true := by simp [LandingEntry.isActive, waits]
    have calls : (m.withdrawEntry entry caller now true).announcing ++
        (m.withdrawEntry entry caller now true).resolvedCalls =
          (m.announcing ++ m.resolvedCalls) ++ [entry.id] :=
      (List.append_assoc _ _ _).symm
    constructor
    · rw [calls]
      refine told.once.append (List.nodup_singleton _) fun id before now => ?_
      have inactive := told.settled id before entry inside (List.mem_singleton.mp now).symm
      rw [active] at inactive
      cases inactive
    · intro id listed
      rw [calls] at listed
      rcases List.mem_append.mp listed with before | now
      · exact told.drawn id before
      · exact List.mem_singleton.mp now ▸ consistent.drawnEntries entry inside
    · intro id listed entry' present same
      rw [calls] at listed
      rcases List.mem_append.mp listed with before | now
      · exact told.still keeps before present same
      · rw [List.mem_singleton.mp now] at same
        obtain ⟨old, before, rfl⟩ := List.mem_map.mp present
        by_cases own : old.id = entry.id
        · rw [if_pos own]
          rfl
        · rw [if_neg own] at same
          exact absurd same own
    · exact told.messages.trans (List.sublist_append_left _ _)

theorem Told.change (told : m.Told) (consistent : m.Consistent) (step : Change terse m m') :
    m'.Told := by
  have keeps := Keeps.of_change consistent step
  cases step with
  | retreat step =>
    cases step with
    | quiet trouble launching starting => exact told.keeps keeps rfl rfl rfl
    | launchEnded now idle => exact told.keeps keeps rfl rfl rfl
    | @runAbandoned run now now' inside runs =>
      obtain ⟨announcing, calls, messages⟩ := abandonRun_tells (m := m) run now now'
      exact told.keeps keeps announcing calls messages
  | entryAdded fresh waits _ alone _ => exact told.keeps keeps rfl rfl rfl
  | launchAdded fresh idle => exact told.keeps keeps rfl rfl rfl
  | launchFailed now stored idle => exact told.keeps keeps rfl rfl rfl
  | launchStopped now stored past done => exact told.keeps keeps rfl rfl rfl
  | launchesEnded now past => exact told.keeps keeps rfl rfl rfl
  | runAdded fresh starts unplanned stored own still idle owner alone waiting distinct =>
    exact told.keeps keeps rfl rfl rfl
  | runUpdated run' inside runs sameId sameKey sameLaunch sameEntries sameState plan =>
    exact told.keeps keeps rfl rfl rfl
  | @runFinished run report now saved inside runs covers own once =>
    obtain ⟨entries, drawn⟩ := finishRun_same (m := m) run report now saved
    obtain ⟨announcing, calls, messages⟩ := finishRun_tells (m := m) run report now saved
    exact told.settled_by consistent inside (by simp [LandingRun.isLive, runs]) own once covers _
      saved drawn entries announcing calls messages
  | @runReconciled run pushed now saved inside open' =>
    exact told.settled_by consistent inside (by simp [LandingRun.isLive, open'])
      (reconcileReport_own m run pushed) (reconcileReport_once (consistent.distinct run inside) pushed)
      (reconcileReport_covers run pushed) now saved rfl rfl rfl rfl rfl
  | entryWithdrawn caller now saved inside waits => exact told.withdrawn consistent inside waits keeps
  | pruned _ => exact told.keeps keeps rfl rfl rfl
  | @announced id handled _ announces =>
    unfold announce at announces
    split at announces
    · rename_i waiting
      cases announces
      have swap : (m.announcing.erase id ++ (m.resolvedCalls ++ [id])).Perm
          (m.announcing ++ m.resolvedCalls) := by
        rw [← List.append_assoc]
        refine (List.perm_append_singleton id _).trans ?_
        exact (List.perm_cons_erase waiting).symm.append_right _
      constructor
      · exact swap.nodup_iff.mpr told.once
      · exact fun other listed => told.drawn other (swap.mem_iff.mp listed)
      · exact fun other listed => told.settled other (swap.mem_iff.mp listed)
      · show List.Sublist (if handled then m.notified else m.notified ++ [id]) _
        split
        · exact told.messages.trans (List.sublist_append_left _ _)
        · exact told.messages.append (List.Sublist.refl _)
    · cases announces

end LandingQueueManager

/-! ## Runs -/

/-- A report that is taken names only entries of its own run, and each of them once. -/
def Operation.Tidy (m : LandingQueueManager) : Operation → Prop
  | .finish _ runId runner report => ∀ run ∈ m.runs, run.Accepts runId runner report →
      m.Own run report ∧ Once run report
  | _ => True

instance (m : LandingQueueManager) : (operation : Operation) → Decidable (operation.Tidy m)
  | .finish _ runId runner report => inferInstanceAs (Decidable (∀ run ∈ m.runs,
      run.Accepts runId runner report → m.Own run report ∧ Once run report))
  | .submit .. | .startRunnerByHand .. | .claim .. | .heartbeat .. | .recordPlan ..
  | .reconcile .. | .withdraw .. | .runnerExited .. | .sweep .. | .pump .. | .startFailed ..
  | .startSettled .. | .announce .. => .isTrue trivial

theorem Operation.Tidy.meets {m : LandingQueueManager} {operation : Operation}
    (tidy : operation.Tidy m) : operation.Meets terse m := by
  cases operation with
  | finish w runId runner report => exact tidy
  | startFailed w launchId => exact fun _ _ _ _ => trivial
  | submit w input => exact fun _ _ _ => trivial
  | sweep now pruned ofRun ofLaunch started => exact fun _ _ => trivial
  | _ => exact trivial

variable {toLowerCase : JsString → JsString} {m m' : LandingQueueManager}

theorem told_of_tidy
    (reached : (landingRuns toLowerCase).Reaches (fun m operation => operation.Tidy m) m) :
    m.Consistent ∧ m.Told := by
  induction reached with
  | start =>
    exact ⟨consistent_start, ⟨List.nodup_nil, fun _ listed => (nomatch listed),
      fun _ listed => (nomatch listed), List.Sublist.refl _⟩⟩
  | step _ tidy step ih =>
    obtain ⟨consistent, told⟩ := ih
    have moved := perform_changes consistent tidy.meets step
    clear step tidy
    induction moved with
    | refl => exact ⟨consistent, told⟩
    | tail _ change ih => exact ⟨ih.1.change change, ih.2.change ih.1 change⟩

theorem keeps_of_leads
    (reached : (landingRuns toLowerCase).Reaches (fun m operation => operation.Tidy m) m)
    (leads : (landingRuns toLowerCase).Leads (fun m operation => operation.Tidy m) m m') :
    Keeps m m' := by
  induction leads with
  | refl => exact .refl m
  | tail before step ih =>
    obtain ⟨operation, tidy, step⟩ := step
    obtain ⟨consistent, -⟩ := told_of_tidy (reached.leads before)
    exact ih.trans (.of_changes consistent (perform_changes consistent tidy.meets step))

/-- The entries after a report: those of the run by its one outcome for each, the others as they
were. -/
structure Settles (m m' : LandingQueueManager) (run : LandingRun) (report : LandingRunReport) :
    Prop where
  one : ∀ id ∈ run.entryIds,
    (report.outcomes.filter fun outcome => id = outcome.entryId).length = 1
  all : m'.entries.map LandingEntry.id = m.entries.map LandingEntry.id
  entries : ∀ entry' ∈ m'.entries, ∃ entry ∈ m.entries, entry'.id = entry.id ∧
    ((entry.id ∉ run.entryIds ∧ entry' = entry) ∨
      (entry.id ∈ run.entryIds ∧ ∃ outcome ∈ report.outcomes, outcome.entryId = entry.id ∧
        ∃ now, entry' = entry.settle report.pushedTip now outcome))

theorem Settles.of_report {run : LandingRun} {report : LandingRunReport} (own : m.Own run report)
    (once : Once run report)
    (covers : ∀ id ∈ run.entryIds, ∃ outcome ∈ report.outcomes, outcome.entryId = id) (now : Nat)
    (entries : m'.entries = settleAll report now m.entries) : Settles m m' run report := by
  rw [settleAll_eq_map] at entries
  constructor
  · intro id listed
    obtain ⟨outcome, told, same⟩ := covers id listed
    have some : 0 < (report.outcomes.filter fun outcome => id = outcome.entryId).length :=
      List.length_pos_of_mem (a := outcome) (by simp [told, same])
    exact Nat.le_antisymm (once id listed) some
  · rw [entries, List.map_map]
    exact List.map_congr_left fun entry _ => entry.settleBy_id now report
  · intro entry' present
    rw [entries] at present
    obtain ⟨entry, before, rfl⟩ := List.mem_map.mp present
    refine ⟨entry, before, entry.settleBy_id now report, ?_⟩
    by_cases listed : entry.id ∈ run.entryIds
    · obtain ⟨outcome, told, same, -, settled⟩ := settleBy_once once covers listed now
      exact .inr ⟨listed, outcome, told, same, now, settled⟩
    · refine .inl ⟨listed, LandingEntry.settleBy_unnamed fun outcome told same => ?_⟩
      rcases own outcome told with own | unknown
      · exact listed (same ▸ own)
      · exact unknown entry before same.symm

/-- What is promised of outcomes. -/
structure Final (toLowerCase : JsString → JsString) (m : LandingQueueManager) : Prop where
  /-- `finish` changes nothing, or it gives each entry of its run one outcome. -/
  finish : ∀ w runId runner report, (Operation.finish w runId runner report).Tidy m →
    ((finish w runId runner report).after m).entries = m.entries ∨ ∃ run ∈ m.runs, run.id = runId ∧
      Settles m ((finish w runId runner report).after m) run report
  reconcile : ∀ w runId runner pushed,
    ((reconcile toLowerCase w runId runner pushed).after m).entries = m.entries ∨
      ∃ run ∈ m.runs, run.id = runId ∧
        Settles m ((reconcile toLowerCase w runId runner pushed).after m) run
          (run.reconcileReport pushed)
  settled : ∀ m', (landingRuns toLowerCase).Leads (fun m operation => operation.Tidy m) m m' →
    ∀ entry ∈ m.entries, entry.state = .landed ∨ entry.state = .bounced ∨
      entry.state = .withdrawn → ∀ entry' ∈ m'.entries, entry'.id = entry.id → entry' = entry
  told : ∀ id, m.resolvedCalls.count id ≤ 1 ∧ m.notified.count id ≤ 1

theorem outcomes_final
    (reached : (landingRuns toLowerCase).Reaches (fun m operation => operation.Tidy m) m) :
    Final toLowerCase m := by
  obtain ⟨consistent, told⟩ := told_of_tidy reached
  constructor
  · intro w runId runner report tidy
    have done : Does (fun s t => s = m ∧ (t.entries = m.entries ∨ ∃ run ∈ m.runs,
        run.id = runId ∧ Settles m t run report)) (· = m)
          (Takode.LandingQueue.finish w runId runner report) fun _ _ => True :=
      finish_does fun run inside accepts => ⟨rfl, .inr ⟨run, inside, accepts.1, ?_⟩⟩
    · rcases done.one with same | settles
      · exact .inl (congrArg LandingQueueManager.entries same)
      · exact settles
    · obtain ⟨own, once⟩ := tidy run inside accepts
      exact .of_report own once accepts.2.2.2 _ (finishRun_same run report w.now (w.saved 0)).1
  · intro w runId runner pushed
    have done : Does (fun s t => s = m ∧ (t.entries = m.entries ∨ ∃ run ∈ m.runs,
        run.id = runId ∧ Settles m t run (run.reconcileReport pushed))) (· = m)
          (Takode.LandingQueue.reconcile toLowerCase w runId runner pushed) fun _ _ => True :=
      reconcile_does fun run inside named _ => ⟨rfl, .inr ⟨run, inside, named, ?_⟩⟩
    · rcases done.one with same | settles
      · exact .inl (congrArg LandingQueueManager.entries same)
      · exact settles
    · exact .of_report (reconcileReport_own m run pushed)
        (reconcileReport_once (consistent.distinct run inside) pushed)
        (reconcileReport_covers run pushed) (w.now 0) rfl
  · intro m' leads entry present settled entry' present' same
    obtain ⟨old, before, sameId, -, -, unchanged⟩ := (keeps_of_leads reached leads).origin entry'
      present' (same ▸ consistent.drawnEntries entry present)
    have equal : old = entry := consistent.entry_eq before present (sameId.symm.trans same)
    subst equal
    refine unchanged ?_
    rcases settled with state | state | state <;> simp [LandingEntry.isActive, state]
  · intro id
    have calls : m.resolvedCalls.count id ≤ 1 :=
      List.nodup_iff_count_le_one.mp (told.once.sublist (List.sublist_append_right _ _)) id
    exact ⟨calls, Nat.le_trans (told.messages.count_le id) calls⟩

/-- The change for `main` has landed, and another one waits for `main` and is in a run. -/
def landedThenRunning : List Operation :=
  twoRuns ++ [.finish (.at 7 "") (js "lr-e") (runnerOf "c" "main")
      { outcomes := [.landed (js "le-a") [landedCommit]] },
    .announce (js "le-a") false, .submit (.at 8 "g") (change "s3" "p3" mainBranch),
    .pump (.at 9 "h") (js "takode:main"), .startSettled (js "ll-h"),
    .claim (.at 10 "i") (runnerOf "h" "main") mainBranch]

theorem landed_is_final :
    ∃ m, (landingRuns id).Reaches (fun m operation => operation.Tidy m) m ∧
      m.entries.map LandingEntry.state = [.landed, .running, .landed] ∧
      m.notified = [js "le-a", js "le-g"] ∧ Final id m := by
  obtain ⟨m, reached, states, notified⟩ := (landingRuns id).exists_reaches_of_admitted
    (fun m operation => decide (operation.Tidy m))
    (fun m => m.entries.map LandingEntry.state = [.landed, .running, .landed] ∧
      m.notified = [js "le-a", js "le-g"])
    (landedThenRunning ++ [.finish (.at 11 "") (js "lr-i") (runnerOf "h" "main")
      { outcomes := [.landed (js "le-g") [landedCommit]] }, .announce (js "le-g") false])
    (fun _ _ _ _ tidy => of_decide_eq_true tidy) (by decide +kernel)
  exact ⟨m, reached, states, notified, outcomes_final reached⟩

/-- The report of that run as it should be, with an outcome for the landed entry. -/
def meddling : LandingRunReport where
  outcomes := [.landed (js "le-g") [landedCommit], .requeue (js "le-a") (js "not pushed")]

def stuttering : LandingRunReport where
  outcomes := [.landed (js "le-g") [landedCommit], .bounced (js "le-g") (js "tests failed") none]

/-- A report that names an entry of another run puts a landed change back in the queue, and one that
names an entry twice has its owner told twice. -/
theorem reports_meddle :
    (meddling.isParsed = true ∧ ∃ m m', (landingRuns id).Reachable m ∧
      (landingRuns id).step m (.finish (.at 11 "") (js "lr-i") (runnerOf "h" "main") meddling) =
        some m' ∧
      (m.entries.find? fun entry => entry.id = js "le-a").map LandingEntry.state = some .landed ∧
      (m'.entries.find? fun entry => entry.id = js "le-a").map LandingEntry.state =
        some .pending) ∧
    stuttering.isParsed = true ∧ ∃ m, (landingRuns id).Reachable m ∧
      m.resolvedCalls.count (js "le-g") = 2 ∧ m.notified.count (js "le-g") = 2 := by
  refine ⟨⟨by decide +kernel, ?_⟩, by decide +kernel, ?_⟩
  · obtain ⟨m, reached, before, after⟩ := (landingRuns id).exists_reaches_of_run (fun _ _ => true)
      (fun m => (m.entries.find? fun entry => entry.id = js "le-a").map LandingEntry.state =
          some .landed ∧
        (((finish (.at 11 "") (js "lr-i") (runnerOf "h" "main") meddling).after m).entries.find?
          fun entry => entry.id = js "le-a").map LandingEntry.state = some .pending)
      landedThenRunning (by decide +kernel)
    exact ⟨m, _, reached.reachable, rfl, before, after⟩
  · obtain ⟨m, reached, told⟩ := (landingRuns id).exists_reaches_of_run (fun _ _ => true)
      (fun m => m.resolvedCalls.count (js "le-g") = 2 ∧ m.notified.count (js "le-g") = 2)
      (landedThenRunning ++ [.finish (.at 11 "") (js "lr-i") (runnerOf "h" "main") stuttering,
        .announce (js "le-g") false, .announce (js "le-g") false]) (by decide +kernel)
    exact ⟨m, reached.reachable, told⟩

end Takode.LandingQueue
