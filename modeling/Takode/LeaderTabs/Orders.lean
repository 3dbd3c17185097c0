import Takode.LeaderTabs.Keeping

/-!
# Explicit orders

Runs of updates and server events, with the times of the reorders and opens. The time of an
explicit order that the state records fences the order against older events; a close whose
time is earlier sets it back, and an open of a tab that is in its place does not set it.
-/

namespace Takode.LeaderTabs

open JsString

inductive Event
  | update (update : JsonValue) (now : ℚ)
  | candidate (threadKey : JsString) (eventAt : ℚ) (options : ServerCandidateOptions)

/-- The tabs of a leader, and the times of the reorders and opens so far. -/
structure Rail where
  state : Option LeaderOpenThreadTabsState := none
  explicit : List ℚ := []

section

variable (lc : LowerCase) (localeCompare : JsString → JsString → Ordering)

/-- The operation is a reorder or an open. -/
def Operation.orders (existing : Option LeaderOpenThreadTabsState) : Operation → Bool
  | .reorder _ => existing.isSome
  | .opens threadKey _ => shouldPersistLeaderThreadTab lc (normalizeSelectedFeedThreadKey lc threadKey)
  | _ => false

def rails : Machine Rail Event where
  start := {}
  step rail event :=
    match event with
    | .update update now =>
      if 0 ≤ now then
        some { state := applyLeaderThreadTabUpdate lc rail.state update now
               explicit := if (operation update).any (·.orders lc rail.state) then rail.explicit ++ [now]
                 else rail.explicit }
      else none
    | .candidate threadKey eventAt options =>
      if 0 ≤ eventAt then
        some { rail with
          state := applyLeaderServerCandidateThreadTabEvent lc localeCompare rail.state threadKey eventAt options }
      else none

/-- No explicit action is earlier than a reorder or open before it, tabs are migrated before any of these,
and an open that finds its tab in place is not later than the explicit order that is recorded. -/
def Operation.InOrder (rail : Rail) (now : ℚ) : Operation → Prop
  | .migrate _ _ => rail.explicit = []
  | .reorder _ => ∀ t ∈ rail.explicit, t ≤ now
  | .closes threadKey closedAt =>
    shouldPersistLeaderThreadTab lc (normalizeSelectedFeedThreadKey lc threadKey) = true →
      ∀ t ∈ rail.explicit, t ≤ closedAt.getD now
  | .opens threadKey last =>
    shouldPersistLeaderThreadTab lc (normalizeSelectedFeedThreadKey lc threadKey) = true →
      let state := rail.state.getD (createLeaderOpenThreadTabsState now)
      if openTab lc state (normalizeSelectedFeedThreadKey lc threadKey) last now = state then
        ∃ t ∈ state.explicitOrderUpdatedAt, now ≤ t
      else ∀ t ∈ rail.explicit, t ≤ now

def Ordered (rail : Rail) : Event → Prop
  | .candidate _ _ _ => True
  | .update update now => ∀ asked ∈ operation update, asked.InOrder lc rail now

instance (rail : Rail) (now : ℚ) : (asked : Operation) → Decidable (asked.InOrder lc rail now)
  | .migrate _ _ => inferInstanceAs (Decidable (rail.explicit = []))
  | .reorder _ => inferInstanceAs (Decidable (∀ t ∈ rail.explicit, t ≤ now))
  | .closes threadKey closedAt => inferInstanceAs (Decidable
      (shouldPersistLeaderThreadTab lc (normalizeSelectedFeedThreadKey lc threadKey) = true →
        ∀ t ∈ rail.explicit, t ≤ closedAt.getD now))
  | .opens threadKey last => inferInstanceAs (Decidable
      (shouldPersistLeaderThreadTab lc (normalizeSelectedFeedThreadKey lc threadKey) = true →
        if openTab lc (rail.state.getD (createLeaderOpenThreadTabsState now))
            (normalizeSelectedFeedThreadKey lc threadKey) last now =
            rail.state.getD (createLeaderOpenThreadTabsState now) then
          ∃ t ∈ (rail.state.getD (createLeaderOpenThreadTabsState now)).explicitOrderUpdatedAt, now ≤ t
        else ∀ t ∈ rail.explicit, t ≤ now))

instance (rail : Rail) : (event : Event) → Decidable (Ordered lc rail event)
  | .candidate _ _ _ => inferInstanceAs (Decidable True)
  | .update update now => inferInstanceAs (Decidable (∀ asked ∈ operation update, asked.InOrder lc rail now))

end

section

variable {lc : LowerCase} {localeCompare : JsString → JsString → Ordering} {rail rail' : Rail}

/-- The recorded time is not earlier than any of the reorders and opens. -/
def Rail.Fenced (rail : Rail) : Prop :=
  ∀ t ∈ rail.explicit, ∃ state ∈ rail.state, ∃ recorded ∈ state.explicitOrderUpdatedAt, t ≤ recorded

theorem kept_of_reachable (reached : (rails lc localeCompare).Reachable rail) : ∀ state ∈ rail.state, Kept lc state := by
  induction reached with
  | start => exact nofun
  | @step rail event rail' _ _ taken kept =>
    cases event with
    | update update now =>
      simp only [rails] at taken
      split at taken
      · cases taken
        exact kept_update kept update ‹_›
      · cases taken
    | candidate threadKey eventAt options =>
      simp only [rails] at taken
      split at taken
      · cases taken
        exact kept_candidate kept ‹_› options
      · cases taken

theorem candidate_explicit {existing : Option LeaderOpenThreadTabsState} {threadKey : JsString} {eventAt recorded : ℚ}
    {options : ServerCandidateOptions} (before : ∃ state ∈ existing, recorded ∈ state.explicitOrderUpdatedAt) :
    ∃ state ∈ applyLeaderServerCandidateThreadTabEvent lc localeCompare existing threadKey eventAt options,
      recorded ∈ state.explicitOrderUpdatedAt := by
  obtain same | ⟨-, -, -, -, promoted⟩ := candidate_cases existing threadKey eventAt options
  · rw [same]
    exact before
  · rw [promoted]
    obtain ⟨state, rfl, present⟩ := before
    exact ⟨_, rfl, present⟩

theorem openTab_explicit (state : LeaderOpenThreadTabsState) (key : JsString) (last : Bool) (now : ℚ) :
    openTab lc state key last now = state ∨ (openTab lc state key last now).explicitOrderUpdatedAt = some now := by
  rw [openTab]
  split
  · exact .inl rfl
  · exact .inr rfl

theorem closeTab_explicit (state : LeaderOpenThreadTabsState) (key : JsString) (closedAt : ℚ) :
    (closeTab lc state key closedAt).explicitOrderUpdatedAt = some closedAt := by
  rw [closeTab]
  split
  · next same =>
    simp only [Bool.and_eq_true, decide_eq_true_eq] at same
    exact same.2
  · rfl

theorem reorderTabs_explicit (state : LeaderOpenThreadTabsState) (keys : List JsonValue) (now : ℚ) :
    (reorderTabs lc state keys now).explicitOrderUpdatedAt = some now := by
  rw [reorderTabs]
  split
  · next same =>
    simp only [Bool.and_eq_true, decide_eq_true_eq] at same
    exact same.2
  · rfl

theorem fenced_of_recorded {state : LeaderOpenThreadTabsState} {explicit : List ℚ} {recorded : ℚ}
    (present : state.explicitOrderUpdatedAt = some recorded) (later : ∀ t ∈ explicit, t ≤ recorded) :
    Rail.Fenced { state := some state, explicit } :=
  fun t inside => ⟨state, rfl, recorded, present, later t inside⟩

theorem later_append {explicit : List ℚ} {now recorded : ℚ} (later : ∀ t ∈ explicit, t ≤ recorded)
    (last : now ≤ recorded) : ∀ t ∈ explicit ++ [now], t ≤ recorded := by
  intro t inside
  obtain before | own := List.mem_append.mp inside
  · exact later t before
  · rw [List.mem_singleton.mp own]
    exact last

theorem Rail.Fenced.getD (fenced : rail.Fenced) (created : LeaderOpenThreadTabsState) :
    Rail.Fenced { rail with state := some (rail.state.getD created) } := by
  intro t inside
  obtain ⟨state, present, recorded⟩ := fenced t inside
  exact ⟨state, by rw [Option.mem_def.mp present]; rfl, recorded⟩

theorem fenced_operation {asked : Operation} {now : ℚ} (fenced : rail.Fenced) (inOrder : asked.InOrder lc rail now) :
    Rail.Fenced { state := asked.apply lc rail.state now
                  explicit := if asked.orders lc rail.state then rail.explicit ++ [now] else rail.explicit } := by
  cases asked with
  | migrate keys migratedAt =>
    have none : rail.explicit = [] := inOrder
    intro t inside
    simp [Operation.orders, none] at inside
  | reorder keys =>
    cases existing : rail.state with
    | none =>
      intro t inside
      obtain ⟨state, present, -⟩ := fenced t (by simpa [Operation.orders] using inside)
      rw [existing] at present
      cases present
    | some state => exact fenced_of_recorded (reorderTabs_explicit state keys now) (later_append inOrder le_rfl)
  | closes threadKey closedAt =>
    rw [Operation.apply]
    split
    · next persists => exact fenced_of_recorded (closeTab_explicit _ _ _) (inOrder persists)
    · exact fenced.getD _
  | opens threadKey last =>
    rw [Operation.apply, Operation.orders]
    cases persists : shouldPersistLeaderThreadTab lc (normalizeSelectedFeedThreadKey lc threadKey) with
    | false => exact fenced.getD _
    | true =>
      have condition := inOrder persists
      dsimp only at condition
      split at condition
      · next inPlace =>
        obtain ⟨recorded, present, later⟩ := condition
        simp only [if_true, inPlace]
        refine fenced_of_recorded present (later_append (fun t inside => ?_) later)
        obtain ⟨state, same, recorded', present', before⟩ :=
          fenced.getD (createLeaderOpenThreadTabsState now) t inside
        rw [← Option.some.inj same, Option.mem_def.mp present] at present'
        cases present'
        exact before
      · next moved =>
        obtain inPlace | recorded := openTab_explicit (rail.state.getD (createLeaderOpenThreadTabsState now))
          (normalizeSelectedFeedThreadKey lc threadKey) last now
        · exact absurd inPlace moved
        · simp only [if_true]
          exact fenced_of_recorded recorded (later_append condition le_rfl)

theorem fenced_of_ordered (reached : (rails lc localeCompare).Reaches (Ordered lc) rail) : rail.Fenced := by
  induction reached with
  | start => exact nofun
  | @step rail event rail' _ ordered taken fenced =>
    cases event with
    | update update now =>
      simp only [rails] at taken
      split at taken
      · cases taken
        rw [applyLeaderThreadTabUpdate]
        cases asked : operation update with
        | none => exact fenced
        | some asked' =>
          rw [Option.any_some]
          exact fenced_operation fenced (ordered asked' asked)
      · cases taken
    | candidate threadKey eventAt options =>
      simp only [rails] at taken
      split at taken
      · cases taken
        intro t inside
        obtain ⟨state, present, recorded, own, later⟩ := fenced t inside
        obtain ⟨state', present', own'⟩ := candidate_explicit ⟨state, present, own⟩
        exact ⟨state', present', recorded, own', later⟩
      · cases taken

/-- In every run, in order or not: the state is well formed and what is read of its JSON, no event opens
a tab that was closed later, and an event that comes twice does what it does once. -/
theorem tabs_well_formed [Std.TransCmp localeCompare] (reached : (rails lc localeCompare).Reachable rail) :
    (∀ state ∈ rail.state, Kept lc state ∧ ∃ state',
      normalizeLeaderOpenThreadTabsState lc localeCompare state.toJson = some state' ∧ Same state' state) ∧
    ∀ threadKey eventAt options, 0 ≤ eventAt →
      let after := fun state => applyLeaderServerCandidateThreadTabEvent lc localeCompare state threadKey eventAt options
      (∀ state ∈ rail.state, ∀ tombstone ∈ state.closedThreadTombstones, eventAt ≤ tombstone.closedAt →
        tombstone.threadKey = normalizeSelectedFeedThreadKey lc threadKey → after rail.state = rail.state) ∧
      Option.Rel Same (after (after rail.state)) (after rail.state) := by
  have kept := kept_of_reachable reached
  exact ⟨fun state present => ⟨kept state present, normalize_toJson (kept state present)⟩,
    fun threadKey eventAt options time => ⟨fun state present tombstone listed before same =>
      candidate_of_closed kept time ⟨state, present, tombstone, listed, same, before⟩, candidate_twice kept time⟩⟩

/-- The tabs are bounded, normalized, unique and apart from their tombstones, and are what is read of their
JSON. A thread whose tombstone is retained is opened by later events only, an event that is not later
than a reorder or an open so far may only append, and the same event twice does what it does once. -/
theorem tabs_ordered [Std.TransCmp localeCompare] (reached : (rails lc localeCompare).Reaches (Ordered lc) rail) :
    (∀ state ∈ rail.state,
      (state.orderedOpenThreadKeys.length ≤ MAX_LEADER_OPEN_THREAD_TABS ∧ state.orderedOpenThreadKeys.Nodup ∧
        ∀ key ∈ state.orderedOpenThreadKeys, normalizeSelectedFeedThreadKey lc key = key ∧
          key ≠ MAIN_THREAD_KEY ∧ key ≠ ALL_THREADS_KEY) ∧
      (∀ tombstone ∈ state.closedThreadTombstones, tombstone.threadKey ∉ state.orderedOpenThreadKeys) ∧
      (state.closedThreadTombstones.length ≤ MAX_LEADER_CLOSED_THREAD_TOMBSTONES ∧
        (state.closedThreadTombstones.map (·.threadKey)).Nodup ∧
        state.closedThreadTombstones.Pairwise fun left right => right.closedAt ≤ left.closedAt) ∧
      ∃ state', normalizeLeaderOpenThreadTabsState lc localeCompare state.toJson = some state' ∧
        Same state' state) ∧
    ∀ threadKey eventAt options, 0 ≤ eventAt →
      let after := fun state => applyLeaderServerCandidateThreadTabEvent lc localeCompare state threadKey eventAt options
      (∀ state ∈ rail.state, ∀ tombstone ∈ state.closedThreadTombstones, eventAt ≤ tombstone.closedAt →
        tombstone.threadKey = normalizeSelectedFeedThreadKey lc threadKey →
        ∀ state' ∈ after rail.state, tombstone.threadKey ∉ state'.orderedOpenThreadKeys) ∧
      (∀ t ∈ rail.explicit, eventAt ≤ t → ∃ state ∈ rail.state, ∃ state' ∈ after rail.state,
        state'.orderedOpenThreadKeys = state.orderedOpenThreadKeys ∨ state'.orderedOpenThreadKeys =
          state.orderedOpenThreadKeys ++ [normalizeSelectedFeedThreadKey lc threadKey]) ∧
      Option.Rel Same (after (after rail.state)) (after rail.state) := by
  have kept := kept_of_reachable reached.reachable
  refine ⟨fun state present => ?_, fun threadKey eventAt options time => ⟨?_, ?_, candidate_twice kept time⟩⟩
  · have own := kept state present
    exact ⟨⟨own.tabs.few, own.tabs.distinct, fun key inside =>
      ⟨(own.tabs.tabs key inside).normalized, (own.tabs.tabs key inside).main, (own.tabs.tabs key inside).all⟩⟩,
      own.apart, ⟨own.few, own.tombstones.distinct, own.sorted⟩, normalize_toJson own⟩
  · intro state present tombstone listed before same state' after
    have unchanged : state' ∈ rail.state :=
      candidate_of_closed kept time ⟨state, present, tombstone, listed, same, before⟩ ▸ after
    cases present.symm.trans unchanged
    exact (kept state present).apart tombstone listed
  · intro t inside before
    obtain ⟨state, present, recorded, own, later⟩ := fenced_of_ordered reached t inside
    exact candidate_of_fenced kept ⟨state, present, recorded, own, before.trans later⟩

end

/-- An update as it arrives. -/
def updateOf (type threadKey : String) (closedAt : Option ℚ) : JsonValue :=
  .fields [(js "type", some (.string (js type))), (js "threadKey", some (.string (js threadKey))),
    (js "closedAt", closedAt.map number)]

/-- Two tabs are opened, then reordered, and a third one is closed. -/
def orderedTabs (closedAt : ℚ) : List Event :=
  [.update (updateOf "open" "q-1" none) 10, .update (updateOf "open" "q-2" none) 11,
    .update (.fields [(js "type", some (.string (js "reorder"))),
      (js "orderedOpenThreadKeys", some (.array [.string (js "q-1"), .string (js "q-2")]))]) 100,
    .update (updateOf "close" "q-3" (some closedAt)) 101]

theorem orderedTabs_kept : ∃ rail, (rails .ascii compare).Reaches (Ordered .ascii) rail ∧ 100 ∈ rail.explicit ∧
    ∃ state ∈ rail.state, ∃ state' ∈ applyLeaderServerCandidateThreadTabEvent .ascii compare rail.state (js "q-2") 80
      { repositionExisting := true },
      state'.orderedOpenThreadKeys = state.orderedOpenThreadKeys ∨ state'.orderedOpenThreadKeys =
        state.orderedOpenThreadKeys ++ [normalizeSelectedFeedThreadKey .ascii (js "q-2")] := by
  obtain ⟨rail, reached, explicit⟩ := (rails .ascii compare).exists_reaches_of_run
    (fun rail event => decide (Ordered .ascii rail event)) (fun rail => 100 ∈ rail.explicit) (orderedTabs 100)
    (by decide +kernel)
  have ordered := reached.mono fun _ inOrder => of_decide_eq_true inOrder
  obtain ⟨-, events⟩ := tabs_ordered ordered
  exact ⟨rail, ordered, explicit, (events (js "q-2") 80 { repositionExisting := true } (by norm_num)).2.1 100 explicit
    (by norm_num)⟩

theorem unordered_tabs_well_formed : ∃ rail, (rails .ascii compare).Reachable rail ∧
    ∃ state ∈ rail.state, state.explicitOrderUpdatedAt = some 50 ∧ Kept .ascii state := by
  obtain ⟨rail, reached, state, present, earlier⟩ := (rails .ascii compare).exists_reaches_of_run (fun _ _ => true)
    (fun rail => ∃ state ∈ rail.state, state.explicitOrderUpdatedAt = some 50) (orderedTabs 50) (by decide +kernel)
  exact ⟨rail, reached.reachable, state, present, earlier,
    ((tabs_well_formed reached.reachable).1 state present).1⟩

/-- After a close that the browser's clock puts before the reorder, an event that is older than the
reorder undoes it. -/
theorem reorder_undone : ∃ rail, (rails .ascii compare).Reachable rail ∧ 100 ∈ rail.explicit ∧
    ∃ state ∈ rail.state, ∃ state' ∈ applyLeaderServerCandidateThreadTabEvent .ascii compare rail.state (js "q-2") 80
      { repositionExisting := true },
      state.orderedOpenThreadKeys = [js "q-1", js "q-2"] ∧ state'.orderedOpenThreadKeys = [js "q-2", js "q-1"] := by
  obtain ⟨rail, reached, undone⟩ := (rails .ascii compare).exists_reaches_of_run (fun _ _ => true)
    (fun rail => 100 ∈ rail.explicit ∧ ∃ state ∈ rail.state, ∃ state' ∈
      applyLeaderServerCandidateThreadTabEvent .ascii compare rail.state (js "q-2") 80 { repositionExisting := true },
      state.orderedOpenThreadKeys = [js "q-1", js "q-2"] ∧ state'.orderedOpenThreadKeys = [js "q-2", js "q-1"])
    (orderedTabs 50) (by decide +kernel)
  exact ⟨rail, reached.reachable, undone⟩

end Takode.LeaderTabs
