import Takode.LeaderTabs.Promotions

/-!
# What holds of the tabs

An explicit order is fenced by the time of the latest one that the state has recorded, and so for
as long as later explicit actions do not set that time back.
-/

namespace Takode.LeaderTabs

open JsString

section

variable {lc : LowerCase} {localeCompare : JsString → JsString → Ordering}

/-! ## Tombstones -/

/-- Tombstones as they are normalized. -/
structure Tombstones (lc : LowerCase) (tombstones : List LeaderClosedThreadTombstone) : Prop where
  tabs : ∀ tombstone ∈ tombstones, Tab lc tombstone.threadKey ∧ 0 ≤ tombstone.closedAt
  distinct : (tombstones.map (·.threadKey)).Nodup

variable {tombstones : List LeaderClosedThreadTombstone} {tombstone : LeaderClosedThreadTombstone}

theorem Tombstones.sublist {part : List LeaderClosedThreadTombstone} (all : Tombstones lc tombstones)
    (sublist : part.Sublist tombstones) : Tombstones lc part where
  tabs tombstone inside := all.tabs tombstone (sublist.subset inside)
  distinct := (sublist.map _).nodup all.distinct

theorem tombstone_members_nodup (tombstone : LeaderClosedThreadTombstone) :
    (tombstone.members.map Prod.fst).Nodup := by
  show [js "threadKey", js "closedAt"].Nodup
  decide

theorem get_tombstone {name : JsString} {value : Option JsonValue} (listed : (name, value) ∈ tombstone.members) :
    tombstone.toJson.get name = value :=
  JsonValue.get_fields (tombstone_members_nodup tombstone) listed

theorem validTimestamp_number {value : ℚ} (positive : 0 ≤ value) : validTimestamp (some (number value)) = some value := by
  rw [number, validTimestamp, max_eq_right positive]

theorem collectTombstones_toJson {result : List LeaderClosedThreadTombstone}
    (all : Tombstones lc (result ++ tombstones)) :
    collectTombstones lc (tombstones.map (·.toJson)) result = result ++ tombstones := by
  induction tombstones generalizing result with
  | nil => simp [collectTombstones]
  | cons tombstone rest ih =>
    obtain ⟨tab, positive⟩ := all.tabs tombstone (by simp)
    have new : tombstone.threadKey ∉ result.map (·.threadKey) := by
      have distinct := all.distinct
      rw [List.map_append, List.nodup_append, List.map_cons] at distinct
      exact fun before => distinct.2.2 _ before _ List.mem_cons_self rfl
    have threadKey := get_tombstone (show _ ∈ tombstone.members from List.mem_cons_self)
    have closedAt := get_tombstone (show _ ∈ tombstone.members from
      List.mem_cons_of_mem _ List.mem_cons_self)
    rw [List.map_cons, collectTombstones]
    simp only [threadKey, closedAt, validTimestamp_number positive, JsonValue.asString, Option.bind_some,
      Option.map_some, Option.getD_some, tab.normalized, tab.persists, new, Bool.not_true, decide_false, Bool.or_self,
      Bool.false_eq_true, if_false]
    rw [ih (by simpa using all), List.append_assoc, List.singleton_append]

theorem normalizeClosedThreadTombstones_toJson (all : Tombstones lc tombstones) :
    normalizeClosedThreadTombstones lc (some (.array (tombstones.map (·.toJson)))) =
      (tombstones.mergeSort fun left right => right.closedAt ≤ left.closedAt).take
        MAX_LEADER_CLOSED_THREAD_TOMBSTONES := by
  have collected := collectTombstones_toJson (show Tombstones lc ([] ++ tombstones) from all)
  simp only [normalizeClosedThreadTombstones, Option.bind_some, JsonValue.asArray, Option.getD_some, collected,
    List.nil_append]

/-! ## States -/

/-- What holds of the state. -/
structure Kept (lc : LowerCase) (state : LeaderOpenThreadTabsState) : Prop where
  tabs : Tabs lc state.orderedOpenThreadKeys
  apart : ∀ tombstone ∈ state.closedThreadTombstones, tombstone.threadKey ∉ state.orderedOpenThreadKeys
  tombstones : Tombstones lc state.closedThreadTombstones
  sorted : state.closedThreadTombstones.Pairwise fun left right => right.closedAt ≤ left.closedAt
  few : state.closedThreadTombstones.length ≤ MAX_LEADER_CLOSED_THREAD_TOMBSTONES
  times : 0 ≤ state.updatedAt ∧ (∀ t ∈ state.migratedFromLocalStorageAt, 0 ≤ t) ∧
    (∀ t ∈ state.explicitOrderUpdatedAt, 0 ≤ t) ∧ ∀ t ∈ state.latestServerCandidateEventAt, 0 ≤ t
  promotions : ∀ r ∈ state.serverCandidatePromotedAt, (∀ {key t}, r.get? key = some t → Tab lc key ∧ 0 ≤ t) ∧
    r.size ≤ MAX_LEADER_SERVER_CANDIDATE_PROMOTIONS ∧ r.size ≠ 0

variable {state : LeaderOpenThreadTabsState} {now : ℚ}

theorem kept_create (time : 0 ≤ now) : Kept lc (createLeaderOpenThreadTabsState now) where
  tabs := ⟨nofun, List.nodup_nil, Nat.zero_le _⟩
  apart := nofun
  tombstones := ⟨nofun, List.nodup_nil⟩
  sorted := List.Pairwise.nil
  few := Nat.zero_le _
  times := ⟨time, nofun, nofun, nofun⟩
  promotions := nofun

theorem Kept.migrate (keys : List JsonValue) (time : 0 ≤ now) : Kept lc (migrateTabs lc keys now) where
  tabs := normalizeLeaderOpenThreadKeys_tabs keys
  apart := nofun
  tombstones := ⟨nofun, List.nodup_nil⟩
  sorted := List.Pairwise.nil
  few := Nat.zero_le _
  times := ⟨time, by rintro t ⟨⟩; exact time, nofun, nofun⟩
  promotions := nofun

/-- An explicit order of a part of the tombstones, with open keys that are apart from these. -/
theorem Kept.order {keys : List JsString} {part : List LeaderClosedThreadTombstone} (kept : Kept lc state)
    (tabs : Tabs lc keys) (sublist : part.Sublist state.closedThreadTombstones)
    (apart : ∀ tombstone ∈ part, tombstone.threadKey ∉ keys) (time : 0 ≤ now) :
    Kept lc { state with
      orderedOpenThreadKeys := keys, closedThreadTombstones := part, updatedAt := now
      explicitOrderUpdatedAt := some now } where
  tabs := tabs
  apart := apart
  tombstones := kept.tombstones.sublist sublist
  sorted := kept.sorted.sublist sublist
  few := Nat.le_trans sublist.length_le kept.few
  times := ⟨time, kept.times.2.1, by rintro t ⟨⟩; exact time, kept.times.2.2.2⟩
  promotions := kept.promotions

theorem mem_eraseTombstone {key : JsString} (all : Tombstones lc tombstones) (tab : Tab lc key) {closedAt : ℚ}
    (time : 0 ≤ closedAt) :
    Tombstones lc ({ threadKey := key, closedAt } :: tombstones.filter (·.threadKey ≠ key)) where
  tabs tombstone inside := by
    obtain rfl | inside := List.mem_cons.mp inside
    · exact ⟨tab, time⟩
    · exact all.tabs tombstone (List.mem_of_mem_filter inside)
  distinct := by
    rw [List.map_cons, List.nodup_cons]
    refine ⟨fun listed => ?_, (all.sublist List.filter_sublist).distinct⟩
    obtain ⟨other, inside, same⟩ := List.mem_map.mp listed
    exact of_decide_eq_true (List.mem_filter.mp inside).2 same

theorem later_trans (a b c : LeaderClosedThreadTombstone) (first : decide (b.closedAt ≤ a.closedAt) = true)
    (second : decide (c.closedAt ≤ b.closedAt) = true) : decide (c.closedAt ≤ a.closedAt) = true :=
  decide_eq_true ((of_decide_eq_true second).trans (of_decide_eq_true first))

theorem later_total (a b : LeaderClosedThreadTombstone) :
    (decide (b.closedAt ≤ a.closedAt) || decide (a.closedAt ≤ b.closedAt)) = true := by
  simp only [Bool.or_eq_true, decide_eq_true_eq]
  exact le_total _ _

theorem closed_tombstones {key : JsString} (kept : Kept lc state) (tab : Tab lc key) {closedAt : ℚ}
    (time : 0 ≤ closedAt) :
    let closed := normalizeClosedThreadTombstones lc (some (.array
      (({ threadKey := key, closedAt } :: state.closedThreadTombstones.filter (·.threadKey ≠ key)).map (·.toJson))))
    Tombstones lc closed ∧ closed.Pairwise (fun left right => right.closedAt ≤ left.closedAt) ∧
      closed.length ≤ MAX_LEADER_CLOSED_THREAD_TOMBSTONES ∧
      ∀ tombstone ∈ closed, tombstone.threadKey = key ∨ tombstone ∈ state.closedThreadTombstones := by
  have all := mem_eraseTombstone kept.tombstones tab time
  rw [normalizeClosedThreadTombstones_toJson all]
  generalize whole : { threadKey := key, closedAt } :: state.closedThreadTombstones.filter (·.threadKey ≠ key) = list
    at all
  have sorted := List.pairwise_mergeSort later_trans later_total list
  have perm := List.mergeSort_perm list fun left right => right.closedAt ≤ left.closedAt
  have sublist := List.take_sublist MAX_LEADER_CLOSED_THREAD_TOMBSTONES
    (list.mergeSort fun left right => right.closedAt ≤ left.closedAt)
  refine ⟨⟨fun tombstone inside => all.tabs tombstone (perm.mem_iff.mp (sublist.subset inside)),
    (sublist.map _).nodup ((perm.map _).nodup_iff.mpr all.distinct)⟩,
    (sorted.sublist sublist).imp fun le => of_decide_eq_true le, List.length_take_le _ _,
    fun tombstone inside => ?_⟩
  have listed := perm.mem_iff.mp (sublist.subset inside)
  rw [← whole] at listed
  obtain rfl | old := List.mem_cons.mp listed
  · exact .inl rfl
  · exact .inr (List.mem_of_mem_filter old)

theorem Kept.close {key : JsString} (kept : Kept lc state) (tab : Tab lc key) {closedAt : ℚ} (time : 0 ≤ closedAt) :
    Kept lc (closeTab lc state key closedAt) := by
  obtain ⟨all, sorted, few, origin⟩ := closed_tombstones kept tab time
  rw [closeTab]
  split
  · exact kept
  · exact {
      tabs := kept.tabs.sublist List.filter_sublist
      apart := by
        intro tombstone inside
        obtain same | old := origin tombstone inside
        · simp [same]
        · exact fun listed => kept.apart tombstone old (List.mem_of_mem_filter listed)
      tombstones := all
      sorted := sorted
      few := few
      times := ⟨time, kept.times.2.1, by rintro t ⟨⟩; exact time, kept.times.2.2.2⟩
      promotions := kept.promotions }

theorem place_eq_first (keys : List JsString) (key : JsString) (last : Bool) :
    placeLeaderOpenThreadTabKey lc keys key (!last) = place lc (if last then .last else .first) ∅ keys key := by
  cases last <;> rfl

theorem Kept.apart_place {key : JsString} (kept : Kept lc state) (tab : Tab lc key) (placement : Placement)
    (before : JsSet JsString) : ∀ tombstone ∈ state.closedThreadTombstones.filter (·.threadKey ≠ key),
      tombstone.threadKey ∉ place lc placement before state.orderedOpenThreadKeys key := by
  intro tombstone inside open'
  obtain ⟨listed, other⟩ := List.mem_filter.mp inside
  refine kept.apart tombstone listed ?_
  have other := of_decide_eq_true other
  rw [place_eq kept.tabs tab] at open'
  split at open'
  · exact open'
  · have placed := List.mem_of_mem_take open'
    obtain first | rest := List.mem_append.mp placed
    · exact List.mem_of_mem_filter (List.mem_of_mem_take first)
    · obtain own | rest := List.mem_cons.mp rest
      · exact absurd own other
      · exact List.mem_of_mem_filter (List.mem_of_mem_drop rest)

theorem Kept.opens {key : JsString} {last : Bool} (kept : Kept lc state) (tab : Tab lc key) (time : 0 ≤ now) :
    Kept lc (openTab lc state key last now) := by
  rw [openTab]
  split
  · exact kept
  · rw [place_eq_first]
    exact kept.order (place_tabs _ _ _ _) List.filter_sublist (kept.apart_place tab _ _) time

theorem mem_reorder {key : JsString} {keys : List JsString} (tabs : Tabs lc keys) {requestedOrder : List JsonValue}
    (inside : key ∈ reorderLeaderOpenThreadKeys lc keys requestedOrder) : key ∈ keys := by
  rw [reorderLeaderOpenThreadKeys, tabs.normalizeKeys] at inside
  obtain first | second := List.mem_append.mp inside
  · exact of_decide_eq_true (List.mem_filter.mp first).2
  · exact List.mem_of_mem_filter second

theorem Kept.reorder (kept : Kept lc state) (requestedOrder : List JsonValue) (time : 0 ≤ now) :
    Kept lc (reorderTabs lc state requestedOrder now) := by
  rw [reorderTabs]
  split
  · exact kept
  · exact kept.order (reorder_tabs kept.tabs _) (List.Sublist.refl _)
      (fun tombstone inside open' => kept.apart tombstone inside (mem_reorder kept.tabs open')) time

theorem promotions_set {r : Record ℚ} {key : JsString} {eventAt : ℚ}
    (valid : ∀ {key t}, r.get? key = some t → Tab lc key ∧ 0 ≤ t) (tab : Tab lc key) (time : 0 ≤ eventAt)
    {other : JsString} {t : ℚ} (present : (r.set key eventAt).get? other = some t) : Tab lc other ∧ 0 ≤ t := by
  rw [JsMap.get?_set] at present
  split at present
  · next own =>
    cases present
    exact own ▸ ⟨tab, time⟩
  · exact valid present

/-- The promotions of a state, as they are promoted. -/
theorem Kept.promoted {key : JsString} {eventAt : ℚ} (kept : Kept lc state) (tab : Tab lc key) (time : 0 ≤ eventAt) :
    normalizeServerCandidatePromotedAt lc localeCompare
      (some (promotionsToJson ((state.serverCandidatePromotedAt.getD ∅).set key eventAt))) =
      bounded localeCompare ((state.serverCandidatePromotedAt.getD ∅).set key eventAt) := by
  apply normalizeServerCandidatePromotedAt_eq
  intro other t present
  refine promotions_set (fun {key t} before => ?_) tab time present
  cases promotions : state.serverCandidatePromotedAt with
  | none => simp [promotions] at before
  | some r =>
    rw [promotions] at before
    exact (kept.promotions r promotions).1 before

theorem promote_updatedAt (state : LeaderOpenThreadTabsState) (key : JsString) (eventAt : ℚ)
    (options : ServerCandidateOptions) :
    (promote lc localeCompare state key eventAt options).updatedAt = max state.updatedAt eventAt ∨
      (promote lc localeCompare state key eventAt options).updatedAt = state.updatedAt := by
  rw [promote]
  exact ite_eq_or_eq _ _ _

theorem Kept.promote {key : JsString} {eventAt : ℚ} (kept : Kept lc state) (tab : Tab lc key) (time : 0 ≤ eventAt)
    (options : ServerCandidateOptions) : Kept lc (promote lc localeCompare state key eventAt options) := by
  exact {
    tabs := place_tabs _ _ _ _
    apart := kept.apart_place tab _ _
    tombstones := kept.tombstones.sublist List.filter_sublist
    sorted := kept.sorted.sublist List.filter_sublist
    few := Nat.le_trans (List.length_filter_le _ _) kept.few
    times := by
      refine ⟨?_, kept.times.2.1, kept.times.2.2.1, fun t same => ?_⟩
      · obtain later | same := promote_updatedAt state key eventAt options
        · exact later ▸ le_max_of_le_left kept.times.1
        · exact same ▸ kept.times.1
      · rw [← Option.some.inj same]
        exact le_max_of_le_right time
    promotions := by
      intro r same
      rw [← Option.some.inj same]
      have valid : ∀ {key t}, (state.serverCandidatePromotedAt.getD ∅).get? key = some t → Tab lc key ∧ 0 ≤ t := by
        intro key t before
        cases promotions : state.serverCandidatePromotedAt with
        | none => simp [promotions] at before
        | some r =>
          rw [promotions] at before
          exact (kept.promotions r promotions).1 before
      have own : ((state.serverCandidatePromotedAt.getD ∅).set key eventAt).size ≠ 0 := by
        intro none
        have absent := JsMap.size_eq_zero.mp none key
        rw [JsMap.get?_set_self] at absent
        cases absent
      rw [kept.promoted tab time]
      refine ⟨fun present => promotions_set valid tab time (get?_of_bounded present), ?_, ?_⟩
      · rw [size_bounded]
        exact Nat.min_le_left _ _
      · rw [size_bounded]
        exact Nat.pos_iff_ne_zero.mp (Nat.lt_min.mpr ⟨by decide, Nat.pos_of_ne_zero own⟩) }

theorem Kept.getD {existing : Option LeaderOpenThreadTabsState} (kept : ∀ state ∈ existing, Kept lc state)
    (time : 0 ≤ now) : Kept lc (existing.getD (createLeaderOpenThreadTabsState now)) := by
  cases existing with
  | none => exact kept_create time
  | some state => exact kept state rfl

theorem kept_candidate {existing : Option LeaderOpenThreadTabsState} (kept : ∀ state ∈ existing, Kept lc state)
    {threadKey : JsString} {eventAt : ℚ} (time : 0 ≤ eventAt) (options : ServerCandidateOptions) :
    ∀ state ∈ applyLeaderServerCandidateThreadTabEvent lc localeCompare existing threadKey eventAt options,
      Kept lc state := by
  rw [applyLeaderServerCandidateThreadTabEvent]
  split
  · exact kept
  · next persists =>
    simp only [Bool.or_eq_true, Bool.not_eq_true', decide_eq_true_eq, not_or, Bool.not_eq_false] at persists
    dsimp only
    split
    · exact kept
    · split
      · exact kept
      · rintro state ⟨⟩
        exact (Kept.getD kept time).promote (tab_of_persists persists.1) time options

theorem validTimestamp_nonneg {value : Option JsonValue} {t : ℚ} (valid : validTimestamp value = some t) : 0 ≤ t := by
  rw [validTimestamp.eq_def] at valid
  split at valid
  · cases valid
    exact le_max_left _ _
  · cases valid

/-- The times of an operation are not negative. -/
def Operation.Timed : Operation → Prop
  | .migrate _ migratedAt => ∀ t ∈ migratedAt, 0 ≤ t
  | .closes _ closedAt => ∀ t ∈ closedAt, 0 ≤ t
  | _ => True

theorem operation_timed {update : JsonValue} {asked : Operation} (same : operation update = some asked) :
    asked.Timed := by
  simp only [operation] at same
  split at same
  · obtain ⟨_, -, rfl⟩ := Option.map_eq_some_iff.mp same
    exact fun t valid => validTimestamp_nonneg valid
  · split at same
    · obtain ⟨_, -, rfl⟩ := Option.map_eq_some_iff.mp same
      trivial
    · split at same
      · obtain ⟨_, -, rfl⟩ := Option.map_eq_some_iff.mp same
        trivial
      · split at same
        · obtain ⟨_, -, rfl⟩ := Option.map_eq_some_iff.mp same
          exact fun t valid => validTimestamp_nonneg valid
        · cases same

theorem getD_nonneg {value : Option ℚ} (valid : ∀ t ∈ value, 0 ≤ t) (time : 0 ≤ now) : 0 ≤ value.getD now := by
  cases value with
  | none => exact time
  | some t => exact valid t rfl

theorem kept_operation {existing : Option LeaderOpenThreadTabsState} (kept : ∀ state ∈ existing, Kept lc state)
    {asked : Operation} (timed : asked.Timed) (time : 0 ≤ now) :
    ∀ state ∈ asked.apply lc existing now, Kept lc state := by
  cases asked with
  | migrate keys migratedAt =>
    rintro state ⟨⟩
    exact Kept.migrate keys (getD_nonneg timed time)
  | reorder keys =>
    intro state changed
    obtain ⟨before, present, rfl⟩ := Option.map_eq_some_iff.mp changed
    exact (kept before present).reorder keys time
  | opens threadKey last =>
    rintro state ⟨⟩
    split
    · next persists => exact (Kept.getD kept time).opens (tab_of_persists persists) time
    · exact Kept.getD kept time
  | closes threadKey closedAt =>
    rintro state ⟨⟩
    split
    · next persists => exact (Kept.getD kept time).close (tab_of_persists persists) (getD_nonneg timed time)
    · exact Kept.getD kept time

theorem kept_update {existing : Option LeaderOpenThreadTabsState} (kept : ∀ state ∈ existing, Kept lc state)
    (update : JsonValue) (time : 0 ≤ now) : ∀ state ∈ applyLeaderThreadTabUpdate lc existing update now, Kept lc state := by
  rw [applyLeaderThreadTabUpdate]
  split
  · next asked same => exact kept_operation kept (operation_timed same) time
  · exact kept

/-! ## JSON -/

/-- The same but for the order of the record of promotions. -/
structure Same (state state' : LeaderOpenThreadTabsState) : Prop where
  orderedOpenThreadKeys : state.orderedOpenThreadKeys = state'.orderedOpenThreadKeys
  closedThreadTombstones : state.closedThreadTombstones = state'.closedThreadTombstones
  updatedAt : state.updatedAt = state'.updatedAt
  migratedFromLocalStorageAt : state.migratedFromLocalStorageAt = state'.migratedFromLocalStorageAt
  explicitOrderUpdatedAt : state.explicitOrderUpdatedAt = state'.explicitOrderUpdatedAt
  latestServerCandidateEventAt : state.latestServerCandidateEventAt = state'.latestServerCandidateEventAt
  promotions : state.serverCandidatePromotedAt.isSome = state'.serverCandidatePromotedAt.isSome ∧
    ∀ key, (state.serverCandidatePromotedAt.getD ∅).get? key = (state'.serverCandidatePromotedAt.getD ∅).get? key

theorem Same.refl (state : LeaderOpenThreadTabsState) : Same state state :=
  ⟨rfl, rfl, rfl, rfl, rfl, rfl, rfl, fun _ => rfl⟩

theorem state_members_nodup (state : LeaderOpenThreadTabsState) : (state.members.map Prod.fst).Nodup := by
  show [js "version", js "orderedOpenThreadKeys", js "closedThreadTombstones", js "updatedAt",
    js "migratedFromLocalStorageAt", js "explicitOrderUpdatedAt", js "latestServerCandidateEventAt",
    js "serverCandidatePromotedAt"].Nodup
  decide

theorem validTimestamp_map {time : Option ℚ} (valid : ∀ t ∈ time, 0 ≤ t) : validTimestamp (time.map number) = time := by
  cases time with
  | none => rfl
  | some t => exact validTimestamp_number (valid t rfl)

theorem normalizeClosedThreadTombstones_of_kept (kept : Kept lc state) :
    normalizeClosedThreadTombstones lc (some (.array (state.closedThreadTombstones.map (·.toJson)))) =
      state.closedThreadTombstones := by
  rw [normalizeClosedThreadTombstones_toJson kept.tombstones, List.mergeSort_of_pairwise, List.take_of_length_le kept.few]
  exact kept.sorted.imp fun le => decide_eq_true le

theorem normalize_toJson (kept : Kept lc state) :
    ∃ state', normalizeLeaderOpenThreadTabsState lc localeCompare state.toJson = some state' ∧ Same state' state := by
  have reads : ∀ m ∈ state.members, state.toJson.get m.1 = m.2 := fun m listed =>
    JsonValue.get_fields (state_members_nodup state) listed
  simp only [LeaderOpenThreadTabsState.members, List.forall_mem_cons] at reads
  obtain ⟨version, keys, tombstones, updatedAt, migratedAt, explicitAt, latestAt, promotions, -⟩ := reads
  have normalized : normalizeLeaderOpenThreadKeys lc (state.orderedOpenThreadKeys.map .string) =
      state.orderedOpenThreadKeys := kept.tabs.normalizeKeys
  obtain ⟨time, migrated, explicit, latest⟩ := kept.times
  rw [normalizeLeaderOpenThreadTabsState, if_pos version]
  simp only [keys, tombstones, updatedAt, migratedAt, explicitAt, latestAt, promotions, Option.bind_some,
    JsonValue.asArray, Option.getD_some, normalized, normalizeClosedThreadTombstones_of_kept kept,
    validTimestamp_number time, validTimestamp_map migrated, validTimestamp_map explicit, validTimestamp_map latest]
  refine ⟨_, rfl, rfl, rfl, rfl, rfl, rfl, rfl, ?_⟩
  cases own : state.serverCandidatePromotedAt with
  | none => exact ⟨rfl, fun key => rfl⟩
  | some r =>
    obtain ⟨valid, few, filled⟩ := kept.promotions r own
    have size : (bounded localeCompare r).size ≠ 0 := by
      rw [size_bounded, Nat.min_eq_right few]
      exact filled
    rw [Option.map_some, normalizeServerCandidatePromotedAt_eq valid, if_pos size]
    exact ⟨rfl, get?_bounded_of_few few⟩

/-! ## Server events -/

variable {existing : Option LeaderOpenThreadTabsState} {threadKey : JsString} {eventAt : ℚ}
  {options : ServerCandidateOptions}

/-- An event changes nothing, or promotes a thread whose tab is not fenced. -/
theorem candidate_cases (existing : Option LeaderOpenThreadTabsState) (threadKey : JsString) (eventAt : ℚ)
    (options : ServerCandidateOptions) :
    applyLeaderServerCandidateThreadTabEvent lc localeCompare existing threadKey eventAt options = existing ∨
    (Tab lc (normalizeSelectedFeedThreadKey lc threadKey) ∧
      (∀ t ∈ (existing.bind (·.serverCandidatePromotedAt)).bind (·.get? (normalizeSelectedFeedThreadKey lc threadKey)),
        t < eventAt) ∧
      (existing.any (normalizeSelectedFeedThreadKey lc threadKey ∈ ·.orderedOpenThreadKeys) = true →
        (existing.bind (·.explicitOrderUpdatedAt)).any (eventAt ≤ ·) = false) ∧
      canServerCandidateOpenThread lc existing (normalizeSelectedFeedThreadKey lc threadKey) eventAt options = true ∧
      applyLeaderServerCandidateThreadTabEvent lc localeCompare existing threadKey eventAt options =
        some (promote lc localeCompare (existing.getD (createLeaderOpenThreadTabsState eventAt))
          (normalizeSelectedFeedThreadKey lc threadKey) eventAt options)) := by
  rw [applyLeaderServerCandidateThreadTabEvent]
  split
  · exact .inl rfl
  · next persists =>
    simp only [Bool.or_eq_true, Bool.not_eq_true', decide_eq_true_eq, not_or, Bool.not_eq_false] at persists
    have tab := tab_of_persists persists.1
    dsimp only
    split
    · exact .inl rfl
    · next fence =>
      split
      · exact .inl rfl
      · next can =>
        refine .inr ⟨tab, fun t promoted => ?_, fun alreadyOpen => ?_, by simpa using can, rfl⟩
        · rw [Option.mem_def.mp promoted] at persists
          exact not_le.mp persists.2
        · simp only [alreadyOpen, Bool.true_and, Bool.or_eq_true, decide_eq_true_eq, not_or] at fence
          cases explicit : existing.bind (·.explicitOrderUpdatedAt) with
          | none => rfl
          | some t =>
            rw [explicit] at fence
            exact decide_eq_false fence.2

theorem Kept.closed_before (kept : Kept lc state) {key : JsString} (tab : Tab lc key) (time : 0 ≤ eventAt)
    (can : canServerCandidateOpenThread lc (some state) key eventAt options = true)
    (listed : tombstone ∈ state.closedThreadTombstones) (own : tombstone.threadKey = key) :
    tombstone.closedAt < eventAt := by
  simp only [canServerCandidateOpenThread, tab.normalized, tab.persists, Bool.not_true, Bool.false_eq_true, if_false,
    Option.bind_some] at can
  cases found : state.closedThreadTombstones.find? (·.threadKey = key) with
  | none =>
    rw [List.find?_eq_none] at found
    exact absurd (decide_eq_true own) (found tombstone listed)
  | some other =>
    have same : other = tombstone := by
      have inside := List.mem_of_find?_eq_some found
      have key' : other.threadKey = key := by simpa using List.find?_some found
      exact List.inj_on_of_nodup_map kept.tombstones.distinct inside listed (key'.trans own.symm)
    rw [found, same] at can
    simp only [Bool.and_eq_true, decide_eq_true_eq, max_eq_right time] at can
    exact can.2

theorem candidate_of_closed (kept : ∀ state ∈ existing, Kept lc state) (time : 0 ≤ eventAt)
    (closed : ∃ state ∈ existing, ∃ tombstone ∈ state.closedThreadTombstones,
      tombstone.threadKey = normalizeSelectedFeedThreadKey lc threadKey ∧ eventAt ≤ tombstone.closedAt) :
    applyLeaderServerCandidateThreadTabEvent lc localeCompare existing threadKey eventAt options = existing := by
  obtain ⟨state, rfl, tombstone, listed, own, before⟩ := closed
  obtain same | ⟨tab, -, -, can, -⟩ := candidate_cases (some state) threadKey eventAt options
  · exact same
  · exact absurd before (not_le.mpr ((kept state rfl).closed_before tab time can listed own))

theorem candidate_of_fenced (kept : ∀ state ∈ existing, Kept lc state)
    (fenced : ∃ state ∈ existing, ∃ t ∈ state.explicitOrderUpdatedAt, eventAt ≤ t) :
    ∃ state ∈ existing, ∃ state' ∈
      applyLeaderServerCandidateThreadTabEvent lc localeCompare existing threadKey eventAt options,
      state'.orderedOpenThreadKeys = state.orderedOpenThreadKeys ∨ state'.orderedOpenThreadKeys =
        state.orderedOpenThreadKeys ++ [normalizeSelectedFeedThreadKey lc threadKey] := by
  obtain ⟨state, rfl, t, explicit, before⟩ := fenced
  refine ⟨state, rfl, ?_⟩
  obtain same | ⟨tab, -, fence, -, promoted⟩ := candidate_cases (some state) threadKey eventAt options
  · exact ⟨state, same, .inl rfl⟩
  · refine ⟨_, promoted, ?_⟩
    have recorded : state.explicitOrderUpdatedAt.any (eventAt ≤ ·) = true := by
      rw [Option.mem_def.mp explicit]
      exact decide_eq_true before
    have closed : normalizeSelectedFeedThreadKey lc threadKey ∉ state.orderedOpenThreadKeys := by
      intro open'
      have unfenced := fence (decide_eq_true open')
      rw [Option.bind_some, recorded] at unfenced
      cases unfenced
    rw [promote]
    simp only [Option.getD_some, closed, recorded, not_false_eq_true, decide_true, Bool.and_self, if_true]
    exact place_last (kept state rfl).tabs tab closed _

/-! ## The same event twice -/

section

variable [Std.TransCmp localeCompare]

omit [Std.TransCmp localeCompare] in
theorem updatedAt_promote (state : LeaderOpenThreadTabsState) (key : JsString) (eventAt : ℚ)
    (options : ServerCandidateOptions)
    (keys : (promote lc localeCompare state key eventAt options).orderedOpenThreadKeys = state.orderedOpenThreadKeys)
    (tombstones : (promote lc localeCompare state key eventAt options).closedThreadTombstones =
      state.closedThreadTombstones) :
    (promote lc localeCompare state key eventAt options).updatedAt = state.updatedAt := by
  have updatedAt : (promote lc localeCompare state key eventAt options).updatedAt =
      if state.orderedOpenThreadKeys ≠ (promote lc localeCompare state key eventAt options).orderedOpenThreadKeys ||
        (promote lc localeCompare state key eventAt options).closedThreadTombstones.length ≠
          state.closedThreadTombstones.length then max state.updatedAt eventAt else state.updatedAt := rfl
  rw [updatedAt, keys, tombstones]
  simp

/-- The placement of an event. -/
def placementOf (state : LeaderOpenThreadTabsState) (key : JsString) (eventAt : ℚ) (options : ServerCandidateOptions) :
    Placement :=
  if key ∉ state.orderedOpenThreadKeys && state.explicitOrderUpdatedAt.any (eventAt ≤ ·) then .last
  else options.placement.getD .first

/-- A promotion that is not recorded, of a thread that is placed the same way, changes nothing the
second time. -/
theorem promote_promote (kept : Kept lc state) {key : JsString} (tab : Tab lc key) (time : 0 ≤ eventAt)
    (dropped : (bounded localeCompare ((state.serverCandidatePromotedAt.getD ∅).set key eventAt)).get? key = none)
    (placed : placementOf (promote lc localeCompare state key eventAt options) key eventAt options =
      placementOf state key eventAt options) :
    Same (promote lc localeCompare (promote lc localeCompare state key eventAt options) key eventAt options)
      (promote lc localeCompare state key eventAt options) := by
  have kept' : Kept lc (promote lc localeCompare state key eventAt options) := kept.promote tab time options
  have keys : (promote lc localeCompare (promote lc localeCompare state key eventAt options) key eventAt
      options).orderedOpenThreadKeys = (promote lc localeCompare state key eventAt options).orderedOpenThreadKeys := by
    show place lc (placementOf (promote lc localeCompare state key eventAt options) key eventAt options)
        options.beforeThreadKeys (place lc (placementOf state key eventAt options) options.beforeThreadKeys
          state.orderedOpenThreadKeys key) key = place lc (placementOf state key eventAt options)
        options.beforeThreadKeys state.orderedOpenThreadKeys key
    rw [placed, place_place kept.tabs tab]
  have tombstones : (promote lc localeCompare (promote lc localeCompare state key eventAt options) key eventAt
      options).closedThreadTombstones =
      (promote lc localeCompare state key eventAt options).closedThreadTombstones := by
    show (state.closedThreadTombstones.filter _).filter _ = state.closedThreadTombstones.filter _
    rw [List.filter_filter]
    simp only [Bool.and_self]
  have few : (state.serverCandidatePromotedAt.getD ∅).size ≤ MAX_LEADER_SERVER_CANDIDATE_PROMOTIONS := by
    cases own : state.serverCandidatePromotedAt with
    | none => exact Nat.zero_le _
    | some r => exact (kept.promotions r own).2.1
  have once : (promote lc localeCompare state key eventAt options).serverCandidatePromotedAt =
      some (bounded localeCompare ((state.serverCandidatePromotedAt.getD ∅).set key eventAt)) :=
    congrArg some (kept.promoted tab time)
  have twice : (promote lc localeCompare (promote lc localeCompare state key eventAt options) key eventAt
      options).serverCandidatePromotedAt = some (bounded localeCompare ((bounded localeCompare
        ((state.serverCandidatePromotedAt.getD ∅).set key eventAt)).set key eventAt)) := by
    refine (congrArg some (kept'.promoted tab time)).trans ?_
    rw [once, Option.getD_some]
  have latest : (promote lc localeCompare (promote lc localeCompare state key eventAt options) key eventAt
      options).latestServerCandidateEventAt =
      (promote lc localeCompare state key eventAt options).latestServerCandidateEventAt := by
    show some (max (max (state.latestServerCandidateEventAt.getD 0) eventAt) eventAt) =
      some (max (state.latestServerCandidateEventAt.getD 0) eventAt)
    rw [max_assoc, max_self]
  have updated := updatedAt_promote (promote lc localeCompare state key eventAt options) key eventAt options keys
    tombstones
  refine ⟨keys, tombstones, updated, rfl, rfl, latest, ?_, fun other => ?_⟩
  · rw [once, twice]
    rfl
  · rw [once, twice, Option.getD_some, Option.getD_some]
    exact bounded_set_again few dropped other

theorem candidate_twice (kept : ∀ state ∈ existing, Kept lc state) (time : 0 ≤ eventAt) :
    Option.Rel Same
      (applyLeaderServerCandidateThreadTabEvent lc localeCompare
        (applyLeaderServerCandidateThreadTabEvent lc localeCompare existing threadKey eventAt options)
        threadKey eventAt options)
      (applyLeaderServerCandidateThreadTabEvent lc localeCompare existing threadKey eventAt options) := by
  have refl : ∀ state : Option LeaderOpenThreadTabsState, Option.Rel Same state state := by
    intro state
    cases state with
    | none => exact .none
    | some state => exact .some (.refl state)
  obtain once | ⟨tab, -, fence, -, once⟩ := candidate_cases existing threadKey eventAt options
  · rw [once, once]
    exact refl existing
  · have base := Kept.getD kept time
    rw [once]
    obtain twice | ⟨-, fresh, fence', -, twice⟩ := candidate_cases
      (some (promote lc localeCompare (existing.getD (createLeaderOpenThreadTabsState eventAt))
        (normalizeSelectedFeedThreadKey lc threadKey) eventAt options)) threadKey eventAt options
    · rw [twice]
      exact refl _
    · rw [twice]
      refine .some (promote_promote base tab time ?_ ?_)
      · -- A promotion that was recorded would be a fence for the same event.
        cases present : (bounded localeCompare
          (((existing.getD (createLeaderOpenThreadTabsState eventAt)).serverCandidatePromotedAt.getD ∅).set
            (normalizeSelectedFeedThreadKey lc threadKey) eventAt)).get?
              (normalizeSelectedFeedThreadKey lc threadKey) with
        | none => rfl
        | some t =>
          have own := get?_of_bounded present
          rw [← base.promoted tab time] at present
          have earlier := fresh t present
          rw [JsMap.get?_set_self] at own
          cases own
          exact absurd earlier (lt_irrefl _)
      · cases recorded : (existing.getD (createLeaderOpenThreadTabsState eventAt)).explicitOrderUpdatedAt.any
            (eventAt ≤ ·) with
        | false =>
          have recorded' : (promote lc localeCompare (existing.getD (createLeaderOpenThreadTabsState eventAt))
              (normalizeSelectedFeedThreadKey lc threadKey) eventAt options).explicitOrderUpdatedAt.any
              (eventAt ≤ ·) = false := recorded
          rw [placementOf, recorded', placementOf, recorded, Bool.and_false, Bool.and_false]
        | true =>
          have recorded' : (promote lc localeCompare (existing.getD (createLeaderOpenThreadTabsState eventAt))
              (normalizeSelectedFeedThreadKey lc threadKey) eventAt options).explicitOrderUpdatedAt.any
              (eventAt ≤ ·) = true := recorded
          have closed : normalizeSelectedFeedThreadKey lc threadKey ∉
              (existing.getD (createLeaderOpenThreadTabsState eventAt)).orderedOpenThreadKeys := by
            intro open'
            cases existing with
            | none => cases recorded
            | some state =>
              have unfenced := fence (decide_eq_true open')
              rw [Option.bind_some] at unfenced
              rw [Option.getD_some, unfenced] at recorded
              cases recorded
          have closed' : normalizeSelectedFeedThreadKey lc threadKey ∉
              (promote lc localeCompare (existing.getD (createLeaderOpenThreadTabsState eventAt))
                (normalizeSelectedFeedThreadKey lc threadKey) eventAt options).orderedOpenThreadKeys := by
            intro open'
            have unfenced := fence' (decide_eq_true open')
            rw [Option.bind_some, recorded'] at unfenced
            cases unfenced
          rw [placementOf, recorded', placementOf, recorded]
          simp only [closed, closed', not_false_eq_true, decide_true, Bool.and_self, if_true]

end

end

end Takode.LeaderTabs
