import Takode.ViewportHandoff.Reading

/-!
# What an accepted publish keeps

The state that an accepted request leads to can be stored again, if its departure is not taken for
another one: the key that the reader joins of two ids does not tell where one ends.
-/

namespace Takode.ViewportHandoff

open JsString

variable {lc : LowerCase} {localeCompare : JsString → JsString → Ordering} {sessionId : JsString}
  {state : PersistedViewportHandoffSession} {request : ViewportHandoffWriteRequest}
  {input : JsonValue} {now : JsNumber} {serverNow : ℚ}

/-! ## Server times -/

theorem normalizeServerNow_some {last : ℚ} (read : normalizeServerNow now last = some serverNow) :
    last ≤ serverNow ∧ (∀ value, now = .finite value → (⌊value⌋ : ℚ) ≤ serverNow) := by
  unfold normalizeServerNow at read
  split at read
  · next value =>
    split at read
    · cases read
    · cases read
      refine ⟨le_max_right _ _, ?_⟩
      rintro _ ⟨⟩
      exact le_max_left _ _
  · cases read

theorem one_le_nextUpdatedAt (positive : 0 ≤ state.updatedAt) : 1 ≤ nextUpdatedAt state serverNow := by
  have one : Doubles.rounded 1 = 1 := by exact_mod_cast Doubles.rounded_natCast (n := 1) (by decide)
  have least : (1 : ℚ) ≤ state.updatedAt + 1 := by linarith
  have grown := Doubles.rounded_mono one_pos least
  rw [one] at grown
  exact le_max_of_le_right grown

theorem updatedAt_le_nextUpdatedAt (later : state.updatedAt ≤ serverNow) :
    state.updatedAt ≤ nextUpdatedAt state serverNow := le_max_of_le_left later

/-! ## Requests -/

/-- The ids of a request, as they are read. -/
def departureOf (input : JsonValue) : Option JsString × Option JsString :=
  (normalizeRequiredId (input.get (js "sourceId")), normalizeRequiredId (input.get (js "departureId")))

/-- What `normalizeWriteRequest` makes sure of. -/
structure IsRequest (lc : LowerCase) (input : JsonValue) (request : ViewportHandoffWriteRequest) :
    Prop where
  departure : departureOf input = (some request.sourceId, some request.departureId)
  threadKey : IsThreadKey lc request.threadKey ∧ isThreadKey request.threadKey = true
  selectedThreadKey : IsThreadKey lc request.selectedThreadKey
  deliberate : ∀ reported ∈ request.lastDeliberateActivityAt, 0 ≤ reported
  selection : ∀ reported ∈ request.lastSelectionActivityAt, 0 ≤ reported
  position : IsPosition request.position

theorem activity_of_read {value : Option JsonValue} {activity : Option ℚ}
    (read : normalizeViewportHandoffActivityAt value = some activity) :
    ∀ reported ∈ activity, 0 ≤ reported := by
  unfold normalizeViewportHandoffActivityAt at read
  split at read
  · cases read
    nofun
  · obtain ⟨reported, own, rfl⟩ := Option.map_eq_some_iff.mp read
    rintro _ ⟨⟩
    exact finiteNonNegativeNumber_some own

theorem isRequest_of_read (read : normalizeWriteRequest lc input serverNow = some request) :
    IsRequest lc input request := by
  unfold normalizeWriteRequest at read
  simp only [Option.bind_eq_bind, Option.bind_eq_some_iff] at read
  obtain ⟨_, -, _, -, deliberate, readDeliberate, selection, readSelection, read⟩ := read
  split at read
  · cases read
  · simp only [Option.bind_eq_some_iff] at read
    obtain ⟨source, readSource, departure, readDeparture, thread, readThread, selected,
      readSelected, position, readPosition, made⟩ := read
    cases made
    exact ⟨Prod.ext readSource readDeparture, isThreadKey_of_read readThread,
      (isThreadKey_of_read readSelected).1, activity_of_read readDeliberate,
      activity_of_read readSelection, isPosition_of_read readPosition⟩

theorem IsRequest.ids (own : IsRequest lc input request) :
    IsId request.sourceId ∧ IsId request.departureId :=
  ⟨isId_of_read (congrArg Prod.fst own.departure), isId_of_read (congrArg Prod.snd own.departure)⟩

theorem normalizeWriteRequest_later {later : ℚ} (positive : 0 ≤ serverNow) (le : serverNow ≤ later)
    (read : normalizeWriteRequest lc input serverNow = some request) :
    normalizeWriteRequest lc input later = some request := by
  have bound : latestActivity serverNow ≤ latestActivity later := by
    apply Doubles.rounded_mono
    · unfold VIEWPORT_HANDOFF_MAX_FUTURE_ACTIVITY_MS
      linarith
    · linarith
  have widen (activity : Option ℚ) (fits : activity.any (latestActivity serverNow < ·) = false) :
      activity.any (latestActivity later < ·) = false := by
    cases activity with
    | none => rfl
    | some reported =>
      simp only [Option.any_some, decide_eq_false_iff_not, not_lt] at fits ⊢
      exact fits.trans bound
  unfold normalizeWriteRequest at read ⊢
  simp only [Option.bind_eq_bind, Option.bind_eq_some_iff] at read ⊢
  obtain ⟨base, readBase, selected, readSelected, deliberate, readDeliberate, selection,
    readSelection, read⟩ := read
  refine ⟨base, readBase, selected, readSelected, deliberate, readDeliberate, selection,
    readSelection, ?_⟩
  split at read
  · cases read
  · next fits =>
    rw [Bool.not_eq_true, Bool.or_eq_false_iff] at fits
    rw [if_neg]
    · exact read
    · rw [widen deliberate fits.1, widen selection fits.2]
      exact Bool.false_ne_true

/-! ## Handoffs -/

theorem keys_ofEntries_take {α : Type} {entries sorted : List (JsString × α)} (n : Nat)
    (perm : sorted.Perm entries) (distinct : (entries.map Prod.fst).Nodup) :
    (Record.ofEntries (sorted.take n)).entries = sorted.take n := by
  have apart : (sorted.map Prod.fst).Nodup := (perm.map Prod.fst).nodup_iff.mpr distinct
  exact Record.entries_ofEntries (apart.sublist ((List.take_sublist n sorted).map Prod.fst))

theorem ownEntries_nodup {α : Type} (r : Record α) : (r.ownEntries.map Prod.fst).Nodup :=
  r.map_fst_ownEntries ▸ r.ownKeys_nodup

theorem entries_limitHandoffs (handoffs : Record ViewportHandoffRecord) :
    (limitHandoffs localeCompare handoffs).entries =
      (handoffs.ownEntries.insertionSort (keptBefore localeCompare)).take
        MAX_VIEWPORT_HANDOFFS_PER_SESSION :=
  keys_ofEntries_take _ (List.perm_insertionSort _ _) (ownEntries_nodup handoffs)

theorem limitHandoffs_few (handoffs : Record ViewportHandoffRecord) :
    (limitHandoffs localeCompare handoffs).keys.length ≤ MAX_VIEWPORT_HANDOFFS_PER_SESSION := by
  rw [JsMap.keys, entries_limitHandoffs, List.length_map]
  exact List.length_take_le _ _

theorem get?_of_limitHandoffs {handoffs : Record ViewportHandoffRecord} {key : JsString}
    {record : ViewportHandoffRecord}
    (found : (limitHandoffs localeCompare handoffs).get? key = some record) :
    handoffs.get? key = some record := by
  rw [← JsMap.mem_entries, entries_limitHandoffs] at found
  exact Record.mem_ownEntries.mp ((List.mem_insertionSort _).mp (List.mem_of_mem_take found))

theorem head_insertionSort {α : Type} {r : α → α → Prop} [DecidableRel r] {a : α} {l : List α}
    (listed : a ∈ l) (first : ∀ b ∈ l, b ≠ a → r a b ∧ ¬ r b a) (distinct : l.Nodup) :
    (l.insertionSort r).head? = some a := by
  induction l with
  | nil => cases listed
  | cons b rest ih =>
    rw [List.nodup_cons] at distinct
    rw [List.insertionSort_cons]
    by_cases own : b = a
    · subst own
      cases sorted : rest.insertionSort r with
      | nil => rfl
      | cons c later =>
        have inside : c ∈ rest := by
          rw [← List.mem_insertionSort r, sorted]
          exact List.mem_cons_self
        have other : c ≠ b := fun same => distinct.1 (same ▸ inside)
        rw [List.orderedInsert, if_pos (first c (List.mem_cons_of_mem b inside) other).1]
        rfl
    · have head := ih (List.mem_of_ne_of_mem (Ne.symm own) listed)
        (fun c inside => first c (List.mem_cons_of_mem b inside)) distinct.2
      cases sorted : rest.insertionSort r with
      | nil =>
        rw [sorted] at head
        cases head
      | cons c later =>
        rw [sorted] at head
        cases head
        rw [List.orderedInsert, if_neg (first b List.mem_cons_self own).2]
        rfl

theorem get?_limitHandoffs_latest {handoffs : Record ViewportHandoffRecord} {key : JsString}
    {record : ViewportHandoffRecord} (found : handoffs.get? key = some record)
    (latest : ∀ other record', handoffs.get? other = some record' → other ≠ key →
      record'.revision < record.revision) :
    (limitHandoffs localeCompare handoffs).get? key = some record := by
  have listed : (key, record) ∈ handoffs.ownEntries := Record.mem_ownEntries.mpr found
  have head := head_insertionSort (r := keptBefore localeCompare) listed
    (by
      rintro ⟨other, record'⟩ inside differs
      have found' := Record.mem_ownEntries.mp inside
      have less : record'.revision < record.revision := by
        refine latest other record' found' fun same => differs ?_
        subst same
        rw [found] at found'
        cases found'
        rfl
      refine ⟨Or.inl less, ?_⟩
      rintro (more | ⟨same, -⟩) <;> dsimp only at * <;> omega)
    (List.Nodup.of_map Prod.fst (ownEntries_nodup handoffs))
  rw [← JsMap.mem_entries, entries_limitHandoffs]
  cases sorted : handoffs.ownEntries.insertionSort (keptBefore localeCompare) with
  | nil =>
    rw [sorted] at head
    cases head
  | cons first rest =>
    rw [sorted] at head
    cases head
    exact List.mem_cons_self

theorem get?_nextHandoffs {key : JsString} {record : ViewportHandoffRecord}
    (found : (nextHandoffs state request localeCompare serverNow).get? key = some record) :
    key = request.threadKey ∧ record = nextRecord state request serverNow ∨
      state.handoffs.get? key = some record := by
  unfold nextHandoffs at found
  cases advances : shouldAdvancePosition state request with
  | true =>
    rw [advances] at found
    have set := get?_of_limitHandoffs found
    rw [JsMap.get?_set] at set
    split at set
    · next own =>
      cases set
      exact .inl ⟨own, rfl⟩
    · exact .inr set
  | false =>
    rw [advances] at found
    cases current : state.handoffs.get? request.threadKey with
    | none =>
      simp only [current, Bool.false_eq_true, if_false] at found
      exact .inr found
    | some record' =>
      simp only [current, Bool.false_eq_true, if_false] at found
      have set := get?_of_limitHandoffs found
      rw [JsMap.set_of_present current] at set
      exact .inr set

/-! ## States -/

theorem IsRecord.later {revision revision' : Nat} {updatedAt updatedAt' : ℚ} {key : JsString}
    {record : ViewportHandoffRecord} (own : IsRecord lc revision updatedAt key record)
    (revisions : revision ≤ revision') (times : updatedAt ≤ updatedAt') :
    IsRecord lc revision' updatedAt' key record :=
  { own with most := own.most.trans revisions, notLater := own.notLater.trans times }

theorem Stored.nextRecord (stored : Stored lc sessionId state) (own : IsRequest lc input request) :
    IsRecord lc (state.revision + 1) (nextUpdatedAt state serverNow) request.threadKey
      (nextRecord state request serverNow) where
  threadKey := rfl
  named := own.threadKey.1
  plain := own.threadKey.2
  least := Nat.le_add_left 1 _
  most := le_rfl
  sourceId := own.ids.1
  departureId := own.ids.2
  activityAt := by
    apply le_max_of_le_right
    cases reported : request.lastDeliberateActivityAt with
    | none => exact le_rfl
    | some activity => exact own.deliberate activity reported
  positive := zero_le_one.trans (one_le_nextUpdatedAt stored.updatedAt)
  notLater := le_rfl
  position := own.position

/-- The departures that stay with that of a request. -/
def keptDepartures (state : PersistedViewportHandoffSession) : List RecentViewportDeparture :=
  state.recentDepartures.rtake (MAX_RECENT_VIEWPORT_DEPARTURES - 1)

theorem nextDepartures_eq : nextDepartures state request =
    keptDepartures state ++ [⟨request.sourceId, request.departureId, state.revision + 1⟩] := by
  have most : MAX_RECENT_VIEWPORT_DEPARTURES = MAX_RECENT_VIEWPORT_DEPARTURES - 1 + 1 := rfl
  unfold nextDepartures keptDepartures
  rw [← List.rtake_concat_succ, ← most]
  rfl

theorem recentDepartures_nextState :
    (nextState state request localeCompare sessionId serverNow).recentDepartures =
      nextDepartures state request := by
  simp only [nextState]

theorem Stored.nextState (stored : Stored lc sessionId state) (own : IsRequest lc input request)
    (later : state.updatedAt ≤ serverNow) (bounded : state.revision < MAX_SAFE_INTEGER)
    (apart : ∀ departure ∈ keptDepartures state,
      departure.key ≠ departureKey request.sourceId request.departureId) :
    Stored lc sessionId (nextState state request localeCompare sessionId serverNow) where
  session := rfl
  own := stored.own
  revision := bounded
  updatedAt := zero_le_one.trans (one_le_nextUpdatedAt stored.updatedAt)
  selectedThreadKey := by
    show IsThreadKey lc (if _ then _ else _)
    split
    · exact own.selectedThreadKey
    · exact stored.selectedThreadKey
  selectedThreadRevision := by
    show (if _ then _ else _) ≤ state.revision + 1
    split
    · exact le_rfl
    · exact stored.selectedThreadRevision.trans (Nat.le_succ _)
  selectedThreadActivityAt := by
    show 0 ≤ (if _ then _ else _ : ℚ)
    split
    · apply le_max_of_le_right
      cases reported : request.lastSelectionActivityAt with
      | none => exact le_rfl
      | some activity => exact own.selection activity reported
    · exact stored.selectedThreadActivityAt
  selectedThreadUpdatedAt := by
    show 0 ≤ (if _ then _ else _ : ℚ)
    split
    · exact zero_le_one.trans (one_le_nextUpdatedAt stored.updatedAt)
    · exact stored.selectedThreadUpdatedAt
  notLater := by
    show (if _ then _ else _ : ℚ) ≤ _
    split
    · exact le_rfl
    · exact stored.notLater.trans (updatedAt_le_nextUpdatedAt later)
  unwritten := nofun
  unselected := by
    show (if _ then _ else _) = 0 → (if _ then _ else _) = js "main" ∧ (if _ then _ else _ : ℚ) = 0
    split
    · nofun
    · exact stored.unselected
  selected := by
    show 0 < (if _ then _ else _) → (if _ then _ else _ : ℚ) ≠ 0
    split
    · intro _
      exact (zero_lt_one.trans_le (one_le_nextUpdatedAt stored.updatedAt)).ne'
    · exact stored.selected
  handoffs key record found := by
    rcases get?_nextHandoffs found with ⟨rfl, rfl⟩ | before
    · exact stored.nextRecord own
    · exact (stored.handoffs key record before).later (Nat.le_succ _)
        (updatedAt_le_nextUpdatedAt later)
  few := by
    show (nextHandoffs state request localeCompare serverNow).keys.length ≤ _
    unfold nextHandoffs
    dsimp only
    split
    · exact limitHandoffs_few _
    · exact stored.few
  recent := by
    rw [recentDepartures_nextState, nextDepartures, List.length_drop]
    omega
  departures := by
    rw [recentDepartures_nextState, nextDepartures_eq]
    intro departure listed
    rcases List.mem_append.mp listed with kept | new
    · obtain ⟨source, id, least, most⟩ := stored.departures departure (List.mem_of_mem_drop kept)
      exact ⟨source, id, least, most.trans (Nat.le_succ _)⟩
    · cases List.mem_singleton.mp new
      exact ⟨own.ids.1, own.ids.2, Nat.le_add_left 1 _, le_rfl⟩
  distinct := by
    rw [recentDepartures_nextState, nextDepartures_eq, List.map_append, List.nodup_append_comm, List.map_singleton,
      List.singleton_append, List.nodup_cons]
    refine ⟨fun taken => ?_, stored.distinct.sublist ((List.drop_sublist _ _).map _)⟩
    obtain ⟨departure, kept, same⟩ := List.mem_map.mp taken
    exact apart departure kept same

end Takode.ViewportHandoff
