import Takode.ViewportHandoff.Keeping

/-!
# Publishing with restarts

The publishes of a session in any order with restarts of the server between them. What is written
is read back, and nobody can tell that there was a restart, as long as no accepted departure has
the joined key of another one and the time of the state can grow.
-/

namespace Takode.ViewportHandoff

open JsString

inductive Event
  | publish (input : JsonValue) (now : JsNumber) (written : Except JsString Unit)
  | restart

/-- A server with the requests that it accepted. -/
structure Server where
  store : ViewportHandoffStore
  accepted : List JsonValue

abbrev Answer := Except ViewportHandoffStoreError ViewportHandoffWriteResponse

def isAccepted : Answer → Bool
  | .ok response => response.status = .accepted
  | .error _ => false

section

variable (lc : LowerCase) (localeCompare : JsString → JsString → Ordering) (sessionId : JsString)

/-- The state that a publish finds. -/
def Server.state (s : Server) : Except ViewportHandoffStoreError PersistedViewportHandoffSession :=
  (requireState lc s.store sessionId).2

def Server.answer (s : Server) (input : JsonValue) (now : JsNumber)
    (written : Except JsString Unit) : Answer :=
  (publish lc localeCompare s.store sessionId input now written).2

def Server.step (s : Server) : Event → Server
  | .publish input now written =>
    { store := (publish lc localeCompare s.store sessionId input now written).1
      accepted :=
        if isAccepted (s.answer lc localeCompare sessionId input now written) then
          s.accepted ++ [input]
        else s.accepted }
  | .restart => { s with store := { s.store with loaded := none } }

/-- The answers to the publishes of a run. -/
def Server.answers (s : Server) : List Event → List Answer
  | [] => []
  | .publish input now written :: rest =>
    s.answer lc localeCompare sessionId input now written ::
      Server.answers (s.step lc localeCompare sessionId (.publish input now written)) rest
  | .restart :: rest => Server.answers (s.step lc localeCompare sessionId .restart) rest

/-- A session of which nothing was published. -/
def fresh : Server := ⟨⟨none, none⟩, []⟩

def handoffRuns : Machine Server Event := ⟨fresh, fun s e => some (s.step lc localeCompare sessionId e)⟩

/-- The request advances the position or the selection, and is neither repeated nor too late. -/
def advances (state : PersistedViewportHandoffSession) (request : ViewportHandoffWriteRequest) :
    Bool :=
  !isDuplicate state request &&
    (shouldAdvancePosition state request || shouldAdvanceSelection state request) &&
    state.revision < MAX_SAFE_INTEGER

/-- Where the publish writes: its departure can be told from those that stay by the joined key,
and the server time or the next double lies after the time of the state. -/
def Server.Admits (s : Server) : Event → Prop
  | .publish input now (.ok _) => ∀ state serverNow request,
      s.state lc sessionId = .ok state → normalizeServerNow now state.updatedAt = some serverNow →
      normalizeWriteRequest lc input serverNow = some request → advances state request →
        (∀ departure ∈ keptDepartures state,
          departure.key ≠ departureKey request.sourceId request.departureId) ∧
        (state.updatedAt < Doubles.rounded (state.updatedAt + 1) ∨
          ∃ value, now = .finite value ∧ state.updatedAt < (⌊value⌋ : ℚ))
  | .publish _ _ (.error _) => True
  | .restart => True

end

variable {lc : LowerCase} {localeCompare : JsString → JsString → Ordering} {sessionId : JsString}
  {s : Server} {state : PersistedViewportHandoffSession} {input : JsonValue} {now : JsNumber}
  {written : Except JsString Unit} {serverNow : ℚ} {request : ViewportHandoffWriteRequest}

/-! ## One publish -/

/-- What a publish that finds a state can do: it answers and leaves the store as it found it, or
writes the next state. -/
theorem publishLoaded_cases (lc : LowerCase) (localeCompare : JsString → JsString → Ordering)
    (sessionId : JsString) (state : PersistedViewportHandoffSession) (input : JsonValue)
    (now : JsNumber) (written : Except JsString Unit) (store : ViewportHandoffStore) :
    (isAccepted (publishLoaded lc localeCompare store state sessionId input now written).2 = false ∧
      (publishLoaded lc localeCompare store state sessionId input now written).1 = store) ∨
    ∃ serverNow request, normalizeServerNow now state.updatedAt = some serverNow ∧
      normalizeWriteRequest lc input serverNow = some request ∧ advances state request = true ∧
      written = .ok () ∧
      publishLoaded lc localeCompare store state sessionId input now written =
        (⟨some (.valid (nextState state request localeCompare sessionId serverNow)),
          some (persistedJson (nextState state request localeCompare sessionId serverNow))⟩,
        .ok (writeResponse .accepted (nextState state request localeCompare sessionId serverNow)
          request.threadKey (nextState state request localeCompare sessionId serverNow).updatedAt)) := by
  unfold publishLoaded
  cases time : normalizeServerNow now state.updatedAt with
  | none => exact .inl ⟨rfl, rfl⟩
  | some serverNow =>
    dsimp only
    cases read : normalizeWriteRequest lc input serverNow with
    | none => exact .inl ⟨rfl, rfl⟩
    | some request =>
      dsimp only
      by_cases repeated : isDuplicate state request = true
      · rw [if_pos repeated]
        exact .inl ⟨rfl, rfl⟩
      · rw [if_neg repeated]
        by_cases stale : (!shouldAdvancePosition state request &&
            !shouldAdvanceSelection state request) = true
        · rw [if_pos stale]
          exact .inl ⟨rfl, rfl⟩
        · rw [if_neg stale]
          by_cases exhausted : MAX_SAFE_INTEGER ≤ state.revision
          · rw [if_pos exhausted]
            exact .inl ⟨rfl, rfl⟩
          · rw [if_neg exhausted]
            cases written with
            | error message => exact .inl ⟨rfl, rfl⟩
            | ok _ =>
              refine .inr ⟨serverNow, request, rfl, read, ?_, rfl, rfl⟩
              simp only [advances, Bool.and_eq_true, decide_eq_true_eq, Bool.not_eq_true']
              refine ⟨⟨Bool.not_eq_true _ ▸ repeated, ?_⟩, Nat.lt_of_not_le exhausted⟩
              rw [Bool.and_eq_true, Bool.not_eq_true', Bool.not_eq_true', not_and_or,
                Bool.not_eq_false, Bool.not_eq_false] at stale
              exact Bool.or_eq_true _ _ ▸ stale

theorem publishLoaded_duplicate {store : ViewportHandoffStore}
    (time : normalizeServerNow now state.updatedAt = some serverNow)
    (read : normalizeWriteRequest lc input serverNow = some request)
    (repeated : isDuplicate state request = true) :
    publishLoaded lc localeCompare store state sessionId input now written =
      (store, .ok (writeResponse .duplicate state request.threadKey serverNow)) := by
  simp only [publishLoaded, time, read, repeated, if_true]

/-! ## The invariant -/

/-- The store holds the state, has it in its file, and remembers its departures. -/
structure Keeps (lc : LowerCase) (sessionId : JsString) (s : Server)
    (state : PersistedViewportHandoffSession) : Prop where
  stored : Stored lc sessionId state
  loaded : s.store.loaded = none ∨ s.store.loaded = some (.valid state)
  file : s.store.file = none ∧ state = persistedEmptyState sessionId ∨
    s.store.file = some (persistedJson state)
  departures : (state.recentDepartures.map fun departure =>
      (some departure.sourceId, some departure.departureId)) =
    (s.accepted.map departureOf).rtake MAX_RECENT_VIEWPORT_DEPARTURES
  valid : ∀ input ∈ s.accepted, ∀ serverNow, state.updatedAt ≤ serverNow →
    (normalizeWriteRequest lc input serverNow).isSome

theorem Keeps.requireState (keeps : Keeps lc sessionId s state) :
    requireState lc s.store sessionId = (⟨some (.valid state), s.store.file⟩, .ok state) := by
  have own : ¬ normalizeRequiredId (some (.string sessionId)) ≠ some sessionId :=
    not_not_intro keeps.stored.own
  unfold ViewportHandoff.requireState
  rw [if_neg own]
  rcases keeps.loaded with unread | read
  · rw [unread]
    dsimp only
    rcases keeps.file with ⟨absent, rfl⟩ | present
    · rw [absent]
    · rw [present]
      dsimp only
      rw [keeps.stored.read]
  · have same : s.store = ⟨some (.valid state), s.store.file⟩ := by rw [← read]
    rw [read]
    exact congrArg (·, Except.ok state) same

theorem requireState_of_not_isId (other : ¬ IsId sessionId) (store : ViewportHandoffStore) :
    requireState lc store sessionId =
      (store, .error ⟨js "Invalid viewport handoff session ID", .invalidInput⟩) := if_pos other

/-- What holds in every state of a run. -/
def Server.Sound (lc : LowerCase) (sessionId : JsString) (s : Server) : Prop :=
  IsId sessionId ∧ (∃ state, Keeps lc sessionId s state) ∨ ¬ IsId sessionId ∧ s = fresh

theorem keeps_fresh (own : IsId sessionId) :
    Keeps lc sessionId fresh (persistedEmptyState sessionId) where
  stored := stored_empty own
  loaded := .inl rfl
  file := .inl ⟨rfl, rfl⟩
  departures := by simp [fresh, persistedEmptyState, List.rtake]
  valid := nofun

theorem Keeps.restart (keeps : Keeps lc sessionId s state) :
    Keeps lc sessionId (s.step lc localeCompare sessionId .restart) state :=
  { keeps with loaded := .inl rfl }

theorem Keeps.publish_eq (keeps : Keeps lc sessionId s state) :
    publish lc localeCompare s.store sessionId input now written =
      publishLoaded lc localeCompare ⟨some (.valid state), s.store.file⟩ state sessionId input now
        written := by
  simp only [publish, keeps.requireState]

/-- A publish that is not accepted leaves the state and the file. -/
theorem Keeps.refused (keeps : Keeps lc sessionId s state)
    (refused : isAccepted (s.answer lc localeCompare sessionId input now written) = false) :
    Keeps lc sessionId (s.step lc localeCompare sessionId (.publish input now written)) state ∧
      (s.step lc localeCompare sessionId (.publish input now written)).store.file = s.store.file := by
  have kept : (s.step lc localeCompare sessionId (.publish input now written)).store =
      ⟨some (.valid state), s.store.file⟩ := by
    show (publish lc localeCompare s.store sessionId input now written).1 = _
    unfold Server.answer at refused
    rw [keeps.publish_eq] at refused ⊢
    rcases publishLoaded_cases lc localeCompare sessionId state input now written
      ⟨some (.valid state), s.store.file⟩ with ⟨-, same⟩ | ⟨_, _, -, -, -, -, accepted⟩
    · exact same
    · rw [accepted] at refused
      cases refused
  have accepted : (s.step lc localeCompare sessionId (.publish input now written)).accepted =
      s.accepted := by
    show (if _ then _ else _) = _
    rw [refused]
    rfl
  refine ⟨⟨keeps.stored, ?_, ?_, ?_, ?_⟩, by rw [kept]⟩
  · rw [kept]
    exact .inr rfl
  · rw [kept]
    exact keeps.file
  · rw [accepted]
    exact keeps.departures
  · rw [accepted]
    exact keeps.valid

theorem departures_nextState (keeps : Keeps lc sessionId s state)
    (own : IsRequest lc input request) :
    ((nextState state request localeCompare sessionId serverNow).recentDepartures.map
        fun departure => (some departure.sourceId, some departure.departureId)) =
      ((s.accepted ++ [input]).map departureOf).rtake MAX_RECENT_VIEWPORT_DEPARTURES := by
  have most : MAX_RECENT_VIEWPORT_DEPARTURES = MAX_RECENT_VIEWPORT_DEPARTURES - 1 + 1 := rfl
  have shorter {α : Type} (l : List α) : (l.rtake MAX_RECENT_VIEWPORT_DEPARTURES).rtake
      (MAX_RECENT_VIEWPORT_DEPARTURES - 1) = l.rtake (MAX_RECENT_VIEWPORT_DEPARTURES - 1) := by
    simp only [List.rtake_eq_reverse_take_reverse, List.reverse_reverse, List.take_take]
    rfl
  have kept {α : Type} (f : RecentViewportDeparture → α) :
      (keptDepartures state).map f =
        (state.recentDepartures.map f).rtake (MAX_RECENT_VIEWPORT_DEPARTURES - 1) := by
    unfold keptDepartures List.rtake
    rw [List.map_drop, List.length_map]
  rw [recentDepartures_nextState, nextDepartures_eq, List.map_append, kept, keeps.departures,
    shorter, List.map_append, List.map_singleton, List.map_singleton, own.departure, most,
    List.rtake_concat_succ, ← most]

/-- What an accepted publish does to the state. -/
structure Advance (lc : LowerCase) (sessionId : JsString)
    (before after : PersistedViewportHandoffSession) (request : ViewportHandoffWriteRequest)
    (serverNow : ℚ) : Prop where
  readBack : normalizePersistedState lc (persistedJson after) sessionId = some after
  revision : after.revision = before.revision + 1
  updatedAt : before.updatedAt < after.updatedAt
  activityAt : ∀ key old new, before.handoffs.get? key = some old →
    after.handoffs.get? key = some new → old.activityAt ≤ new.activityAt
  few : after.handoffs.keys.length ≤ MAX_VIEWPORT_HANDOFFS_PER_SESSION
  latest : shouldAdvancePosition before request = true →
    after.handoffs.get? request.threadKey = some (nextRecord before request serverNow)

theorem Stored.advance (stored : Stored lc sessionId state) (own : IsRequest lc input request)
    (later : state.updatedAt ≤ serverNow) (bounded : state.revision < MAX_SAFE_INTEGER)
    (apart : ∀ departure ∈ keptDepartures state,
      departure.key ≠ departureKey request.sourceId request.departureId)
    (grows : state.updatedAt < nextUpdatedAt state serverNow) :
    Advance lc sessionId state (ViewportHandoff.nextState state request localeCompare sessionId
      serverNow) request serverNow := by
  have next : Stored lc sessionId (ViewportHandoff.nextState state request localeCompare sessionId
      serverNow) := stored.nextState own later bounded apart
  refine ⟨next.read, rfl, grows, ?_, next.few, ?_⟩
  · intro key old new found found'
    rcases get?_nextHandoffs found' with ⟨rfl, rfl⟩ | same
    · apply le_max_of_le_left
      rw [found]
      exact le_rfl
    · rw [found] at same
      cases same
      exact le_rfl
  · intro advances
    show (nextHandoffs state request localeCompare serverNow).get? request.threadKey = _
    unfold nextHandoffs
    rw [advances]
    refine get?_limitHandoffs_latest JsMap.get?_set_self fun other record found differs => ?_
    rw [JsMap.get?_set_of_ne differs] at found
    exact Nat.lt_succ_of_le (stored.handoffs other record found).most

/-- A publish that is accepted where it is admitted. -/
theorem Keeps.accepted (keeps : Keeps lc sessionId s state)
    (accepted : isAccepted (s.answer lc localeCompare sessionId input now written) = true)
    (admitted : s.Admits lc sessionId (.publish input now written)) :
    ∃ after request serverNow, normalizeServerNow now state.updatedAt = some serverNow ∧
      normalizeWriteRequest lc input serverNow = some request ∧
      s.answer lc localeCompare sessionId input now written =
        .ok (writeResponse .accepted after request.threadKey after.updatedAt) ∧
      Keeps lc sessionId (s.step lc localeCompare sessionId (.publish input now written)) after ∧
      (s.step lc localeCompare sessionId (.publish input now written)).store.file =
        some (persistedJson after) ∧
      Advance lc sessionId state after request serverNow := by
  have ghost : (s.step lc localeCompare sessionId (.publish input now written)).accepted =
      s.accepted ++ [input] := by
    show (if _ then _ else _) = _
    rw [accepted]
    rfl
  have found : s.state lc sessionId = .ok state := congrArg Prod.snd keeps.requireState
  have answer : s.answer lc localeCompare sessionId input now written =
      (publish lc localeCompare s.store sessionId input now written).2 := rfl
  have store : (s.step lc localeCompare sessionId (.publish input now written)).store =
      (publish lc localeCompare s.store sessionId input now written).1 := rfl
  rw [answer] at accepted ⊢
  rw [keeps.publish_eq] at accepted store ⊢
  rcases publishLoaded_cases lc localeCompare sessionId state input now written
    ⟨some (.valid state), s.store.file⟩ with ⟨refused, -⟩ | ⟨serverNow, request, time, read, advances,
      rfl, wrote⟩
  · rw [refused] at accepted
    cases accepted
  rw [wrote] at store ⊢
  have own := isRequest_of_read read
  obtain ⟨later, reaches⟩ := normalizeServerNow_some time
  obtain ⟨apart, grows⟩ := admitted state serverNow request found time read advances
  simp only [ViewportHandoff.advances, Bool.and_eq_true, decide_eq_true_eq] at advances
  have grows : state.updatedAt < nextUpdatedAt state serverNow := by
    rcases grows with next | ⟨value, finite, next⟩
    · exact lt_max_of_lt_right next
    · exact lt_max_of_lt_left (next.trans_le (reaches value finite))
  have advance : Advance lc sessionId state (nextState state request localeCompare sessionId
      serverNow) request serverNow :=
    keeps.stored.advance own later advances.2 apart grows
  refine ⟨_, request, serverNow, time, read, rfl, ⟨?_, ?_, ?_, ?_, ?_⟩, ?_, advance⟩
  · exact keeps.stored.nextState own later advances.2 apart
  · rw [store]
    exact .inr rfl
  · rw [store]
    exact .inr rfl
  · rw [ghost]
    exact departures_nextState keeps own
  · rw [ghost]
    intro earlier listed serverNow' le
    rcases List.mem_append.mp listed with old | new
    · exact keeps.valid earlier old serverNow' (grows.le.trans le)
    · cases List.mem_singleton.mp new
      have le : serverNow ≤ serverNow' := (le_max_left _ _).trans le
      rw [normalizeWriteRequest_later (keeps.stored.updatedAt.trans later) le read]
      rfl
  · rw [store]

theorem Server.Sound.step (sound : s.Sound lc sessionId) {event : Event}
    (admitted : s.Admits lc sessionId event) :
    (s.step lc localeCompare sessionId event).Sound lc sessionId := by
  rcases sound with ⟨own, state, keeps⟩ | ⟨other, rfl⟩
  · refine .inl ⟨own, ?_⟩
    cases event with
    | restart => exact ⟨state, keeps.restart⟩
    | publish input now written =>
      cases answer : isAccepted (s.answer lc localeCompare sessionId input now written) with
      | false => exact ⟨state, (keeps.refused answer).1⟩
      | true =>
        obtain ⟨after, -, -, -, -, -, kept, -⟩ := keeps.accepted answer admitted
        exact ⟨after, kept⟩
  · refine .inr ⟨other, ?_⟩
    cases event with
    | restart => rfl
    | publish input now written =>
      have refused : publish lc localeCompare fresh.store sessionId input now written =
          (fresh.store, .error ⟨js "Invalid viewport handoff session ID", .invalidInput⟩) := by
        simp only [publish, requireState_of_not_isId other]
      simp only [Server.step, Server.answer, refused, isAccepted, Bool.false_eq_true, if_false]

theorem sound_of_reaches
    (reached : (handoffRuns lc localeCompare sessionId).Reaches (Server.Admits lc sessionId) s) :
    s.Sound lc sessionId := by
  apply reached.invariant
  · by_cases own : IsId sessionId
    · exact .inl ⟨own, _, keeps_fresh own⟩
    · exact .inr ⟨own, rfl⟩
  · intro before event after _ sound admitted stepped
    exact Option.some.inj stepped ▸ sound.step admitted

/-! ## Runs -/

theorem Server.Sound.answers_restart (sound : s.Sound lc sessionId) (events : List Event) :
    (s.step lc localeCompare sessionId .restart).answers lc localeCompare sessionId events =
      s.answers lc localeCompare sessionId events := by
  rcases sound with ⟨-, state, keeps⟩ | ⟨-, rfl⟩
  · -- Either store gives the same state when it is asked, and holds it from then on.
    have same (input : JsonValue) (now : JsNumber) (written : Except JsString Unit) :
        publish lc localeCompare (s.step lc localeCompare sessionId .restart).store sessionId input
            now written =
          publish lc localeCompare s.store sessionId input now written := by
      have restarted : Keeps lc sessionId (s.step lc localeCompare sessionId .restart) state :=
        keeps.restart
      rw [keeps.publish_eq, restarted.publish_eq]
      rfl
    cases events with
    | nil => rfl
    | cons event rest =>
      cases event with
      | restart => rfl
      | publish input now written =>
        have answer : (s.step lc localeCompare sessionId .restart).answer lc localeCompare sessionId
            input now written = s.answer lc localeCompare sessionId input now written :=
          congrArg Prod.snd (same input now written)
        have step : (s.step lc localeCompare sessionId .restart).step lc localeCompare sessionId
            (.publish input now written) =
              s.step lc localeCompare sessionId (.publish input now written) := by
          show Server.mk _ (if isAccepted (Server.answer _ _ _ _ _ _ _) then _ else _) = _
          rw [answer]
          exact congrArg (Server.mk · _) (congrArg Prod.fst (same input now written))
        show _ :: _ = _ :: _
        rw [answer, step]
  · rfl

theorem Keeps.isDuplicate (keeps : Keeps lc sessionId s state) {earlier : JsonValue}
    (recent : earlier ∈ s.accepted.rtake MAX_RECENT_VIEWPORT_DEPARTURES)
    (read : normalizeWriteRequest lc input serverNow = some request)
    (same : departureOf input = departureOf earlier) : isDuplicate state request = true := by
  have listed : departureOf earlier ∈ (s.accepted.map departureOf).rtake
      MAX_RECENT_VIEWPORT_DEPARTURES := by
    unfold List.rtake at recent ⊢
    rw [List.length_map, ← List.map_drop]
    exact List.mem_map_of_mem recent
  rw [← keeps.departures, ← same, (isRequest_of_read read).departure] at listed
  obtain ⟨departure, inside, ids⟩ := List.mem_map.mp listed
  rw [Prod.mk.injEq, Option.some.injEq, Option.some.injEq] at ids
  refine List.any_eq_true.mpr ⟨departure, inside, ?_⟩
  rw [ids.1, ids.2]
  simp

/-- In every run of publishes and restarts whose accepted publishes are all admitted: the state can
be read, a restart changes no later answer, a publish that is not accepted changes nothing, one
that is accepted advances the state, and one that repeats a recent departure is a duplicate. -/
theorem handoffs_durable
    (reached : (handoffRuns lc localeCompare sessionId).Reaches (Server.Admits lc sessionId) s) :
    (IsId sessionId → ∃ state, s.state lc sessionId = .ok state) ∧
    (∀ events, (s.step lc localeCompare sessionId .restart).answers lc localeCompare sessionId
        events = s.answers lc localeCompare sessionId events) ∧
    (∀ input now written,
      isAccepted (s.answer lc localeCompare sessionId input now written) = false →
        (s.step lc localeCompare sessionId (.publish input now written)).state lc sessionId =
          s.state lc sessionId ∧
        (s.step lc localeCompare sessionId (.publish input now written)).store.file =
          s.store.file) ∧
    (∀ input now written,
      isAccepted (s.answer lc localeCompare sessionId input now written) = true →
      s.Admits lc sessionId (.publish input now written) →
        ∃ before after request serverNow, s.state lc sessionId = .ok before ∧
          normalizeServerNow now before.updatedAt = some serverNow ∧
          normalizeWriteRequest lc input serverNow = some request ∧
          s.answer lc localeCompare sessionId input now written =
            .ok (writeResponse .accepted after request.threadKey after.updatedAt) ∧
          (s.step lc localeCompare sessionId (.publish input now written)).state lc sessionId =
            .ok after ∧
          (s.step lc localeCompare sessionId (.publish input now written)).store.file =
            some (persistedJson after) ∧
          Advance lc sessionId before after request serverNow) ∧
    ∀ earlier ∈ s.accepted.rtake MAX_RECENT_VIEWPORT_DEPARTURES,
      ∀ state input now written serverNow, s.state lc sessionId = .ok state →
        normalizeServerNow now state.updatedAt = some serverNow →
        input = earlier ∨ departureOf input = departureOf earlier ∧
          (normalizeWriteRequest lc input serverNow).isSome →
          ∃ request, normalizeWriteRequest lc input serverNow = some request ∧
            s.answer lc localeCompare sessionId input now written =
              .ok (writeResponse .duplicate state request.threadKey serverNow) := by
  have sound := sound_of_reaches reached
  refine ⟨?_, sound.answers_restart, ?_, ?_, ?_⟩
  · intro own
    rcases sound with ⟨-, state, keeps⟩ | ⟨other, -⟩
    · exact ⟨state, congrArg Prod.snd keeps.requireState⟩
    · exact absurd own other
  · intro input now written refused
    rcases sound with ⟨-, state, keeps⟩ | ⟨other, rfl⟩
    · obtain ⟨after, file⟩ := keeps.refused refused
      refine ⟨?_, file⟩
      exact (congrArg Prod.snd after.requireState).trans (congrArg Prod.snd keeps.requireState).symm
    · have same : (fresh.step lc localeCompare sessionId (.publish input now written)).store =
          fresh.store := by
        simp only [Server.step, publish, requireState_of_not_isId other]
      unfold Server.state
      rw [same]
      exact ⟨rfl, rfl⟩
  · intro input now written accepted admitted
    rcases sound with ⟨-, state, keeps⟩ | ⟨other, rfl⟩
    · obtain ⟨after, request, serverNow, time, read, answer, kept, file, advance⟩ :=
        keeps.accepted accepted admitted
      exact ⟨state, after, request, serverNow, congrArg Prod.snd keeps.requireState, time, read,
        answer, congrArg Prod.snd kept.requireState, file, advance⟩
    · simp only [Server.answer, publish, requireState_of_not_isId other, isAccepted,
        Bool.false_eq_true] at accepted
  · intro earlier recent state input now written serverNow found time repeats
    rcases sound with ⟨-, state', keeps⟩ | ⟨other, rfl⟩
    · have own : s.state lc sessionId = .ok state' := congrArg Prod.snd keeps.requireState
      rw [found] at own
      cases own
      have later := (normalizeServerNow_some time).1
      have valid : (normalizeWriteRequest lc input serverNow).isSome ∧
          departureOf input = departureOf earlier := by
        rcases repeats with rfl | ⟨same, valid⟩
        · exact ⟨keeps.valid input (List.mem_of_mem_drop recent) serverNow later, rfl⟩
        · exact ⟨valid, same⟩
      obtain ⟨request, read⟩ := Option.isSome_iff_exists.mp valid.1
      refine ⟨request, read, ?_⟩
      have repeated := keeps.isDuplicate recent read valid.2
      show (publish lc localeCompare s.store sessionId input now written).2 = _
      rw [keeps.publish_eq, publishLoaded_duplicate time read repeated]
    · cases recent

/-- A publish of the top of a thread. -/
def departing (sourceId departureId threadKey : JsString) : Event :=
  .publish (.fields [
    (js "baseRevision", some .null), (js "baseSelectedThreadRevision", some (number 0)),
    (js "lastDeliberateActivityAt", some .null), (js "lastSelectionActivityAt", some .null),
    (js "sourceId", some (.string sourceId)), (js "departureId", some (.string departureId)),
    (js "threadKey", some (.string threadKey)), (js "selectedThreadKey", some (.string threadKey)),
    (js "position", some (.fields (positionMembers ⟨0, 100, false, none, none, none, none⟩)))])
    (.finite 1000) (.ok ())

/-- A session with one departure. -/
def departed : Server :=
  fresh.step .ascii (List.compareLex compare) (js "s1") (departing (js "a") (js "b") (js "main"))

theorem departed_reached :
    (handoffRuns .ascii (List.compareLex compare) (js "s1")).Reaches (Server.Admits .ascii (js "s1"))
      departed := by
  refine .step .start ?_ rfl
  intro state serverNow request found _ _ _
  have own : IsId (js "s1") := by
    unfold IsId
    decide +kernel
  have empty : fresh.state .ascii (js "s1") = .ok (persistedEmptyState (js "s1")) :=
    congrArg Prod.snd (keeps_fresh own).requireState
  have same : state = persistedEmptyState (js "s1") := Except.ok.inj (found.symm.trans empty)
  subst same
  refine ⟨nofun, .inr ⟨1000, rfl, ?_⟩⟩
  show (0 : ℚ) < ⌊(1000 : ℚ)⌋
  norm_num

theorem departed_durable :
    (departed.step .ascii (List.compareLex compare) (js "s1") .restart).answers .ascii
        (List.compareLex compare) (js "s1") [departing (js "d") (js "e") (js "q-2")] =
      departed.answers .ascii (List.compareLex compare) (js "s1")
        [departing (js "d") (js "e") (js "q-2")] :=
  (handoffs_durable departed_reached).2.1 [departing (js "d") (js "e") (js "q-2")]

/-- Where an id holds the character that joins two of them, the file of two accepted publishes is
rejected after a restart. -/
theorem departures_collide :
    (fresh.answers .ascii (List.compareLex compare) (js "s1")
      [departing [97, 0, 98] (js "c") (js "main"), departing (js "a") [98, 0, 99] (js "q-1"),
        departing (js "d") (js "e") (js "q-2")]).map isAccepted = [true, true, true] ∧
    (fresh.answers .ascii (List.compareLex compare) (js "s1")
      [departing [97, 0, 98] (js "c") (js "main"), departing (js "a") [98, 0, 99] (js "q-1"),
        .restart, departing (js "d") (js "e") (js "q-2")]).map isAccepted = [true, true, false] ∧
    (fresh.answers .ascii (List.compareLex compare) (js "s1")
      [departing [97, 0, 98] (js "c") (js "main"), departing (js "a") [98, 0, 99] (js "q-1"),
        .restart, departing (js "d") (js "e") (js "q-2")]).getLast? =
      some (.error ⟨js "Viewport handoff state has an unsupported or invalid schema",
        .invalidState⟩) := by
  decide +kernel

end Takode.ViewportHandoff
