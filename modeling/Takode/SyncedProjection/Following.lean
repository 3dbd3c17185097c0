import Takode.SyncedProjection.Browser
import Takode.SyncedProjection.Versions

/-!
# Browsers follow the runtime

What the runtime and the browser of a subscriber keep between them, and what a
recomputation, and the calls built from recomputations, do to both. This rests
on patches that lead a browser to the value they were made for.
-/

set_option linter.unusedSectionVars false

namespace Takode.SyncedProjection

variable {S D V P Sub A : Type} [DecidableEq Sub] [JsonSized V] [JsonSized P] [DecidableEq A]

/-! ## What a browser does with several messages -/

/-- However a browser receives the messages from its carrier, it asks for nothing and ends in a
state that meets the condition. -/
def Goes (registry : Registry V P A) : CacheState V A → List (Message V P) →
    (CacheState V A → Prop) → Prop
  | state, [], post => post state
  | state, m :: rest, post => ∀ options : ApplyOptions, options.source ≠ some .rest →
      (receive registry options state m).2.requestResync = false ∧
        Goes registry (receive registry options state m).1 rest post

namespace Goes

variable {registry : Registry V P A} {state : CacheState V A} {xs ys : List (Message V P)}
variable {post post' : CacheState V A → Prop}

theorem mono (goes : Goes registry state xs post) (weaker : ∀ state, post state → post' state) :
    Goes registry state xs post' := by
  induction xs generalizing state with
  | nil => exact weaker state goes
  | cons m rest ih => exact fun options carrier => ⟨(goes options carrier).1,
      ih (goes options carrier).2⟩

theorem append (goes : Goes registry state xs fun state => Goes registry state ys post) :
    Goes registry state (xs ++ ys) post := by
  induction xs generalizing state with
  | nil => exact goes
  | cons m rest ih => exact fun options carrier => ⟨(goes options carrier).1,
      ih (goes options carrier).2⟩

end Goes

/-- The cache of a browser after messages of its carrier, and what each came to. `options` are
those of each message, by its position from `n` on. -/
def browse (registry : Registry V P A) (options : Nat → ApplyOptions) (n : Nat)
    (state : CacheState V A) : List (Message V P) → CacheState V A × List ApplyResult
  | [] => (state, [])
  | m :: rest =>
    let received := receive registry (options n) state m
    let later := browse registry options (n + 1) received.1 rest
    (later.1, received.2 :: later.2)

theorem Goes.browse {registry : Registry V P A} {options : Nat → ApplyOptions}
    (carrier : ∀ n, (options n).source ≠ some .rest) {n : Nat} {state : CacheState V A}
    {messages : List (Message V P)} {post : CacheState V A → Prop}
    (goes : Goes registry state messages post) :
    (∀ r ∈ (browse registry options n state messages).2, r.requestResync = false) ∧
      post (browse registry options n state messages).1 := by
  induction messages generalizing n state with
  | nil => exact ⟨by simp [SyncedProjection.browse], goes⟩
  | cons m rest ih =>
    obtain ⟨calm, later⟩ := goes (options n) (carrier n)
    obtain ⟨others, ends⟩ := ih (n := n + 1) later
    exact ⟨fun r inside => (List.mem_cons.mp inside).elim (fun same => same ▸ calm) (others r), ends⟩

/-! ## Definitions and descriptors -/

/-- What the runtime and the browser rely on in a definition and the descriptor of its values. -/
structure Paired (registry : Registry V P A) (maxValueBytes : Nat)
    (definition : Definition S D V P Sub) (d : Descriptor V P) : Prop where
  registered : registry.getSyncedProjectionDescriptor definition.projection = some d
  lawful : d.Lawful
  equal : definition.valueEqual = d.equal
  valid : ∀ source key dependencies value,
    definition.selectDependencies source key = .ok dependencies →
    definition.derive source key dependencies = .ok value → d.isValue value = true
  bounded : min (definition.maxValueBytes.getD maxValueBytes) maxValueBytes ≤ d.maxValueBytes
  /-- Equal dependencies give equal values. -/
  sound : ∀ source source' key dependencies dependencies' value,
    definition.selectDependencies source key = .ok dependencies →
    definition.derive source key dependencies = .ok value →
    definition.selectDependencies source' key = .ok dependencies' →
    definition.dependenciesEqual dependencies dependencies' = true →
    ∃ value', definition.derive source' key dependencies' = .ok value' ∧
      definition.valueEqual value value' = true

/-- An entry has the value that a source gives. -/
def Matches (definition : Definition S D V P Sub) (id : EntryId) (e : CacheEntry D V)
    (source : S) : Prop :=
  ∃ dependencies value, definition.selectDependencies source id.2 = .ok dependencies ∧
    definition.derive source id.2 dependencies = .ok value ∧
      definition.valueEqual e.value value = true

/-- What holds of every entry of the cache. -/
structure Derived (definition : Definition S D V P Sub) (d : Descriptor V P) (id : EntryId)
    (e : CacheEntry D V) : Prop where
  revision : isValidSyncedProjectionRevision e.revision = true
  valid : d.isValue e.value = true
  sized : ∃ bytes, jsonUtf8ByteLength e.value = some bytes ∧ bytes ≤ d.maxValueBytes
  source : ∃ source value, definition.selectDependencies source id.2 = .ok e.dependencies ∧
    definition.derive source id.2 e.dependencies = .ok value ∧
      definition.valueEqual e.value value = true

/-- A patch leads a browser from any value equal to the one before to one equal to the one after. -/
structure Restores (d : Descriptor V P) (before after : V) (patch : P) : Prop where
  sized : ∃ bytes, jsonUtf8ByteLength patch = some bytes ∧ bytes ≤ d.maxValueBytes
  applies : ∃ applyPatch, d.applyPatch = some applyPatch ∧
    ∀ cv, d.isValue cv = true → d.equal cv before = true →
      ∃ n, applyPatch cv patch = some n ∧ d.isValue n = true ∧ d.equal n after = true

variable {registry : Registry V P A} {rt : Runtime S D V P Sub}
variable {definition : Definition S D V P Sub} {d : Descriptor V P} {id : EntryId}

theorem Derived.renewed {prior : Option (CacheEntry D V)} {source : S} {e : CacheEntry D V}
    {isNew : Bool} (paired : Paired registry rt.maxValueBytes definition d)
    (renewed : rt.Renewed definition prior source id.2 e isNew)
    (derived : ∀ p, prior = some p → Derived definition d id p)
    (small : ∀ p, prior = some p → p.revision + 1 < 2 ^ 53) :
    Derived definition d id e ∧ Matches definition id e source := by
  cases renewed with
  | sameDependencies p dependencies found selected equal =>
    have before := derived e found
    obtain ⟨source', value', selected', given', same⟩ := before.source
    obtain ⟨value, given, alike⟩ := paired.sound _ _ _ _ _ _ selected' given' selected equal
    refine ⟨before, dependencies, value, selected, given, ?_⟩
    rw [paired.equal] at same alike ⊢
    exact paired.lawful.trans _ _ _ before.valid (paired.valid _ _ _ _ selected' given')
      (paired.valid _ _ _ _ selected given) same alike
  | sameValue p dependencies value found selected given equal =>
    have before := derived p found
    exact ⟨⟨before.revision, before.valid, before.sized, source, value, selected, given, equal⟩,
      dependencies, value, selected, given, equal⟩
  | newValue dependencies value bytes selected given other sized fits =>
    have valid := paired.valid _ _ _ _ selected given
    have equal : definition.valueEqual value value = true :=
      paired.equal ▸ paired.lawful.refl value valid
    refine ⟨⟨?_, valid, ⟨bytes, sized, Nat.le_trans fits paired.bounded⟩, source, value, selected,
      given, equal⟩, dependencies, value, selected, given, equal⟩
    cases prior with
    | none => rfl
    | some p =>
      have := small p rfl
      simp only [isValidSyncedProjectionRevision, Option.map_some, Option.getD_some,
        Bool.and_eq_true, decide_eq_true_eq]
      omega

/-! ## The two sides -/

/-- What the runtime side of a run keeps. `rest` are the entries a call has still to recompute. -/
structure Sound (registry : Registry V P A) (outside : Outside S Sub) (since : EntryId → List S)
    (rest : List EntryId) (rt : Runtime S D V P Sub) : Prop where
  generation : isValidSyncedProjectionIdentity rt.generation = true
  registered : ∀ p definition, rt.definitions.get? p = some definition →
    isValidSyncedProjectionIdentity p = true ∧ definition.projection = p ∧
      ∃ d, Paired registry rt.maxValueBytes definition d
  entry : ∀ id e, rt.cache.get? id = some e →
    isValidSyncedProjectionIdentity id.2 = true ∧ (outside.resolveSource id).isSome = true ∧
      ∃ definition d, rt.definitions.get? id.1 = some definition ∧
        Paired registry rt.maxValueBytes definition d ∧ Derived definition d id e ∧
          (rt.dirty.has id = false → ∃ source ∈ since id, Matches definition id e source)
  pending : ∀ id, rt.pending.has id = true → rt.dirty.has id = true
  subscribed : ∀ subscriber ids id, rt.subscribers.get? subscriber = some ids →
    ids.has id = true → rt.cache.has id = true ∧
      (rt.dirty.has id = true → rt.pending.has id = true ∨ id ∈ rest)
  current : ∀ id source, outside.resolveSource id = some source → source ∈ since id

/-- What is still to be published restores, and its revision is a safe integer. -/
structure Ready (registry : Registry V P A) (outside : Outside S Sub)
    (rt : Runtime S D V P Sub) : Prop where
  patches : ∀ id definition d source prior e createPatch patch, rt.dirty.has id = true →
    rt.definitions.get? id.1 = some definition →
    registry.getSyncedProjectionDescriptor id.1 = some d →
    outside.resolveSource id = some source → rt.cache.get? id = some prior →
    rt.Renewed definition (some prior) source id.2 e true →
    definition.createPatch = some createPatch →
    createPatch prior.value e.value = .ok (some patch) → Restores d prior.value e.value patch
  revisions : ∀ id e, rt.dirty.has id = true → rt.cache.get? id = some e → e.revision + 1 < 2 ^ 53

/-- What the browser of a subscriber keeps, which has been sent the messages. -/
structure Synced (registry : Registry V P A) (rt : Runtime S D V P Sub) (subscriber : Sub)
    (messages : List (Message V P)) (state : CacheState V A) : Prop where
  behind : ∀ id w, state.versions.get? id = some w → w.generation = rt.generation ∧
    ∃ e, rt.cache.get? id = some e ∧
      ∀ d, registry.getSyncedProjectionDescriptor id.1 = some d →
        w.revision < e.revision ∨ w.revision = e.revision ∧ Holds d state id w e.value
  values : ∀ id cv d, state.values.get? id = some cv →
    registry.getSyncedProjectionDescriptor id.1 = some d → d.isValue cv = true
  follows : ∀ ids id, rt.subscribers.get? subscriber = some ids → ids.has id = true →
    ∃ e, rt.cache.get? id = some e ∧
      ∀ d, registry.getSyncedProjectionDescriptor id.1 = some d →
        Holds d state id ⟨rt.generation, e.revision⟩ e.value
  caught : ∀ m ∈ messages, ∃ w, state.versions.get? m.id = some w ∧
    m.version.revision ≤ w.revision

/-- A call changed one entry at most, and took subscriptions away at most. -/
structure Touches (id : EntryId) (rt rt' : Runtime S D V P Sub) : Prop where
  generation : rt'.generation = rt.generation
  others : ∀ other, other ≠ id → rt'.cache.get? other = rt.cache.get? other
  entry : ∀ p, rt.cache.get? id = some p → ∃ e, rt'.cache.get? id = some e ∧ p.Before e
  subscribers : ∀ subscriber ids', rt'.subscribers.get? subscriber = some ids' →
    ∃ ids, rt.subscribers.get? subscriber = some ids ∧
      ∀ other, ids'.has other = true → ids.has other = true

namespace Synced


variable {rt' : Runtime S D V P Sub} {subscriber : Sub} {messages : List (Message V P)}
variable {state state' : CacheState V A}

theorem behind_touched (synced : Synced registry rt subscriber messages state)
    (touches : Touches id rt rt') {other : EntryId} {w : Version}
    (held : state.versions.get? other = some w) : w.generation = rt'.generation ∧
      ∃ e, rt'.cache.get? other = some e ∧
        ∀ d, registry.getSyncedProjectionDescriptor other.1 = some d →
          w.revision < e.revision ∨ w.revision = e.revision ∧ Holds d state other w e.value := by
  obtain ⟨generation, p, found, before⟩ := synced.behind other w held
  refine ⟨generation.trans touches.generation.symm, ?_⟩
  by_cases same : other = id
  · subst same
    obtain ⟨e, found', moved⟩ := touches.entry p found
    refine ⟨e, found', fun d known => ?_⟩
    rcases before d known with less | ⟨equal, holds⟩ <;> rcases moved with less' | ⟨equal', value⟩
    · exact .inl (Nat.lt_trans less less')
    · exact .inl (equal' ▸ less)
    · exact .inl (equal ▸ less')
    · exact .inr ⟨equal.trans equal', value ▸ holds⟩
  · exact ⟨p, (touches.others other same).trans found, before⟩

/-- A call that sends a browser nothing changes no version it follows. -/
theorem silent (synced : Synced registry rt subscriber messages state)
    (touches : Touches id rt rt')
    (same : ∀ ids', rt'.subscribers.get? subscriber = some ids' → ids'.has id = true →
      ∀ p e, rt.cache.get? id = some p → rt'.cache.get? id = some e →
        p.revision = e.revision ∧ p.value = e.value) :
    Synced registry rt' subscriber messages state := by
  refine ⟨fun other w held => synced.behind_touched touches held, synced.values,
    fun ids' other listed inside => ?_, synced.caught⟩
  obtain ⟨ids, before, kept⟩ := touches.subscribers subscriber ids' listed
  obtain ⟨p, found, holds⟩ := synced.follows ids other before (kept other inside)
  by_cases own : other = id
  · subst own
    obtain ⟨e, found', -⟩ := touches.entry p found
    obtain ⟨revision, value⟩ := same ids' listed inside p e found found'
    refine ⟨e, found', fun d known => ?_⟩
    rw [touches.generation, ← revision, ← value]
    exact holds d known
  · refine ⟨p, (touches.others other own).trans found, fun d known => ?_⟩
    rw [touches.generation]
    exact holds d known

/-- A browser that got the new version of the entry follows again. -/
theorem receives (synced : Synced registry rt subscriber messages state)
    (touches : Touches id rt rt') {e : CacheEntry D V} (found : rt'.cache.get? id = some e)
    (known : registry.getSyncedProjectionDescriptor id.1 = some d)
    (holds : Holds d state' id ⟨rt'.generation, e.revision⟩ e.value) (rest : Else id state state')
    {m : Message V P} (own : m.id = id) (revision : m.version.revision = e.revision) :
    Synced registry rt' subscriber (messages ++ [m]) state' := by
  refine ⟨fun other w held => ?_, fun other cv d' inside known' => ?_,
    fun ids' other listed inside => ?_, fun m' sent => ?_⟩
  · by_cases same : other = id
    · subst same
      cases holds.version.symm.trans held
      refine ⟨rfl, e, found, fun d' known' => .inr ⟨rfl, ?_⟩⟩
      cases known.symm.trans known'
      exact holds
    · rw [(rest other same).2.1] at held
      obtain ⟨generation, p, found', before⟩ := synced.behind_touched touches held
      refine ⟨generation, p, found', fun d' known' => (before d' known').imp_right ?_⟩
      exact fun ⟨equal, held'⟩ => ⟨equal, held'.mono same rest⟩
  · by_cases same : other = id
    · subst same
      cases known.symm.trans known'
      obtain ⟨cv', found', valid, -⟩ := holds.value
      cases found'.symm.trans inside
      exact valid
    · exact synced.values other cv d' ((rest other same).2.2 ▸ inside) known'
  · by_cases same : other = id
    · subst same
      refine ⟨e, found, fun d' known' => ?_⟩
      cases known.symm.trans known'
      exact holds
    · obtain ⟨ids, before, kept⟩ := touches.subscribers subscriber ids' listed
      obtain ⟨p, found', held⟩ := synced.follows ids other before (kept other inside)
      refine ⟨p, (touches.others other same).trans found', fun d' known' => ?_⟩
      rw [touches.generation]
      exact (held d' known').mono same rest
  · rcases List.mem_append.mp sent with old | new
    · obtain ⟨w, held, least⟩ := synced.caught m' old
      by_cases same : m'.id = id
      · rw [same] at held ⊢
        refine ⟨_, holds.version, Nat.le_trans least ?_⟩
        obtain ⟨-, p, found', before⟩ := synced.behind_touched touches held
        cases found.symm.trans found'
        rcases before d known with less | ⟨equal, -⟩
        · exact Nat.le_of_lt less
        · exact Nat.le_of_eq equal
      · exact ⟨w, (rest _ same).2.1.trans held, least⟩
    · cases List.mem_singleton.mp new
      exact ⟨_, own ▸ holds.version, Nat.le_of_eq revision⟩

end Synced

/-! ## Recomputation -/

/-- The messages a subscriber is sent by deliveries. -/
def messagesFor (subscriber : Sub) (delivered : List (Delivery V P Sub)) : List (Message V P) :=
  (delivered.filter fun d => d.subscriber = subscriber).map fun d => .update d.update

theorem messagesFor_append (subscriber : Sub) (xs ys : List (Delivery V P Sub)) :
    messagesFor subscriber (xs ++ ys) = messagesFor subscriber xs ++ messagesFor subscriber ys := by
  simp [messagesFor]

/-- What a part of a call does to both sides. -/
structure Worked (registry : Registry V P A) (outside : Outside S Sub) (since : EntryId → List S)
    (rest : List EntryId) (rt rt' : Runtime S D V P Sub) (delivered : List (Delivery V P Sub)) :
    Prop where
  sound : Sound registry outside since rest rt'
  ready : Ready registry outside rt'
  goes : ∀ subscriber messages state, Synced registry rt subscriber messages state →
    Goes registry state (messagesFor subscriber delivered)
      (Synced registry rt' subscriber (messages ++ messagesFor subscriber delivered))
  pending : ∀ other, rt'.pending.has other = true → rt.pending.has other = true
  detached : ∀ subscriber, rt.subscribers.get? subscriber = none →
    rt'.subscribers.get? subscriber = none

theorem Worked.trans {outside : Outside S Sub} {since : EntryId → List S} {rest rest' : List EntryId}
    {rt' rt'' : Runtime S D V P Sub} {xs ys : List (Delivery V P Sub)}
    (first : Worked registry outside since rest rt rt' xs)
    (second : Worked registry outside since rest' rt' rt'' ys) :
    Worked registry outside since rest' rt rt'' (xs ++ ys) := by
  refine ⟨second.sound, second.ready, fun subscriber messages state synced => ?_,
    fun other has => first.pending other (second.pending other has),
    fun subscriber none => second.detached subscriber (first.detached subscriber none)⟩
  rw [messagesFor_append]
  apply Goes.append
  refine (first.goes subscriber messages state synced).mono fun state' synced' => ?_
  rw [← List.append_assoc]
  exact second.goes subscriber _ state' synced'

section Recompute

variable {outside : Outside S Sub} {since : EntryId → List S} {rest : List EntryId}
variable {rt' : Runtime S D V P Sub} {e : CacheEntry D V} {source : S}

/-- A runtime after an entry was stored, apart from its subscribers. -/
structure Stored (id : EntryId) (e : CacheEntry D V) (rt rt' : Runtime S D V P Sub) : Prop where
  generation : rt'.generation = rt.generation
  maxValueBytes : rt'.maxValueBytes = rt.maxValueBytes
  definitions : rt'.definitions = rt.definitions
  cache : rt'.cache = rt.cache.set id e
  dirty : rt'.dirty = rt.dirty.delete id
  pending : rt'.pending = rt.pending
  subscribers : ∀ subscriber ids', rt'.subscribers.get? subscriber = some ids' →
    ∃ ids, rt.subscribers.get? subscriber = some ids ∧
      ∀ other, ids'.has other = true → ids.has other = true

theorem Stored.others (stored : Stored id e rt rt') {other : EntryId} (away : other ≠ id) :
    rt'.cache.get? other = rt.cache.get? other := by
  simp [stored.cache, away]

theorem Sound.stored (sound : Sound registry outside since (id :: rest) rt)
    (registered : rt.definitions.get? id.1 = some definition)
    (paired : Paired registry rt.maxValueBytes definition d)
    (found : outside.resolveSource id = some source)
    (valid : isValidSyncedProjectionIdentity id.2 = true) (derived : Derived definition d id e)
    (matching : Matches definition id e source) (quiet : rt.pending.has id = false)
    (stored : Stored id e rt rt') : Sound registry outside since rest rt' := by
  refine ⟨stored.generation ▸ sound.generation, ?_, fun other e' inside => ?_, fun other has => ?_,
    fun subscriber ids' other listed inside => ?_, sound.current⟩
  · rw [stored.definitions, stored.maxValueBytes]
    exact sound.registered
  · rw [stored.definitions, stored.maxValueBytes, stored.dirty]
    by_cases same : other = id
    · subst same
      have entry : e = e' := by simpa [stored.cache] using inside
      subst entry
      exact ⟨valid, by simp [found], definition, d, registered, paired, derived,
        fun _ => ⟨source, sound.current _ _ found, matching⟩⟩
    · rw [stored.others same] at inside
      simpa [same] using sound.entry other e' inside
  · rw [stored.pending] at has
    rw [stored.dirty, JsSet.has_delete]
    have away : other ≠ id := by
      rintro rfl
      simp [quiet] at has
    simpa [away] using sound.pending other has
  · obtain ⟨ids, before, kept⟩ := stored.subscribers subscriber ids' listed
    rw [stored.dirty, stored.pending, JsSet.has_delete]
    by_cases same : other = id
    · subst same
      exact ⟨by simp [stored.cache, JsMap.has], by simp⟩
    · obtain ⟨cached, queued⟩ := sound.subscribed subscriber ids other before (kept other inside)
      refine ⟨by simpa [JsMap.has, stored.others same] using cached, fun dirty => ?_⟩
      refine (queued (by simpa [same] using dirty)).imp_right fun inside => ?_
      exact (List.mem_cons.mp inside).resolve_left same

theorem renewed_of_max {prior : Option (CacheEntry D V)} {key : JsString} {isNew : Bool}
    (same : rt'.maxValueBytes = rt.maxValueBytes)
    (renewed : rt'.Renewed definition prior source key e isNew) :
    rt.Renewed definition prior source key e isNew := by
  cases renewed with
  | sameDependencies p dependencies found selected equal =>
    exact .sameDependencies e dependencies found selected equal
  | sameValue p dependencies value found selected given equal =>
    exact .sameValue p dependencies value found selected given equal
  | newValue dependencies value bytes selected given other sized fits =>
    exact .newValue dependencies value bytes selected given other sized (same ▸ fits)

/-- What is no longer dirty need not be ready. -/
theorem Ready.clean (ready : Ready registry outside rt)
    (maxValueBytes : rt'.maxValueBytes = rt.maxValueBytes)
    (definitions : rt'.definitions = rt.definitions)
    (dirty : ∀ other, rt'.dirty.has other = true → rt.dirty.has other = true ∧
      rt'.cache.get? other = rt.cache.get? other) : Ready registry outside rt' := by
  refine ⟨fun other definition d source prior e createPatch patch isDirty registered known found
    cached renewed => ?_, fun other e isDirty cached => ?_⟩
  · obtain ⟨before, same⟩ := dirty other isDirty
    exact ready.patches other definition d source prior e createPatch patch before
      (definitions ▸ registered) known found (same ▸ cached) (renewed_of_max maxValueBytes renewed)
  · obtain ⟨before, same⟩ := dirty other isDirty
    exact ready.revisions other e before (same ▸ cached)

theorem Ready.stored (ready : Ready registry outside rt) (stored : Stored id e rt rt') :
    Ready registry outside rt' := by
  refine ready.clean stored.maxValueBytes stored.definitions fun other isDirty => ?_
  rw [stored.dirty, JsSet.has_delete, Bool.and_eq_true, decide_eq_true_eq] at isDirty
  exact ⟨isDirty.2, stored.others isDirty.1⟩

theorem knownDescriptor_of_sound (sound : Sound registry outside since rest rt)
    (registered : rt.definitions.get? id.1 = some definition)
    (paired : Paired registry rt.maxValueBytes definition d)
    (valid : isValidSyncedProjectionIdentity id.2 = true) (derived : Derived definition d id e) :
    knownDescriptor registry id ⟨rt.generation, e.revision⟩ = some d := by
  obtain ⟨projection, own, -⟩ := sound.registered _ _ registered
  rw [knownDescriptor, if_pos (by simp [projection, valid, sound.generation, derived.revision]),
    ← own, paired.registered]

theorem parseKnownEnvelope_of_sound (sound : Sound registry outside since rest rt)
    (registered : rt.definitions.get? id.1 = some definition)
    (paired : Paired registry rt.maxValueBytes definition d)
    (valid : isValidSyncedProjectionIdentity id.2 = true) (derived : Derived definition d id e) :
    parseKnownEnvelope registry (rt.envelope id e) = some d := by
  obtain ⟨bytes, sized, fits⟩ := derived.sized
  refine Option.filter_eq_some_iff.mpr
    ⟨knownDescriptor_of_sound sound registered paired valid derived, ?_⟩
  simp [Runtime.envelope, derived.valid, sized, fits]

/-- An update leads a browser that holds the version before to the value after. -/
theorem updates_lead {p : CacheEntry D V} {update : Update V P}
    (updates : rt.Updates definition id e (some p) update)
    (parsed : parseKnownEnvelope registry (rt.envelope id e) = some d)
    (known : knownDescriptor registry id ⟨rt.generation, e.revision⟩ = some d)
    (lawful : d.Lawful) (valid : d.isValue e.value = true)
    (restores : ∀ createPatch patch, definition.createPatch = some createPatch →
      createPatch p.value e.value = .ok (some patch) → Restores d p.value e.value patch) :
    parseKnownUpdate registry update = some d ∧
      ∀ cv, d.isValue cv = true → d.equal cv p.value = true →
        ∃ n, nextValue d cv update = some n ∧ d.isValue n = true ∧ d.equal n e.value = true := by
  cases updates with
  | full => exact ⟨parsed, fun cv _ _ => ⟨e.value, rfl, valid, lawful.refl _ valid⟩⟩
  | patch q createPatch patch same patching patched =>
    cases same
    obtain ⟨⟨bytes, sized, fits⟩, applyPatch, applying, leads⟩ :=
      restores createPatch patch patching patched
    refine ⟨Option.filter_eq_some_iff.mpr ⟨known, by simp [applying, sized, fits]⟩,
      fun cv own alike => ?_⟩
    obtain ⟨n, applied, result⟩ := leads cv own alike
    exact ⟨n, by simp [nextValue, applying, applied], result⟩

theorem messagesFor_published (subscriber : Sub) (update : Update V P) (value : V) :
    messagesFor subscriber (((rt.audience outside definition id).filter fun m =>
        outside.sendable m.1).map fun m => ⟨m.1, update, value⟩) =
      ((rt.subscribers.get? subscriber).toList.filter fun ids =>
        ids.has id && (outside.resolveSource id).any
          (definition.authorizeSubscription subscriber id.2) && outside.sendable subscriber).map
        fun _ => .update update := by
  have own : rt.subscribers.entries.filter (fun e => decide (e.1 = subscriber)) = _ :=
    JsMap.filter_find rt.subscribers.nodup
  have swap : ((rt.audience outside definition id).filter fun m => outside.sendable m.1).filter
      (fun m => decide (m.1 = subscriber)) = ((rt.subscribers.entries.filter fun e =>
        decide (e.1 = subscriber)).filter fun m => m.2.has id && (outside.resolveSource id).any
          (definition.authorizeSubscription m.1 id.2) && outside.sendable m.1) := by
    simp only [Runtime.audience, List.filter_filter]
    congr 1
    funext m
    simp only [Bool.and_comm, Bool.and_left_comm]
  rw [messagesFor, List.filter_map, List.map_map]
  simp only [Function.comp_def]
  rw [swap, own, List.filter_map, List.map_map]
  rfl

/-- A part of a call that sends nothing. -/
theorem Worked.silent (id : EntryId) (sound : Sound registry outside since rest rt')
    (ready : Ready registry outside rt') (touches : Touches id rt rt')
    (same : ∀ subscriber ids', rt'.subscribers.get? subscriber = some ids' →
      ids'.has id = true → ∀ p e, rt.cache.get? id = some p → rt'.cache.get? id = some e →
        p.revision = e.revision ∧ p.value = e.value)
    (pending : ∀ other, rt'.pending.has other = true → rt.pending.has other = true) :
    Worked registry outside since rest rt rt' [] := by
  refine ⟨sound, ready, fun subscriber messages state synced => ?_, pending,
    fun subscriber none => ?_⟩
  · show Synced registry rt' subscriber (messages ++ []) state
    rw [List.append_nil]
    exact synced.silent touches (same subscriber)
  · cases listed : rt'.subscribers.get? subscriber with
    | none => rfl
    | some ids' =>
      obtain ⟨ids, before, -⟩ := touches.subscribers subscriber ids' listed
      exact absurd (none.symm.trans before) (by simp)

theorem Stored.touches (stored : Stored id e rt rt')
    (before : ∀ p, rt.cache.get? id = some p → p.Before e) : Touches id rt rt' :=
  ⟨stored.generation, fun _ away => stored.others away,
    fun p found => ⟨e, by simp [stored.cache], before p found⟩, stored.subscribers⟩

theorem stored_store (rt : Runtime S D V P Sub) (id : EntryId) (e : CacheEntry D V) :
    Stored id e rt (rt.store id e) :=
  ⟨rfl, rfl, rfl, rfl, rfl, rfl, fun _ ids' listed => ⟨ids', listed, fun _ has => has⟩⟩

/-- An entry that is not new has the version and the value of the one before. -/
theorem Renewed.old {prior : Option (CacheEntry D V)} {key : JsString}
    (renewed : rt.Renewed definition prior source key e false) :
    ∃ p, prior = some p ∧ p.revision = e.revision ∧ p.value = e.value := by
  cases renewed with
  | sameDependencies p dependencies found => exact ⟨e, found, rfl, rfl⟩
  | sameValue p dependencies value found => exact ⟨p, found, rfl, rfl⟩

theorem keptBy_subset {subscriber : Sub} {ids ids' : JsSet EntryId}
    (kept : Runtime.keptBy outside definition id subscriber ids = some ids') (other : EntryId)
    (has : ids'.has other = true) : ids.has other = true := by
  unfold Runtime.keptBy at kept
  split at kept
  · cases kept
    exact has
  · split at kept
    · cases kept
      rw [JsSet.has_delete, Bool.and_eq_true] at has
      exact has.2
    · split at kept
      · cases kept
        exact has
      · cases kept

theorem keptBy_has {subscriber : Sub} {ids ids' : JsSet EntryId}
    (kept : Runtime.keptBy outside definition id subscriber ids = some ids')
    (has : ids'.has id = true) :
    (ids.has id && (outside.resolveSource id).any
      (definition.authorizeSubscription subscriber id.2) && outside.sendable subscriber) = true := by
  unfold Runtime.keptBy at kept
  split at kept
  · cases kept
    simp_all
  · split at kept
    · cases kept
      simp at has
    · split at kept
      · simp_all
      · cases kept

theorem worked_recompute (publishing : Bool)
    (sound : Sound registry outside since (id :: rest) rt) (ready : Ready registry outside rt)
    (quiet : rt.pending.has id = false) (valid : isValidSyncedProjectionIdentity id.2 = true)
    (stale : rt.cache.has id = true → rt.dirty.has id = true)
    (published : publishing = false → ∀ subscriber ids,
      rt.subscribers.get? subscriber = some ids → ids.has id = false)
    (calm : (rt.recompute outside id publishing).runtime.Calm) :
    Worked registry outside since rest rt (rt.recompute outside id publishing).runtime
      (rt.recompute outside id publishing).delivered := by
  have kinds := rt.recompute_cases outside id publishing
  generalize rt.recompute outside id publishing = called at kinds calm
  have unstored : (∀ e, rt.cache.get? id ≠ some e) → Sound registry outside since rest rt := by
    intro none
    refine ⟨sound.generation, sound.registered, sound.entry, sound.pending,
      fun subscriber ids other listed inside => ?_, sound.current⟩
    obtain ⟨cached, queued⟩ := sound.subscribed subscriber ids other listed inside
    refine ⟨cached, fun dirty => (queued dirty).imp_right fun member => ?_⟩
    rcases List.mem_cons.mp member with rfl | later
    · obtain ⟨e, found⟩ := JsMap.has_eq_true.mp cached
      exact absurd found (none e)
    · exact later
  have renewing {definition : Definition S D V P Sub} {source : S} {e : CacheEntry D V}
      {isNew : Bool} (registered : rt.definitions.get? id.1 = some definition)
      (found : outside.resolveSource id = some source)
      (renewed : rt.Renewed definition (rt.cache.get? id) source id.2 e isNew) :
      ∃ d, Paired registry rt.maxValueBytes definition d ∧ Derived definition d id e ∧
        ∀ rt', Stored id e rt rt' → Sound registry outside since rest rt' := by
    obtain ⟨-, -, d, paired⟩ := sound.registered _ _ registered
    obtain ⟨derived, matching⟩ := Derived.renewed paired renewed
      (fun p cached => by
        obtain ⟨-, -, definition', d', registered', paired', derived, -⟩ := sound.entry id p cached
        cases registered.symm.trans registered'
        cases paired.registered.symm.trans paired'.registered
        exact derived)
      (fun p cached => ready.revisions id p (stale (JsMap.has_eq_true.mpr ⟨p, cached⟩)) cached)
    exact ⟨d, paired, derived, fun rt' stored =>
      sound.stored registered paired found valid derived matching quiet stored⟩
  cases kinds with
  | unregistered none =>
    refine .silent id (unstored fun e cached => ?_) ready ⟨rfl, fun _ _ => rfl,
      fun p found => ⟨p, found, .refl p⟩, fun _ ids listed => ⟨ids, listed, fun _ has => has⟩⟩
      (fun _ _ _ _ p e found found' => ?_) fun _ has => has
    · obtain ⟨-, -, definition, d, registered, -⟩ := sound.entry id e cached
      exact absurd (none.symm.trans registered) (by simp)
    · cases found.symm.trans found'
      exact ⟨rfl, rfl⟩
  | gone none =>
    have absent : rt.cache.get? id = Option.none := by
      cases cached : rt.cache.get? id with
      | none => rfl
      | some e => exact absurd (sound.entry id e cached).2.1 (by simp [none])
    have same (other : EntryId) : (Runtime.drop { rt with dirty := rt.dirty.delete id }
        id).cache.get? other = rt.cache.get? other := by
      by_cases own : other = id
      · simp [Runtime.drop, own, absent]
      · simp [Runtime.drop, own]
    have before := unstored (by simp [absent])
    refine .silent id ⟨before.generation, before.registered, fun other e found => ?_,
      fun other has => ?_, fun subscriber ids other listed inside => ?_, before.current⟩
      (ready.clean rfl rfl fun other dirty => ⟨?_, same other⟩)
      ⟨rfl, fun other _ => same other, fun p found => ⟨p, (same id).trans found, .refl p⟩,
        fun _ ids listed => ⟨ids, listed, fun _ has => has⟩⟩
      (fun _ _ _ _ p e found _ => absurd (absent.symm.trans found) (by simp)) fun _ has => has
    · have away : other ≠ id := by
        rintro rfl
        exact absurd (absent.symm.trans ((same other).symm.trans found)) (by simp)
      obtain ⟨ok, source, definition, d, registered, paired, derived, fresh⟩ :=
        before.entry other e ((same other).symm.trans found)
      refine ⟨ok, source, definition, d, registered, paired, derived, fun clean => fresh ?_⟩
      simpa [Runtime.drop, away] using clean
    · have away : other ≠ id := by
        rintro rfl
        exact absurd (quiet.symm.trans has) (by simp)
      simpa [Runtime.drop, away] using before.pending other has
    · obtain ⟨cached, queued⟩ := before.subscribed subscriber ids other listed inside
      refine ⟨by simpa [JsMap.has, same] using cached, fun dirty => queued ?_⟩
      simp only [Runtime.drop, JsSet.has_delete, Bool.and_eq_true] at dirty
      exact dirty.2
    · simp only [Runtime.drop, JsSet.has_delete, Bool.and_eq_true] at dirty
      exact dirty.2
  | failed => simp [Runtime.Calm] at calm
  | kept definition source e registered found renewed =>
    obtain ⟨d, paired, derived, after⟩ := renewing registered found renewed
    obtain ⟨p, cached, revision, value⟩ := Renewed.old renewed
    have stored := stored_store rt id e
    refine .silent id (after _ stored) (ready.stored stored)
      (stored.touches fun p' cached' => ?_) (fun _ _ _ _ p' e' cached' found' => ?_)
      fun _ has => has
    · cases cached.symm.trans cached'
      exact .inr ⟨revision, value⟩
    · cases cached.symm.trans cached'
      have same : e = e' := by simpa [Runtime.store] using found'
      exact same ▸ ⟨revision, value⟩
  | unpublished definition source e registered found renewed quietly =>
    obtain ⟨d, paired, derived, after⟩ := renewing registered found renewed
    have stored := stored_store rt id e
    refine .silent id (after _ stored) (ready.stored stored)
      (stored.touches fun p cached => renewed.before cached) (fun subscriber ids listed has => ?_)
      fun _ has => has
    exact absurd has (by simp [published quietly subscriber ids listed])
  | unpatched => simp [Runtime.Calm] at calm
  | unsized => simp [Runtime.Calm] at calm
  | published definition source e update registered found renewed loudly updating =>
    obtain ⟨d, paired, derived, after⟩ := renewing registered found renewed
    obtain ⟨own, version, -⟩ := (Runtime.updateFor_cases updating).shows
    have stored : Stored id e rt { rt.store id e with
        subscribers := rt.subscribers.filterMap (Runtime.keptBy outside definition id)
        deliveryErrors := rt.deliveryErrors +
          (rt.audience outside definition id).countP fun m => !outside.sendable m.1 } := by
      refine ⟨rfl, rfl, rfl, rfl, rfl, rfl, fun subscriber ids' listed => ?_⟩
      rw [JsMap.get?_filterMap] at listed
      obtain ⟨ids, before, kept⟩ := Option.bind_eq_some_iff.mp listed
      exact ⟨ids, before, fun other has => keptBy_subset kept other has⟩
    have touches := stored.touches fun p cached => renewed.before cached
    have known : registry.getSyncedProjectionDescriptor id.1 = some d :=
      (sound.registered _ _ registered).2.1 ▸ paired.registered
    refine ⟨after _ stored, ready.stored stored, fun subscriber messages state synced => ?_,
      fun _ has => has, fun subscriber none => by simp [JsMap.get?_filterMap, none]⟩
    rw [messagesFor_published]
    cases listed : rt.subscribers.get? subscriber with
    | none =>
      show Synced registry _ subscriber (messages ++ []) state
      rw [List.append_nil]
      refine synced.silent touches fun ids' listed' => ?_
      simp [JsMap.get?_filterMap, listed] at listed'
    | some ids =>
      by_cases sent : (ids.has id && (outside.resolveSource id).any
          (definition.authorizeSubscription subscriber id.2) && outside.sendable subscriber) = true
      · simp only [Option.toList_some, List.filter_cons, sent, if_true, List.filter_nil,
          List.map_cons, List.map_nil]
        intro options carrier
        have has : ids.has id = true := by
          simp only [Bool.and_eq_true] at sent
          exact sent.1.1
        obtain ⟨p, cached, holds⟩ := synced.follows ids id listed has
        have next : e.revision = p.revision + 1 := by
          cases renewed with
          | newValue => simp [cached]
        have dirty := stale (JsMap.has_eq_true.mpr ⟨p, cached⟩)
        rw [cached] at renewed
        obtain ⟨parsed, leads⟩ := updates_lead (cached ▸ Runtime.updateFor_cases updating)
          (parseKnownEnvelope_of_sound sound registered paired valid derived)
          (knownDescriptor_of_sound sound registered paired valid derived) paired.lawful
          derived.valid fun createPatch patch patching patched => ready.patches id definition d
            source p e createPatch patch dirty registered known found cached renewed patching patched
        have before : Holds d state update.id ⟨update.version.generation, p.revision⟩ p.value := by
          rw [own, version]
          exact holds d known
        obtain ⟨quietly, after', others⟩ := update_holds options parsed paired.lawful
          before (by rw [version]; exact next) leads derived.valid
        rw [own, version] at after'
        rw [own] at others
        exact ⟨quietly, synced.receives touches (by simp [Runtime.store]) known after' others
          own (by rw [show (Message.update update).version = update.version from rfl, version])⟩
      · simp only [Option.toList_some, List.filter_cons, sent]
        show Synced registry _ subscriber (messages ++ []) state
        rw [List.append_nil]
        refine synced.silent touches fun ids' listed' has => ?_
        rw [JsMap.get?_filterMap, listed] at listed'
        exact absurd (keptBy_has listed' has) sent

end Recompute

/-! ## Calls -/

section Calls

variable {outside : Outside S Sub} {since : EntryId → List S}
variable {rt' : Runtime S D V P Sub}

/-- A part of a call that only changes what is queued. -/
theorem Worked.queued {rest rest' : List EntryId} (sound : Sound registry outside since rest rt)
    (ready : Ready registry outside rt) (generation : rt'.generation = rt.generation)
    (maxValueBytes : rt'.maxValueBytes = rt.maxValueBytes)
    (definitions : rt'.definitions = rt.definitions) (cache : rt'.cache = rt.cache)
    (dirty : rt'.dirty = rt.dirty) (subscribers : rt'.subscribers = rt.subscribers)
    (fewer : ∀ id, rt'.pending.has id = true → rt.pending.has id = true)
    (queued : ∀ subscriber ids id, rt.subscribers.get? subscriber = some ids →
      ids.has id = true → rt.pending.has id = true ∨ id ∈ rest →
        rt'.pending.has id = true ∨ id ∈ rest') :
    Worked registry outside since rest' rt rt' [] := by
  refine .silent ([], []) ⟨generation ▸ sound.generation, ?_, ?_, ?_, ?_, sound.current⟩
    (ready.clean maxValueBytes definitions fun other has => ⟨dirty ▸ has, by rw [cache]⟩)
    ⟨generation, fun _ _ => by rw [cache], fun p found => ⟨p, cache ▸ found, .refl p⟩,
      fun _ ids listed => ⟨ids, subscribers ▸ listed, fun _ has => has⟩⟩
    (fun _ _ _ _ p e found found' => ?_) fewer
  · rw [definitions, maxValueBytes]
    exact sound.registered
  · rw [definitions, maxValueBytes, cache, dirty]
    exact sound.entry
  · rw [dirty]
    exact fun id has => sound.pending id (fewer id has)
  · rw [subscribers, cache, dirty]
    intro subscriber ids id listed inside
    obtain ⟨cached, due⟩ := sound.subscribed subscriber ids id listed inside
    exact ⟨cached, fun isDirty => queued subscriber ids id listed inside (due isDirty)⟩
  · rw [cache, found] at found'
    cases found'
    exact ⟨rfl, rfl⟩

theorem Worked.refl (sound : Sound registry outside since [] rt)
    (ready : Ready registry outside rt) : Worked registry outside since [] rt rt [] :=
  .queued sound ready rfl rfl rfl rfl rfl rfl (fun _ has => has) fun _ _ _ _ _ due => due

theorem worked_getSnapshot (sound : Sound registry outside since [] rt)
    (ready : Ready registry outside rt) (id : EntryId)
    (calm : (rt.getSnapshot outside id).runtime.Calm) :
    Worked registry outside since [] rt (rt.getSnapshot outside id).runtime
      (rt.getSnapshot outside id).delivered := by
  unfold Runtime.getSnapshot at calm ⊢
  split
  · exact .refl sound ready
  · rename_i valid
    simp only [valid] at calm
    split
    · rename_i due
      rw [if_pos due] at calm
      have taken : Worked registry outside since [id] rt { rt with
          pending := rt.pending.delete id } [] := by
        refine .queued sound ready rfl rfl rfl rfl rfl rfl (fun other has => ?_)
          fun _ _ other _ _ queued => ?_
        · rw [JsSet.has_delete, Bool.and_eq_true] at has
          exact has.2
        · by_cases same : other = id
          · exact .inr (List.mem_singleton.mpr same)
          · simpa [same] using queued
      simp only [Bool.or_eq_true, Bool.not_eq_true', not_or, Bool.not_eq_false] at valid
      refine taken.trans (worked_recompute _ taken.sound taken.ready (by simp) valid.2
        (fun cached => ?_) (fun quietly subscriber ids listed => ?_) calm)
      · simpa [cached] using due
      · have none := (Bool.or_eq_false_iff.mp quietly).2
        have := List.any_eq_false.mp none ids
          (List.mem_map.mpr ⟨_, JsMap.mem_entries.mpr listed, rfl⟩)
        simpa using this
    · exact .refl sound ready

theorem worked_resolve (sound : Sound registry outside since [] rt)
    (ready : Ready registry outside rt) (accepted : List (EntryId × Option Version))
    (calm : (Runtime.resolve outside rt accepted).runtime.Calm) :
    Worked registry outside since [] rt (Runtime.resolve outside rt accepted).runtime
      (Runtime.resolve outside rt accepted).delivered := by
  induction accepted generalizing rt with
  | nil => exact .refl sound ready
  | cons first rest ih =>
    have worked := worked_getSnapshot sound ready first.1 (Runtime.calm_of_resolve calm)
    exact worked.trans (ih worked.sound worked.ready calm)

theorem worked_recomputeAll {batch : List EntryId}
    (sound : Sound registry outside since batch rt) (ready : Ready registry outside rt)
    (quiet : ∀ id, rt.pending.has id = false) (distinct : batch.Nodup)
    (valid : ∀ id ∈ batch, isValidSyncedProjectionIdentity id.2 = true)
    (dirty : ∀ id ∈ batch, rt.dirty.has id = true)
    (calm : (Runtime.recomputeAll outside rt batch).runtime.Calm) :
    Worked registry outside since [] rt (Runtime.recomputeAll outside rt batch).runtime
      (Runtime.recomputeAll outside rt batch).delivered := by
  induction batch generalizing rt with
  | nil => exact .refl sound ready
  | cons id rest ih =>
    obtain ⟨fresh, others⟩ := List.nodup_cons.mp distinct
    have worked := worked_recompute true sound ready (quiet id)
      (valid id List.mem_cons_self) (fun _ => dirty id List.mem_cons_self) (by simp)
      (Runtime.calm_of_recomputeAll calm)
    refine worked.trans (ih worked.sound worked.ready (fun other => ?_) others
      (fun other inside => valid other (List.mem_cons_of_mem _ inside)) (fun other inside => ?_) calm)
    · cases has : (rt.recompute outside id true).runtime.pending.has other with
      | false => rfl
      | true => exact absurd ((quiet other).symm.trans (worked.pending other has)) (by simp)
    · exact Runtime.recompute_dirty true (fun same => fresh (same ▸ inside))
        (dirty other (List.mem_cons_of_mem _ inside))

end Calls

end Takode.SyncedProjection
