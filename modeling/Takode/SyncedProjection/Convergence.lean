import Takode.SyncedProjection.Following

/-!
# Browsers converge

A browser that applies everything its subscriber is sent, in order, never has to
ask for a resync, and when nothing is pending it holds for each subscribed key
what the runtime has cached, which is what a source the key had since its last
invalidation gives.
-/

set_option linter.unusedSectionVars false

namespace Takode.SyncedProjection

variable {S D V P Sub A : Type} [DecidableEq Sub] [JsonSized V] [JsonSized P] [DecidableEq A]
variable {registry : Registry V P A} {rt rt' : Runtime S D V P Sub} {id : EntryId}
variable {outside : Outside S Sub} {since : EntryId → List S}

/-! ## Flushes -/

section Flush

theorem Runtime.hasSubscribersForEntryId_of {subscriber : Sub} {ids : JsSet EntryId}
    (listed : rt.subscribers.get? subscriber = some ids) (has : ids.has id = true) :
    rt.hasSubscribersForEntryId id = true :=
  List.any_eq_true.mpr ⟨ids, List.mem_map.mpr ⟨_, JsMap.mem_entries.mpr listed, rfl⟩, has⟩

theorem Runtime.hasSubscribersForEntryId_cases (has : rt.hasSubscribersForEntryId id = true) :
    ∃ subscriber ids, rt.subscribers.get? subscriber = some ids ∧ ids.has id = true := by
  obtain ⟨ids, inside, own⟩ := List.any_eq_true.mp has
  obtain ⟨⟨subscriber, ids'⟩, listed, rfl⟩ := List.mem_map.mp inside
  exact ⟨subscriber, ids', JsMap.mem_entries.mp listed, own⟩

theorem Worked.scheduleFlush {delivered : List (Delivery V P Sub)}
    (worked : Worked registry outside since [] rt rt' delivered) :
    Worked registry outside since [] rt rt'.scheduleFlush delivered := by
  unfold Runtime.scheduleFlush
  split
  · exact worked
  · rw [← List.append_nil delivered]
    exact worked.trans (.queued worked.sound worked.ready rfl rfl rfl rfl rfl rfl
      (fun _ has => has) fun _ _ _ _ _ due => due)

theorem Worked.flushed {delivered : List (Delivery V P Sub)}
    (worked : Worked registry outside since [] rt rt' delivered) :
    Worked registry outside since [] rt { rt' with flushing := false }.scheduleFlush delivered := by
  apply Worked.scheduleFlush
  rw [← List.append_nil delivered]
  exact worked.trans (.queued worked.sound worked.ready rfl rfl rfl rfl rfl rfl
    (fun _ has => has) fun _ _ _ _ _ due => due)

theorem worked_flush (sound : Sound registry outside since [] rt)
    (ready : Ready registry outside rt) (calm : (rt.flush outside).runtime.Calm) :
    Worked registry outside since [] rt (rt.flush outside).runtime (rt.flush outside).delivered := by
  unfold Runtime.flush at calm ⊢
  dsimp only at calm ⊢
  split
  · exact .queued sound ready rfl rfl rfl rfl rfl rfl (fun _ has => has) fun _ _ _ _ _ due => due
  · rename_i busy
    rw [if_neg busy] at calm
    have inBatch {subscriber : Sub} {ids : JsSet EntryId} {id : EntryId}
        (listed : rt.subscribers.get? subscriber = some ids) (has : ids.has id = true)
        (queued : rt.pending.has id = true) :
        id ∈ rt.pending.keys.filter rt.hasSubscribersForEntryId :=
      List.mem_filter.mpr ⟨(JsSet.mem_keys_iff _ _).mpr queued,
        Runtime.hasSubscribersForEntryId_of listed has⟩
    split
    · rename_i empty
      refine .queued sound ready rfl rfl rfl rfl rfl rfl (by simp)
        fun _ _ _ listed has due => ?_
      rcases due with queued | none
      · have inside := inBatch listed has queued
        rw [List.isEmpty_iff.mp empty] at inside
        exact absurd inside List.not_mem_nil
      · exact .inr none
    · rename_i some
      rw [if_neg some] at calm
      have taken : Worked registry outside since
          (rt.pending.keys.filter rt.hasSubscribersForEntryId) rt
          { rt with flushScheduled := false, pending := ∅, flushing := true } [] := by
        refine .queued sound ready rfl rfl rfl rfl rfl rfl (by simp)
          fun _ _ _ listed has due => .inr ?_
        exact inBatch listed has (due.resolve_right List.not_mem_nil)
      have quiet := Runtime.calm_scheduleFlush.mp calm
      have inPending {id : EntryId}
          (inside : id ∈ rt.pending.keys.filter rt.hasSubscribersForEntryId) :
          rt.pending.has id = true :=
        (JsSet.mem_keys_iff _ _).mp (List.mem_filter.mp inside).1
      have done := taken.trans (worked_recomputeAll taken.sound taken.ready (by simp)
        (rt.pending.nodup.filter _) (fun id inside => ?_)
        (fun id inside => sound.pending id (inPending inside)) quiet)
      · exact done.flushed
      · obtain ⟨subscriber, ids, listed, has⟩ :=
          Runtime.hasSubscribersForEntryId_cases (List.mem_filter.mp inside).2
        obtain ⟨e, cached⟩ :=
          JsMap.has_eq_true.mp (sound.subscribed subscriber ids id listed has).1
        exact (sound.entry id e cached).1

end Flush

/-! ## Snapshots and subscriptions -/

section Subscriptions

variable {subscriber : Sub} {messages : List (Message V P)} {state : CacheState V A}

/-- An envelope that is returned shows the entry in the cache. -/
theorem Runtime.Shows.envelope {e : Envelope V} (shows : rt.Shows (P := P) (.full e) e.value) :
    ∃ c, rt.cache.get? e.id = some c ∧ e = rt.envelope e.id c := by
  obtain ⟨c, found, value, version⟩ := shows.cached
  obtain ⟨generation, revision⟩ := Version.mk.inj version
  refine ⟨c, found, ?_⟩
  cases e
  simp_all [Runtime.envelope, Envelope.id]

theorem Touches.refl (rt : Runtime S D V P Sub) (id : EntryId) : Touches id rt rt :=
  ⟨rfl, fun _ _ => rfl, fun p found => ⟨p, found, .refl p⟩,
    fun _ ids listed => ⟨ids, listed, fun _ has => has⟩⟩

/-- A browser takes any snapshot of what is cached. -/
theorem Synced.snapshot {rest : List EntryId} (sound : Sound registry outside since rest rt)
    (synced : Synced registry rt subscriber messages state) {e : CacheEntry D V}
    (found : rt.cache.get? id = some e) {m : Message V P}
    (kind : m = .snapshot (rt.envelope id e) ∨ m = .resynced (rt.envelope id e)) :
    Goes registry state [m] (Synced registry rt subscriber (messages ++ [m])) := by
  intro options carrier
  obtain ⟨valid, -, definition, d, registered, paired, derived, -⟩ := sound.entry id e found
  have known : registry.getSyncedProjectionDescriptor id.1 = some d :=
    (sound.registered _ _ registered).2.1 ▸ paired.registered
  have taken (options : ApplyOptions) (carrier : options.source ≠ some .rest) :=
    snapshot_holds state
      (parseKnownEnvelope_of_sound sound registered paired valid derived) paired.lawful carrier
      (fun cv inside => synced.values id cv d inside known) fun w held _ => by
        obtain ⟨-, e', found', behind⟩ := synced.behind id w held
        cases found.symm.trans found'
        exact behind d known
  rcases kind with rfl | rfl
  · obtain ⟨calm, holds, others⟩ := taken options carrier
    exact ⟨calm, synced.receives (.refl rt id) found known holds others rfl rfl⟩
  · obtain ⟨calm, holds, others⟩ :=
      taken { options with acceptSameRevisionConflict := true } carrier
    exact ⟨calm, synced.receives (.refl rt id) found known holds others rfl rfl⟩

theorem Synced.snapshots {rest : List EntryId} (sound : Sound registry outside since rest rt)
    (synced : Synced registry rt subscriber messages state) (returned : List (Envelope V))
    (shown : ∀ e ∈ returned, rt.Shows (P := P) (.full e) e.value) :
    Goes registry state (returned.map Message.snapshot)
      (Synced registry rt subscriber (messages ++ returned.map Message.snapshot)) := by
  induction returned generalizing messages state with
  | nil =>
    show Synced registry rt subscriber (messages ++ []) state
    rwa [List.append_nil]
  | cons e later ih =>
    obtain ⟨c, found, same⟩ := (shown e List.mem_cons_self).envelope
    show Goes registry state ([Message.snapshot e] ++ later.map Message.snapshot) _
    apply Goes.append
    refine (synced.snapshot sound found (.inl (congrArg _ same))).mono fun state' synced' => ?_
    have goes := ih synced' fun e' inside => shown e' (List.mem_cons_of_mem _ inside)
    rwa [List.append_assoc] at goes

/-- A subscriber may be attached to what it was sent in its current version. -/
theorem Synced.attach (synced : Synced registry rt subscriber messages state) {ids : JsSet EntryId}
    (sent : ∀ id, ids.has id = true → ∃ e, rt.cache.get? id = some e ∧
      ∃ m ∈ messages, m.id = id ∧ m.version.revision = e.revision) :
    Synced registry { rt with subscribers := rt.subscribers.set subscriber ids } subscriber
      messages state := by
  refine ⟨synced.behind, synced.values, fun ids' id listed has => ?_, synced.caught⟩
  rw [JsMap.get?_set_self] at listed
  cases listed
  obtain ⟨e, found, m, inside, own, revision⟩ := sent id has
  refine ⟨e, found, fun d known => ?_⟩
  obtain ⟨w, held, least⟩ := synced.caught m inside
  rw [own] at held
  obtain ⟨generation, e', found', behind⟩ := synced.behind id w held
  cases found.symm.trans found'
  rcases behind d known with less | ⟨equal, holds⟩
  · omega
  · rw [← equal, ← generation]
    exact holds

theorem Sound.attach (sound : Sound registry outside since [] rt) {ids : JsSet EntryId}
    (fresh : ∀ id, ids.has id = true → rt.cache.has id = true ∧ rt.dirty.has id = false) :
    Sound registry outside since []
      { rt with subscribers := rt.subscribers.set subscriber ids } := by
  refine ⟨sound.generation, sound.registered, sound.entry, sound.pending,
    fun other ids' id listed has => ?_, sound.current⟩
  by_cases same : other = subscriber
  · rw [same, JsMap.get?_set_self] at listed
    cases listed
    obtain ⟨cached, clean⟩ := fresh id has
    exact ⟨cached, fun dirty => absurd (clean.symm.trans dirty) (by simp)⟩
  · rw [JsMap.get?_set_of_ne same] at listed
    exact sound.subscribed other ids' id listed has

/-- Subscriptions that are taken away disturb nobody. -/
theorem Worked.detach (sound : Sound registry outside since [] rt)
    (ready : Ready registry outside rt) {subscribers : JsMap Sub (JsSet EntryId)}
    (fewer : ∀ subscriber ids', subscribers.get? subscriber = some ids' →
      ∃ ids, rt.subscribers.get? subscriber = some ids ∧
        ∀ id, ids'.has id = true → ids.has id = true) :
    Worked registry outside since [] rt { rt with subscribers := subscribers } [] := by
  refine .silent ([], []) ⟨sound.generation, sound.registered, sound.entry, sound.pending,
    fun subscriber ids' id listed has => ?_, sound.current⟩
    (ready.clean rfl rfl fun _ dirty => ⟨dirty, rfl⟩)
    ⟨rfl, fun _ _ => rfl, fun p found => ⟨p, found, .refl p⟩, fewer⟩
    (fun _ _ _ _ p e found found' => ?_) fun _ has => has
  · obtain ⟨ids, before, more⟩ := fewer subscriber ids' listed
    exact sound.subscribed subscriber ids id before (more id has)
  · cases found.symm.trans found'
    exact ⟨rfl, rfl⟩

end Subscriptions

/-! ## Runs -/

namespace System

variable {s : System S D V P Sub}

/-- The messages a subscriber got, oldest first. -/
def messagesTo (s : System S D V P Sub) (subscriber : Sub) : List (Message V P) :=
  (s.issued.filter fun i => i.recipient = some subscriber).map Issued.message

theorem messagesTo_issue (rt : Runtime S D V P Sub) (delivered : List (Delivery V P Sub))
    (recipient : Option Sub) (kind : Envelope V → Message V P) (returned : List (Envelope V))
    (subscriber : Sub) :
    (s.issue rt delivered recipient kind returned).messagesTo subscriber =
      s.messagesTo subscriber ++ messagesFor subscriber delivered ++
        if recipient = some subscriber then returned.map kind else [] := by
  simp only [messagesTo, issue, List.filter_append, List.map_append, messagesFor]
  congr 1
  · congr 1
    rw [List.filter_map, List.map_map]
    simp [Function.comp_def]
  · rw [List.filter_map, List.map_map]
    split <;> rename_i own <;> simp [Function.comp_def, own]

/-- The runtime and the browsers of its subscribers agree. -/
structure Converging (registry : Registry V P A) (s : System S D V P Sub) : Prop where
  sound : Sound registry s.outside s.since [] s.runtime
  goes : ∀ subscriber, Goes registry {} (s.messagesTo subscriber)
    (Synced registry s.runtime subscriber (s.messagesTo subscriber))

theorem Converging.issue (converging : s.Converging registry) (recipient : Option Sub)
    (kind : Envelope V → Message V P) {delivered : List (Delivery V P Sub)}
    {returned : List (Envelope V)}
    (worked : Worked registry s.outside s.since [] s.runtime rt delivered)
    (answered : ∀ subscriber messages state, recipient = some subscriber →
      Synced registry rt subscriber messages state →
        Goes registry state (returned.map kind)
          (Synced registry rt subscriber (messages ++ returned.map kind))) :
    (s.issue rt delivered recipient kind returned).Converging registry := by
  refine ⟨worked.sound, fun subscriber => ?_⟩
  rw [messagesTo_issue]
  have goes := ((converging.goes subscriber).mono fun state synced =>
    worked.goes subscriber _ state synced).append
  split
  · rename_i own
    exact (goes.mono fun state synced => answered subscriber _ state own synced).append
  · rwa [List.append_nil]

/-- A subscriber is attached to what it was sent in its current version. -/
theorem Converging.attach (converging : s.Converging registry) {subscriber : Sub}
    {ids : JsSet EntryId} (sent : ∀ id, ids.has id = true → s.runtime.dirty.has id = false ∧
      ∃ e, s.runtime.cache.get? id = some e ∧ ∃ m ∈ s.messagesTo subscriber,
        m.id = id ∧ m.version.revision = e.revision) :
    Converging registry { s with runtime := { s.runtime with
      subscribers := s.runtime.subscribers.set subscriber ids } } := by
  refine ⟨converging.sound.attach fun id has => ?_, fun other =>
    (converging.goes other).mono fun state synced => ?_⟩
  · obtain ⟨clean, e, cached, -⟩ := sent id has
    exact ⟨JsMap.has_eq_true.mpr ⟨e, cached⟩, clean⟩
  · by_cases same : other = subscriber
    · subst same
      exact synced.attach fun id has => (sent id has).2
    · refine ⟨synced.behind, synced.values, fun ids' id listed has => ?_, synced.caught⟩
      rw [JsMap.get?_set_of_ne same] at listed
      exact synced.follows ids' id listed has

/-- The subscriber knows only versions it was sent. -/
def Honest (s : System S D V P Sub) (subscriber : Sub) (requested : List (Option Subscription)) :
    Prop :=
  ∀ request ∈ requested, ∀ r, request = some r → ∀ version, r.known = some version →
    ∃ m ∈ s.messagesTo subscriber, m.id = (r.projection, r.key) ∧ m.version = version

/-- What a run has to meet: sources do not disappear, no key is removed, definitions fit the
descriptors of the browsers, known versions were received, and patches restore. -/
def Steady (registry : Registry V P A) (s : System S D V P Sub) : Call S D V P Sub → Prop
  | .change outside =>
    ∀ id, (s.outside.resolveSource id).isSome = true → (outside.resolveSource id).isSome = true
  | .register definition => ∃ d, Paired registry s.runtime.maxValueBytes definition d
  | .removeKey _ => False
  | .getSnapshot _ | .resync _ _ | .flush => Ready registry s.outside s.runtime
  | .replaceSubscriptions subscriber requested =>
    Ready registry s.outside s.runtime ∧ s.Honest subscriber requested
  | .invalidate _ _ | .beginTransaction | .endTransaction | .removeSubscriber _ => True

theorem Converging.replaceSubscriptions (converging : s.Converging registry)
    (ready : Ready registry s.outside s.runtime) {subscriber : Sub}
    {requested : List (Option Subscription)} (honest : s.Honest subscriber requested)
    (calm : (s.runtime.replaceSubscriptions s.outside subscriber requested).runtime.Calm) :
    (s.issue (s.runtime.replaceSubscriptions s.outside subscriber requested).runtime
      (s.runtime.replaceSubscriptions s.outside subscriber requested).delivered (some subscriber)
      .snapshot (s.runtime.replaceSubscriptions s.outside subscriber
        requested).result.snapshots).Converging registry := by
  have detached : Worked registry s.outside s.since [] s.runtime { s.runtime with
      subscribers := s.runtime.subscribers.delete subscriber } [] := by
    refine .detach converging.sound ready fun other ids' listed => ⟨ids', ?_, fun _ has => has⟩
    rw [JsMap.get?_delete] at listed
    split at listed
    · cases listed
    · exact listed
  let accepted := s.runtime.accept s.outside subscriber []
    (requested.take s.runtime.maxSubscriptionsPerSubscriber)
  have quiet : (Runtime.resolve s.outside { s.runtime with
    subscribers := s.runtime.subscribers.delete subscriber } accepted).runtime.Calm := calm
  have worked := detached.trans (worked_resolve detached.sound detached.ready accepted quiet)
  have called := Runtime.called_resolve { s.runtime with
    subscribers := s.runtime.subscribers.delete subscriber } s.outside accepted
    (s.runtime.accept_nodup s.outside subscriber [] _).1
  let resolved := Runtime.resolve s.outside { s.runtime with
    subscribers := s.runtime.subscribers.delete subscriber } accepted
  have returned : ∀ e ∈ (resolved.result.filter fun r => !r.2).map Prod.fst,
      resolved.runtime.Shows (P := P) (.full e) e.value := fun e inside =>
    (called.returned e ((List.filter_sublist.map Prod.fst).subset inside)).2
  have issued := converging.issue (some subscriber) Message.snapshot worked
    fun other messages state _ synced => synced.snapshots worked.sound _ returned
  refine issued.attach fun id has => ?_
  obtain ⟨⟨snapshot, current⟩, inside, rfl⟩ := List.mem_map.mp ((JsSet.has_ofList_iff _).mp has)
  refine ⟨Runtime.resolve_cleans quiet inside, ?_⟩
  obtain ⟨e, found, value, version⟩ :=
    (called.returned snapshot (List.mem_map.mpr ⟨_, inside, rfl⟩)).2.cached
  refine ⟨e, found, ?_⟩
  have revision : snapshot.revision = e.revision := congrArg Version.revision version
  rw [messagesTo_issue, if_pos rfl]
  cases current with
  | true =>
    have known := Runtime.resolve_known _ s.outside _ inside
    have requested := List.mem_of_mem_take (Runtime.accept_requested _ _ _ _ _ known)
    obtain ⟨m, before, own, same⟩ := honest _ requested _ rfl _ rfl
    refine ⟨m, ?_, own, by rw [same]; exact revision⟩
    exact List.mem_append_left _ (List.mem_append_left _ before)
  | false =>
    refine ⟨.snapshot snapshot, List.mem_append_right _ ?_, rfl, revision⟩
    exact List.mem_map.mpr ⟨snapshot, List.mem_map.mpr ⟨_, List.mem_filter.mpr
      ⟨inside, rfl⟩, rfl⟩, rfl⟩

/-- A change that leaves the cache and the subscriptions alone. -/
theorem Converging.frame (converging : s.Converging registry)
    (sound : Sound registry outside since [] rt) (generation : rt.generation = s.runtime.generation)
    (cache : rt.cache = s.runtime.cache) (subscribers : rt.subscribers = s.runtime.subscribers) :
    Converging registry
      { s with runtime := rt, outside := outside, since := since } := by
  refine ⟨sound, fun subscriber => (converging.goes subscriber).mono fun state synced => ?_⟩
  refine ⟨?_, synced.values, ?_, synced.caught⟩
  · rw [generation, cache]
    exact synced.behind
  · rw [generation, cache, subscribers]
    exact synced.follows

theorem Converging.scheduleFlush {s : System S D V P Sub} {rt : Runtime S D V P Sub}
    {since : EntryId → List S}
    (converging : Converging registry { s with runtime := rt, since := since }) :
    Converging registry { s with runtime := rt.scheduleFlush, since := since } := by
  unfold Runtime.scheduleFlush
  split
  · exact converging
  · obtain ⟨generation, registered, entry, pending, subscribed, current⟩ := converging.sound
    exact converging.frame ⟨generation, registered, entry, pending, subscribed, current⟩ rfl rfl rfl

theorem Converging.change (converging : s.Converging registry) {outside : Outside S Sub}
    (stays : ∀ id, (s.outside.resolveSource id).isSome = true →
      (outside.resolveSource id).isSome = true) :
    Converging registry { s with
      outside := outside, since := fun id => s.since id ++ (outside.resolveSource id).toList } := by
  obtain ⟨generation, registered, entry, pending, subscribed, current⟩ := converging.sound
  refine converging.frame ⟨generation, registered, fun id e found => ?_, pending, subscribed,
    fun id source found => ?_⟩ rfl rfl rfl
  · obtain ⟨valid, resolved, definition, d, own, paired, derived, fresh⟩ := entry id e found
    refine ⟨valid, stays id resolved, definition, d, own, paired, derived, fun clean => ?_⟩
    obtain ⟨source, inside, same⟩ := fresh clean
    exact ⟨source, List.mem_append_left _ inside, same⟩
  · exact List.mem_append_right _ (by simp [found])

theorem Converging.register (converging : s.Converging registry)
    {definition : Definition S D V P Sub} {d : Descriptor V P}
    (paired : Paired registry s.runtime.maxValueBytes definition d)
    (added : s.runtime.register definition = some rt) :
    Converging registry { s with runtime := rt } := by
  unfold Runtime.register at added
  split at added
  · cases added
  rename_i valid
  split at added
  · cases added
  rename_i fresh
  split at added
  · cases added
  cases added
  obtain ⟨generation, registered, entry, pending, subscribed, current⟩ := converging.sound
  simp only [Bool.not_eq_true', Bool.not_eq_false] at valid
  have keeps {p : JsString} {other : Definition S D V P Sub}
      (found : s.runtime.definitions.get? p = some other) :
      (s.runtime.definitions.set definition.projection definition).get? p = some other := by
    rw [JsMap.get?_set, if_neg ?_, found]
    rintro rfl
    exact fresh (JsMap.has_eq_true.mpr ⟨other, found⟩)
  refine converging.frame ⟨generation, fun p other found => ?_, fun id e found => ?_, pending,
    subscribed, current⟩ rfl rfl rfl
  · rw [JsMap.get?_set] at found
    split at found
    · rename_i own
      cases found
      exact ⟨own ▸ valid, own.symm, d, paired⟩
    · exact registered p other found
  · obtain ⟨valid, resolved, other, d', own, rest⟩ := entry id e found
    exact ⟨valid, resolved, other, d', keeps own, rest⟩

theorem Converging.invalidate (converging : s.Converging registry) (projection key : JsString) :
    Converging registry { s with
      runtime := s.runtime.invalidate projection key
      since := Function.update s.since (projection, key)
        (s.outside.resolveSource (projection, key)).toList } := by
  obtain ⟨generation, registered, entry, pending, subscribed, current⟩ := converging.sound
  have now : ∀ id source, s.outside.resolveSource id = some source →
      source ∈ Function.update s.since (projection, key)
        (s.outside.resolveSource (projection, key)).toList id := by
    intro id source found
    by_cases own : id = (projection, key)
    · subst own
      simp [found]
    · rw [Function.update_of_ne own]
      exact current id source found
  unfold Runtime.invalidate
  split
  · rename_i unknown
    refine converging.frame ⟨generation, registered, fun id e found => ?_, pending, subscribed,
      now⟩ rfl rfl rfl
    obtain ⟨valid, resolved, definition, d, own, rest⟩ := entry id e found
    have away : id ≠ (projection, key) := by
      rintro rfl
      simp [JsMap.has, own, valid] at unknown
    rw [Function.update_of_ne away]
    exact ⟨valid, resolved, definition, d, own, rest⟩
  · apply Converging.scheduleFlush
    refine converging.frame ⟨generation, registered, fun id e found => ?_, fun id has => ?_,
      fun subscriber ids id listed has => ?_, now⟩ rfl rfl rfl
    · obtain ⟨valid, resolved, definition, d, own, paired, derived, fresh⟩ := entry id e found
      refine ⟨valid, resolved, definition, d, own, paired, derived, fun clean => ?_⟩
      have away : id ≠ (projection, key) := by
        rintro rfl
        simp at clean
      rw [Function.update_of_ne away]
      exact fresh (by simpa [away] using clean)
    · by_cases own : id = (projection, key)
      · simp [own]
      · split at has
        · simpa [own] using pending id (by simpa [own] using has)
        · simpa [own] using pending id has
    · obtain ⟨cached, due⟩ := subscribed subscriber ids id listed has
      refine ⟨cached, fun dirty => .inl ?_⟩
      by_cases own : id = (projection, key)
      · subst own
        have followed : s.runtime.hasSubscribersForEntryId (projection, key) = true :=
          Runtime.hasSubscribersForEntryId_of listed has
        simp [followed]
      · have before := (due (by simpa [own] using dirty)).resolve_right List.not_mem_nil
        split
        · simp [before]
        · exact before

theorem Converging.resync (converging : s.Converging registry)
    (ready : Ready registry s.outside s.runtime) (subscriber : Sub) (id : EntryId)
    (calm : (s.runtime.resync s.outside subscriber id).runtime.Calm) :
    (s.issue (s.runtime.resync s.outside subscriber id).runtime
      (s.runtime.resync s.outside subscriber id).delivered (some subscriber) .resynced
      (s.runtime.resync s.outside subscriber id).result.toList).Converging registry := by
  have detached {ids : JsSet EntryId} (listed : s.runtime.subscribers.get? subscriber = some ids) :
      Worked registry s.outside s.since [] s.runtime { s.runtime with
        subscribers := s.runtime.subscribers.set subscriber (ids.delete id) } [] := by
    refine .detach converging.sound ready fun other ids' inside => ?_
    by_cases same : other = subscriber
    · rw [same, JsMap.get?_set_self] at inside
      cases inside
      refine ⟨ids, same ▸ listed, fun other has => ?_⟩
      rw [JsSet.has_delete, Bool.and_eq_true] at has
      exact has.2
    · rw [JsMap.get?_set_of_ne same] at inside
      exact ⟨ids', inside, fun _ has => has⟩
  have silent {rt : Runtime S D V P Sub}
      (worked : Worked registry s.outside s.since [] s.runtime rt []) :
      (s.issue rt [] (some subscriber) .resynced []).Converging registry := by
    refine converging.issue (some subscriber) Message.resynced worked
      fun other messages state _ synced => ?_
    show Synced registry rt other (messages ++ []) state
    rwa [List.append_nil]
  unfold Runtime.resync at calm ⊢
  split
  · exact silent (.refl converging.sound ready)
  rename_i valid
  rw [if_neg valid] at calm
  split
  · exact silent (.refl converging.sound ready)
  rename_i ids listed
  simp only [listed] at calm
  split
  · exact silent (.refl converging.sound ready)
  rename_i has
  rw [if_neg has] at calm
  split
  · rename_i definition registered
    simp only [registered] at calm
    split
    · rename_i authorized
      rw [if_pos authorized] at calm
      have worked := worked_getSnapshot converging.sound ready id calm
      refine converging.issue (some subscriber) Message.resynced worked
        fun other messages state _ synced => ?_
      cases taken : (s.runtime.getSnapshot s.outside id).result with
      | none =>
        show Synced registry _ other (messages ++ []) state
        rwa [List.append_nil]
      | some snapshot =>
        have called := Runtime.called_getSnapshot s.runtime s.outside id
        obtain ⟨c, found, same⟩ := (called.returned snapshot (by simp [taken])).2.envelope
        exact synced.snapshot worked.sound found (.inr (congrArg _ same))
    · exact silent (detached listed)
  · exact silent (detached listed)

theorem calm_of_step {call : Call S D V P Sub} {s' : System S D V P Sub}
    (stepped : s.step call = some s') (calm : s'.runtime.Calm) : s.runtime.Calm := by
  cases call with
  | change => cases stepped; exact calm
  | register definition =>
    obtain ⟨rt, added, rfl⟩ := Option.map_eq_some_iff.mp stepped
    unfold Runtime.register at added
    repeat' split at added
    all_goals cases added
    exact calm
  | invalidate =>
    cases stepped
    simp only [Runtime.invalidate] at calm
    split at calm
    · exact calm
    · have before := Runtime.calm_scheduleFlush.mp calm
      exact before
  | beginTransaction => cases stepped; exact calm
  | endTransaction =>
    simp only [step] at stepped
    split at stepped
    · cases stepped
      have before := Runtime.calm_scheduleFlush.mp calm
      exact before
    · cases stepped
  | getSnapshot => cases stepped; exact Runtime.calm_of_getSnapshot calm
  | replaceSubscriptions subscriber requested =>
    cases stepped
    have before : (Runtime.resolve s.outside { s.runtime with
      subscribers := s.runtime.subscribers.delete subscriber } (s.runtime.accept s.outside subscriber
        [] (requested.take s.runtime.maxSubscriptionsPerSubscriber))).runtime.Calm := calm
    have earlier := Runtime.calm_of_resolve before
    exact earlier
  | resync => cases stepped; exact Runtime.calm_of_resync calm
  | removeSubscriber => cases stepped; exact calm
  | removeKey id =>
    cases stepped
    simp only [Runtime.removeKey] at calm
    split at calm <;> exact calm
  | flush => cases stepped; exact Runtime.calm_of_flush calm

theorem Converging.step (converging : s.Converging registry) {call : Call S D V P Sub}
    (steady : s.Steady registry call) {s' : System S D V P Sub} (stepped : s.step call = some s')
    (calm : s'.runtime.Calm) : s'.Converging registry := by
  have nobody {rt : Runtime S D V P Sub} {delivered : List (Delivery V P Sub)}
      (worked : Worked registry s.outside s.since [] s.runtime rt delivered)
      (returned : List (Envelope V)) :
      (s.issue rt delivered none .snapshot returned).Converging registry :=
    converging.issue none Message.snapshot worked fun _ _ _ none => by cases none
  cases call with
  | change outside => cases stepped; exact converging.change steady
  | register definition =>
    obtain ⟨rt, added, rfl⟩ := Option.map_eq_some_iff.mp stepped
    obtain ⟨d, paired⟩ := steady
    exact converging.register paired added
  | invalidate projection key => cases stepped; exact converging.invalidate projection key
  | beginTransaction =>
    cases stepped
    obtain ⟨generation, registered, entry, pending, subscribed, current⟩ := converging.sound
    exact converging.frame ⟨generation, registered, entry, pending, subscribed, current⟩ rfl rfl rfl
  | endTransaction =>
    simp only [System.step] at stepped
    split at stepped
    · cases stepped
      obtain ⟨generation, registered, entry, pending, subscribed, current⟩ := converging.sound
      apply Converging.scheduleFlush
      exact converging.frame ⟨generation, registered, entry, pending, subscribed, current⟩
        rfl rfl rfl
    · cases stepped
  | getSnapshot id =>
    cases stepped
    exact nobody (worked_getSnapshot converging.sound steady id calm) _
  | replaceSubscriptions subscriber requested =>
    cases stepped
    exact converging.replaceSubscriptions steady.1 steady.2 calm
  | resync subscriber id =>
    cases stepped
    exact converging.resync steady subscriber id calm
  | removeSubscriber subscriber =>
    cases stepped
    refine ⟨⟨converging.sound.generation, converging.sound.registered, converging.sound.entry,
      converging.sound.pending, fun other ids id listed has => ?_, converging.sound.current⟩,
      fun other => (converging.goes other).mono fun state synced => ⟨synced.behind, synced.values,
        fun ids id listed has => ?_, synced.caught⟩⟩
    all_goals
      simp only [Runtime.removeSubscriber, JsMap.get?_delete] at listed
      split at listed
      · cases listed
    · exact converging.sound.subscribed other ids id listed has
    · exact synced.follows ids id listed has
  | removeKey id => exact steady.elim
  | flush =>
    cases stepped
    exact nobody (worked_flush converging.sound steady calm) []

/-- The browsers of all subscribers are in step with the runtime. -/
structure Converged (registry : Registry V P A) (s : System S D V P Sub) : Prop where
  /-- Whatever a browser knows of its own requests, it asks for nothing. -/
  calm : ∀ subscriber (options : Nat → ApplyOptions), (∀ n, (options n).source ≠ some .rest) →
    ∀ r ∈ (browse registry options 0 {} (s.messagesTo subscriber)).2, r.requestResync = false
  caughtUp : (∀ id, s.runtime.pending.has id = false) →
    ∀ subscriber (options : Nat → ApplyOptions), (∀ n, (options n).source ≠ some .rest) →
      ∀ ids id, s.runtime.subscribers.get? subscriber = some ids → ids.has id = true →
        ∃ definition d e, s.runtime.definitions.get? id.1 = some definition ∧
          registry.getSyncedProjectionDescriptor id.1 = some d ∧
          s.runtime.cache.get? id = some e ∧
          Holds d (browse registry options 0 {} (s.messagesTo subscriber)).1 id
            ⟨s.runtime.generation, e.revision⟩ e.value ∧
          ∃ source ∈ s.since id, Matches definition id e source

theorem Converging.converged (converging : s.Converging registry) : s.Converged registry := by
  refine ⟨fun subscriber options carrier => ((converging.goes subscriber).browse carrier).1,
    fun idle subscriber options carrier ids id listed has => ?_⟩
  have synced := ((converging.goes subscriber).browse (n := 0) carrier).2
  obtain ⟨e, found, holds⟩ := synced.follows ids id listed has
  obtain ⟨-, due⟩ := converging.sound.subscribed subscriber ids id listed has
  obtain ⟨-, -, definition, d, registered, paired, -, fresh⟩ := converging.sound.entry id e found
  have known : registry.getSyncedProjectionDescriptor id.1 = some d :=
    (converging.sound.registered _ _ registered).2.1 ▸ paired.registered
  have clean : s.runtime.dirty.has id = false := by
    cases dirty : s.runtime.dirty.has id with
    | false => rfl
    | true =>
      have pending := (due dirty).resolve_right List.not_mem_nil
      exact absurd ((idle id).symm.trans pending) (by simp)
  exact ⟨definition, d, e, registered, known, found, holds d known, fresh clean⟩

end System

theorem browsers_converge {generation : JsString} {maxValueBytes maxSubscriptions : Nat}
    (valid : isValidSyncedProjectionIdentity generation = true) {s : System S D V P Sub}
    (reached : (runtimeRuns S D V P Sub generation maxValueBytes maxSubscriptions
      outside).Reaches (System.Steady registry) s) (calm : s.runtime.Calm) :
    s.Converged registry := by
  have converging : s.runtime.Calm → s.Converging registry := by
    apply reached.invariant
    · intro _
      refine ⟨⟨valid, ?_, ?_, ?_, ?_, ?_⟩, fun subscriber => ⟨?_, ?_, ?_, ?_⟩⟩
      all_goals simp [runtimeRuns, System.messagesTo]
    · intro before call after _ ih steady stepped calm
      exact (ih (System.calm_of_step stepped calm)).step steady stepped calm
  exact (converging calm).converged

/-! ### A projection with patches -/

/-- A projection of a Boolean source whose patches are the new values. -/
def switching : Definition Bool Bool Bool Bool Nat :=
  createDirectSyncedProjectionDefinition [1] [[2]] (· == ·) 10 (fun source _ => .ok source)
    (fun _ _ _ => true) (some fun _ value => .ok (some value))

def switchingDescriptor : Descriptor Bool Bool :=
  ⟨10, fun _ => true, (· == ·), fun _ value => value, some fun _ patch => some patch⟩

def switchingRegistry : Registry Bool Bool Bool :=
  ⟨fun projection => if projection = [1] then some switchingDescriptor else none,
    fun value => value⟩

theorem switching_paired (maxValueBytes : Nat) :
    Paired switchingRegistry maxValueBytes switching switchingDescriptor where
  registered := rfl
  lawful := ⟨by decide, by decide, by decide⟩
  equal := rfl
  valid := fun _ _ _ _ _ _ => rfl
  bounded := Nat.min_le_left _ _
  sound := fun _ _ _ _ _ _ _ given selected same => ⟨_, rfl, by
    cases given
    exact same⟩

/-- The runs of a runtime where only `switching` is registered. -/
def OnlySwitching (s : System Bool Bool Bool Bool Nat) (call : Call Bool Bool Bool Bool Nat) :
    Prop :=
  s.Steady switchingRegistry call ∧ ∀ definition, call = .register definition →
    definition = switching

/-- What of a step can be decided: revisions are small and known versions were received. -/
def smallAndHonest (s : System Bool Bool Bool Bool Nat) (call : Call Bool Bool Bool Bool Nat) :
    Bool :=
  s.runtime.cache.entries.all (fun e => e.2.revision < 100) &&
    match call with
    | .replaceSubscriptions subscriber requested => requested.all fun request =>
      request.all fun r => r.known.all fun version => (s.messagesTo subscriber).any fun m =>
        m.id = (r.projection, r.key) && m.version = version
    | _ => true

theorem switching_ready {s : System Bool Bool Bool Bool Nat}
    (only : ∀ p definition, s.runtime.definitions.get? p = some definition →
      definition = switching)
    (small : s.runtime.cache.entries.all (fun e => e.2.revision < 100) = true) :
    Ready switchingRegistry s.outside s.runtime := by
  refine ⟨fun id definition d source prior e createPatch patch _ registered known _ _ _ patching
    patched => ?_, fun id e _ cached => ?_⟩
  · cases only _ _ registered
    cases patching
    cases patched
    simp only [switchingRegistry] at known
    split at known
    · cases known
      exact ⟨by cases e.value <;> decide, _, rfl, fun cv _ _ => ⟨e.value, rfl, rfl,
        beq_self_eq_true e.value⟩⟩
    · cases known
  · have := List.all_eq_true.mp small _ (JsMap.mem_entries.mpr cached)
    simp only [decide_eq_true_eq] at this
    omega

theorem onlySwitching_of {s : System Bool Bool Bool Bool Nat}
    {call : Call Bool Bool Bool Bool Nat} {outside : Outside Bool Nat}
    (reached : (runtimeRuns Bool Bool Bool Bool Nat [7] 100 100 outside).Reaches OnlySwitching s)
    (decided : smallAndHonest s call = true)
    (register : ∀ definition, call = .register definition → definition = switching)
    (change : ∀ outside, call = .change outside → ∀ id, (outside.resolveSource id).isSome = true)
    (stays : ∀ id, call ≠ .removeKey id) : OnlySwitching s call := by
  have only : ∀ p definition, s.runtime.definitions.get? p = some definition →
      definition = switching := by
    apply reached.invariant
    · intro p definition found
      cases found
    · intro before call after _ only admitted stepped p definition found
      rcases System.step_definitions stepped with same | ⟨added, rfl, same⟩
      · exact only p definition (same ▸ found)
      · rw [same, JsMap.get?_set] at found
        split at found
        · cases found
          exact admitted.2 _ rfl
        · exact only p definition found
  obtain ⟨small, honest⟩ := Bool.and_eq_true_iff.mp decided
  have ready := switching_ready only small
  refine ⟨?_, register⟩
  cases call with
  | change outside => exact fun id _ => change outside rfl id
  | register definition =>
    cases register definition rfl
    exact ⟨_, switching_paired _⟩
  | removeKey id => exact absurd rfl (stays id)
  | getSnapshot | resync | flush => exact ready
  | replaceSubscriptions subscriber requested =>
    refine ⟨ready, fun request inside r same version known => ?_⟩
    have checked := List.all_eq_true.mp honest request inside
    rw [same] at checked
    simp only [Option.all_some, known] at checked
    obtain ⟨m, sent, equal⟩ := List.any_eq_true.mp checked
    simp only [Bool.and_eq_true, decide_eq_true_eq] at equal
    exact ⟨m, sent, equal⟩
  | invalidate | beginTransaction | endTransaction | removeSubscriber => trivial

def switchingRuns : Machine (System Bool Bool Bool Bool Nat) (Call Bool Bool Bool Bool Nat) :=
  runtimeRuns Bool Bool Bool Bool Nat [7] 100 100 ⟨fun _ => some true, fun _ => true⟩

theorem switching_reaches (P : System Bool Bool Bool Bool Nat → Prop) [DecidablePred P]
    (calls : List (Call Bool Bool Bool Bool Nat))
    (register : ∀ definition, .register definition ∈ calls → definition = switching)
    (change : ∀ outside, .change outside ∈ calls → ∀ id, (outside.resolveSource id).isSome = true)
    (stays : ∀ id, .removeKey id ∉ calls)
    (ran : (switchingRuns.run smallAndHonest switchingRuns.start calls).any
      (fun s => decide (P s)) = true) :
    ∃ s, switchingRuns.Reaches (System.Steady switchingRegistry) s ∧ P s := by
  obtain ⟨s, reached, holds⟩ := switchingRuns.exists_reaches_of_admitted smallAndHonest P calls
    (fun s reached call inside decided => onlySwitching_of reached decided
      (fun definition same => register definition (same ▸ inside))
      (fun outside same => change outside (same ▸ inside))
      fun id same => stays id (same ▸ inside)) ran
  exact ⟨s, reached.mono fun _ admitted => admitted.1, holds⟩

/-- Two subscribers get a patch, another caller reads the entry, and the first one subscribes
again while a change waits, and once more. -/
def patchingRun : List (Call Bool Bool Bool Bool Nat) :=
  [.register switching, .replaceSubscriptions 0 [some ⟨[1], [3], none⟩],
    .replaceSubscriptions 1 [some ⟨[1], [3], none⟩],
    .change ⟨fun _ => some false, fun _ => true⟩, .invalidate [1] [3], .flush,
    .getSnapshot ([1], [3]), .change ⟨fun _ => some true, fun _ => true⟩, .invalidate [1] [3],
    .replaceSubscriptions 0 [some ⟨[1], [3], some ⟨[7], 2⟩⟩],
    .replaceSubscriptions 0 [some ⟨[1], [3], some ⟨[7], 3⟩⟩]]

theorem patching_converges :
    ∃ s, switchingRuns.Reaches (System.Steady switchingRegistry) s ∧ s.runtime.Calm ∧
      s.runtime.pending = ∅ ∧
      s.messagesTo 0 = [.snapshot ⟨[1], [3], [7], 1, true⟩, .update (.patch ⟨[1], [3], [7], 2, false⟩),
        .snapshot ⟨[1], [3], [7], 3, true⟩] ∧
      s.messagesTo 1 = [.snapshot ⟨[1], [3], [7], 1, true⟩, .update (.patch ⟨[1], [3], [7], 2, false⟩),
        .update (.patch ⟨[1], [3], [7], 3, true⟩)] ∧
      s.Converged switchingRegistry := by
  obtain ⟨s, reached, derivation, delivery, idle, first, second⟩ := switching_reaches
    (fun s => s.runtime.derivationErrors = 0 ∧ s.runtime.deliveryErrors = 0 ∧
      s.runtime.pending = ∅ ∧
      s.messagesTo 0 = [.snapshot ⟨[1], [3], [7], 1, true⟩,
        .update (.patch ⟨[1], [3], [7], 2, false⟩), .snapshot ⟨[1], [3], [7], 3, true⟩] ∧
      s.messagesTo 1 = [.snapshot ⟨[1], [3], [7], 1, true⟩,
        .update (.patch ⟨[1], [3], [7], 2, false⟩), .update (.patch ⟨[1], [3], [7], 3, true⟩)])
    patchingRun (by simp [patchingRun]) (by simp [patchingRun]) (by simp [patchingRun])
    (by decide +kernel)
  have calm : s.runtime.Calm := ⟨derivation, delivery⟩
  exact ⟨s, reached, calm, idle, first, second, browsers_converge (by decide) reached calm⟩

/-- The source changes back between the invalidation and the flush: the runtime has the value of
the source at the flush, not of the one at the invalidation. -/
theorem value_as_of_flush :
    ∃ s, switchingRuns.Reaches (System.Steady switchingRegistry) s ∧ s.runtime.Calm ∧
      s.runtime.pending = ∅ ∧ s.runtime.flushScheduled = false ∧
      (s.runtime.subscribers.get? 0).any (fun ids => ids.has ([1], [3])) = true ∧
      (s.since ([1], [3])).head? = some false ∧
      ∃ e, s.runtime.cache.get? ([1], [3]) = some e ∧ ¬ Matches switching ([1], [3]) e false := by
  obtain ⟨s, reached, derivation, delivery, idle, flushed, subscribed, since, cached⟩ :=
    switching_reaches
    (fun s => s.runtime.derivationErrors = 0 ∧ s.runtime.deliveryErrors = 0 ∧
      s.runtime.pending = ∅ ∧ s.runtime.flushScheduled = false ∧
      (s.runtime.subscribers.get? 0).any (fun ids => ids.has ([1], [3])) = true ∧
      (s.since ([1], [3])).head? = some false ∧
      (s.runtime.cache.get? ([1], [3])).map CacheEntry.value = some true)
    [.register switching, .replaceSubscriptions 0 [some ⟨[1], [3], none⟩],
      .change ⟨fun _ => some false, fun _ => true⟩, .invalidate [1] [3],
      .change ⟨fun _ => some true, fun _ => true⟩, .flush]
    (by simp) (by simp) (by simp) (by decide +kernel)
  refine ⟨s, reached, ⟨derivation, delivery⟩, idle, flushed, subscribed, since, ?_⟩
  obtain ⟨e, found, value⟩ := Option.map_eq_some_iff.mp cached
  refine ⟨e, found, ?_⟩
  rintro ⟨dependencies, derived, selected, given, same⟩
  cases selected
  cases given
  rw [value] at same
  cases same

end Takode.SyncedProjection
