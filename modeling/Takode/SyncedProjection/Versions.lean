import Takode.SyncedProjection.Recompute

/-!
# Versions name values

As long as an entry stays in the cache, its revision never decreases, and every
envelope issued for it with one version stands for one value. `removeKey`, and a
recomputation that finds no source, take the entry out; its revisions then start
over within the same generation.
-/

namespace Takode.SyncedProjection

variable {S D V P Sub : Type}

/-- One version of an entry comes before another, or is the same with the same value. -/
def CacheEntry.Before (e e' : CacheEntry D V) : Prop :=
  e.revision < e'.revision ∨ e.revision = e'.revision ∧ e.value = e'.value

theorem CacheEntry.Before.refl (e : CacheEntry D V) : e.Before e := .inr ⟨rfl, rfl⟩

theorem CacheEntry.Before.trans {e e' e'' : CacheEntry D V} (first : e.Before e')
    (second : e'.Before e'') : e.Before e'' := by
  rcases first with less | ⟨same, value⟩ <;> rcases second with less' | ⟨same', value'⟩
  · exact .inl (Nat.lt_trans less less')
  · exact .inl (same' ▸ less)
  · exact .inl (same ▸ less')
  · exact .inr ⟨same.trans same', value.trans value'⟩

namespace Runtime

/-- A cache only moves forward: an entry that stays has the same or a later version. -/
structure Grows (rt rt' : Runtime S D V P Sub) : Prop where
  generation : rt'.generation = rt.generation
  dropped : ∀ i, rt.dropped i ≤ rt'.dropped i
  entry : ∀ id e, rt.cache.get? id = some e → rt'.dropped id = rt.dropped id →
    ∃ e', rt'.cache.get? id = some e' ∧ e.Before e'

variable {rt rt' rt'' : Runtime S D V P Sub}

theorem Grows.of_same (generation : rt'.generation = rt.generation) (cache : rt'.cache = rt.cache)
    (dropped : rt'.dropped = rt.dropped) : Grows rt rt' :=
  ⟨generation, fun _ => dropped ▸ Nat.le_refl _, fun _ e found _ => ⟨e, cache ▸ found, .refl e⟩⟩

theorem Grows.refl (rt : Runtime S D V P Sub) : Grows rt rt := .of_same rfl rfl rfl

theorem Grows.trans (first : Grows rt rt') (second : Grows rt' rt'') : Grows rt rt'' := by
  refine ⟨second.generation.trans first.generation,
    fun id => Nat.le_trans (first.dropped id) (second.dropped id), fun id e found stays => ?_⟩
  have between := first.dropped id
  have after := second.dropped id
  obtain ⟨e', found', before⟩ := first.entry id e found (by omega)
  obtain ⟨e'', found'', before'⟩ := second.entry id e' found' (by omega)
  exact ⟨e'', found'', before.trans before'⟩

/-- An update stands for the value that is cached with its version. -/
structure Shows (rt : Runtime S D V P Sub) (update : Update V P) (value : V) : Prop where
  cached : ∃ e, rt.cache.get? update.id = some e ∧ e.value = value ∧
    update.version = ⟨rt.generation, e.revision⟩
  full : ∀ e, update = .full e → e.value = value

/-- What a call of a runtime does to some entries, delivers and returns. -/
structure Called (rt : Runtime S D V P Sub) (ids : List EntryId) (rt' : Runtime S D V P Sub)
    (delivered : List (Delivery V P Sub)) (returned : List (Envelope V)) : Prop where
  grows : Grows rt rt'
  others : ∀ id ∉ ids, rt'.cache.get? id = rt.cache.get? id ∧ rt'.dropped id = rt.dropped id
  delivered : ∀ d ∈ delivered, d.update.id ∈ ids ∧ rt'.Shows d.update d.value
  returned : ∀ e ∈ returned, e.id ∈ ids ∧ rt'.Shows (.full e) e.value

variable {ids ids' : List EntryId} {delivered delivered' : List (Delivery V P Sub)}
variable {returned returned' : List (Envelope V)}

theorem Called.quiet (grows : Grows rt rt') (cache : rt'.cache = rt.cache)
    (dropped : rt'.dropped = rt.dropped) : Called rt ids rt' [] [] :=
  ⟨grows, fun _ _ => ⟨by rw [cache], by rw [dropped]⟩, by simp, by simp⟩

theorem Shows.mono {update : Update V P} {value : V} (shows : rt.Shows update value)
    (grows : Grows rt rt') (same : rt'.cache.get? update.id = rt.cache.get? update.id) :
    rt'.Shows update value := by
  obtain ⟨⟨e, found, eq, version⟩, full⟩ := shows
  exact ⟨⟨e, same.trans found, eq, by rw [grows.generation, version]⟩, full⟩

/-- Calls about different entries do not get in each other's way. -/
theorem Called.append (first : Called rt ids rt' delivered returned)
    (second : Called rt' ids' rt'' delivered' returned') (apart : ∀ id ∈ ids, id ∉ ids') :
    Called rt (ids ++ ids') rt'' (delivered ++ delivered') (returned ++ returned') := by
  refine ⟨first.grows.trans second.grows, fun id outside => ?_, fun d inside => ?_,
    fun e inside => ?_⟩
  · obtain ⟨before, after⟩ := not_or.mp (fun inside => outside (List.mem_append.mpr inside))
    exact ⟨(second.others id after).1.trans (first.others id before).1,
      (second.others id after).2.trans (first.others id before).2⟩
  · rcases List.mem_append.mp inside with early | late
    · obtain ⟨own, shows⟩ := first.delivered d early
      exact ⟨List.mem_append_left _ own,
        shows.mono second.grows (second.others _ (apart _ own)).1⟩
    · obtain ⟨own, shows⟩ := second.delivered d late
      exact ⟨List.mem_append_right _ own, shows⟩
  · rcases List.mem_append.mp inside with early | late
    · obtain ⟨own, shows⟩ := first.returned e early
      exact ⟨List.mem_append_left _ own,
        shows.mono second.grows (second.others _ (apart _ own)).1⟩
    · obtain ⟨own, shows⟩ := second.returned e late
      exact ⟨List.mem_append_right _ own, shows⟩

/-- What a call leaves to be done outside of the cache. -/
theorem Called.weaken (called : Called rt ids rt' delivered returned)
    (generation : rt''.generation = rt'.generation) (cache : rt''.cache = rt'.cache)
    (dropped : rt''.dropped = rt'.dropped) : Called rt ids rt'' delivered returned := by
  have same : Grows rt' rt'' := .of_same generation cache dropped
  refine ⟨called.grows.trans same, fun id outside => ?_, fun d inside => ?_, fun e inside => ?_⟩
  · rw [cache, dropped]
    exact called.others id outside
  · obtain ⟨own, shows⟩ := called.delivered d inside
    exact ⟨own, shows.mono same (by rw [cache])⟩
  · obtain ⟨own, shows⟩ := called.returned e inside
    exact ⟨own, shows.mono same (by rw [cache])⟩

theorem Called.fewer {fewer : List (Envelope V)} (called : Called rt ids rt' delivered returned)
    (subset : fewer ⊆ returned) : Called rt ids rt' delivered fewer :=
  ⟨called.grows, called.others, called.delivered, fun e inside => called.returned e (subset inside)⟩

variable {id : EntryId}

theorem Grows.drop (rt : Runtime S D V P Sub) (id : EntryId) : Grows rt (rt.drop id) := by
  refine ⟨rfl, fun other => ?_, fun other e found stays => ?_⟩
  · simp only [Runtime.drop]
    split
    · by_cases same : other = id <;> simp [same]
    · exact Nat.le_refl _
  · have away : other ≠ id := by
      rintro rfl
      simp [Runtime.drop, JsMap.has, found] at stays
    exact ⟨e, by simp [Runtime.drop, away, found], .refl e⟩

theorem drop_others (rt : Runtime S D V P Sub) {other : EntryId} (away : other ≠ id) :
    (rt.drop id).cache.get? other = rt.cache.get? other ∧
      (rt.drop id).dropped other = rt.dropped other := by
  constructor
  · simp [Runtime.drop, away]
  · simp only [Runtime.drop]
    split <;> simp [away]

/-- A renewed entry comes after the one before it. -/
theorem Renewed.before [JsonSized V] {definition : Definition S D V P Sub} {prior : Option (CacheEntry D V)}
    {source : S} {key : JsString} {entry : CacheEntry D V} {isNew : Bool}
    (renewed : Renewed rt definition prior source key entry isNew) {p : CacheEntry D V}
    (found : prior = some p) : p.Before entry := by
  cases renewed with
  | sameDependencies q dependencies earlier =>
    cases earlier.symm.trans found
    exact .refl _
  | sameValue q dependencies value earlier =>
    cases earlier.symm.trans found
    exact .refl _
  | newValue dependencies value bytes =>
    subst found
    exact .inl (Nat.lt_succ_self _)

theorem Grows.store {entry : CacheEntry D V}
    (before : ∀ p, rt.cache.get? id = some p → p.Before entry) : Grows rt (rt.store id entry) := by
  refine ⟨rfl, fun _ => Nat.le_refl _, fun other e found _ => ?_⟩
  by_cases same : other = id
  · subst same
    exact ⟨entry, by simp [Runtime.store], before e found⟩
  · exact ⟨e, by simp [Runtime.store, same, found], .refl e⟩

theorem Updates.shows {definition : Definition S D V P Sub} {entry : CacheEntry D V}
    {prior : Option (CacheEntry D V)} {update : Update V P}
    (updates : Updates rt definition id entry prior update) :
    update.id = id ∧ update.version = ⟨rt.generation, entry.revision⟩ ∧
      ∀ e, update = .full e → e.value = entry.value := by
  cases updates with
  | full => exact ⟨rfl, rfl, by rintro e ⟨⟩; rfl⟩
  | patch => exact ⟨rfl, rfl, by rintro e ⟨⟩⟩

theorem accept_nodup (rt : Runtime S D V P Sub) (outside : Outside S Sub) (subscriber : Sub)
    (seen : List EntryId) (requested : List (Option Subscription)) :
    ((rt.accept outside subscriber seen requested).map Prod.fst).Nodup ∧
      ∀ id ∈ (rt.accept outside subscriber seen requested).map Prod.fst, id ∉ seen := by
  fun_induction accept rt outside subscriber seen requested with
  | case1 => simp
  | case2 seen rest ih => exact ih
  | case3 seen request rest unregistered ih => exact ih
  | case4 seen request rest id definition registered rejected ih => exact ih
  | case5 seen request rest id definition registered valid authorized ih =>
    obtain ⟨distinct, fresh⟩ := ih
    refine ⟨List.nodup_cons.mpr ⟨fun again => fresh id again List.mem_cons_self, distinct⟩, ?_⟩
    intro other inside
    rcases List.mem_cons.mp inside with rfl | later
    · simp_all
    · exact fun old => fresh other later (List.mem_cons_of_mem _ old)
  | case6 seen request rest id definition registered valid rejected ih => exact ih

theorem scheduleFlush_same (rt : Runtime S D V P Sub) :
    rt.scheduleFlush.generation = rt.generation ∧ rt.scheduleFlush.cache = rt.cache ∧
      rt.scheduleFlush.dropped = rt.dropped := by
  unfold scheduleFlush
  split <;> exact ⟨rfl, rfl, rfl⟩

section Calls

variable [DecidableEq Sub] [JsonSized V] [JsonSized P]

theorem called_recompute (rt : Runtime S D V P Sub) (outside : Outside S Sub) (id : EntryId)
    (publishing : Bool) :
    Called rt [id] (rt.recompute outside id publishing).runtime
      (rt.recompute outside id publishing).delivered [] ∧
    ∀ e, (rt.recompute outside id publishing).result = some e →
      (rt.recompute outside id publishing).runtime.cache.get? id = some e := by
  have alone {other : EntryId} (away : other ∉ [id]) : other ≠ id :=
    fun same => away (List.mem_singleton.mpr same)
  have stored {entry : CacheEntry D V} {definition : Definition S D V P Sub} {source : S}
      {isNew : Bool} (renewed : Renewed rt definition (rt.cache.get? id) source id.2 entry isNew) :
      Called rt [id] (rt.store id entry) [] [] :=
    ⟨.store fun p found => renewed.before found,
      fun other away => ⟨by simp [Runtime.store, alone away], rfl⟩, by simp,
      by simp⟩
  have kinds := rt.recompute_cases outside id publishing
  generalize rt.recompute outside id publishing = called at kinds
  cases kinds with
  | unregistered => exact ⟨.quiet (.refl rt) rfl rfl, by simp⟩
  | gone =>
    have clean : Grows rt { rt with dirty := rt.dirty.delete id } := .of_same rfl rfl rfl
    refine ⟨⟨clean.trans (.drop _ id), fun other away => ?_, by simp, by simp⟩, by simp⟩
    exact drop_others _ (alone away)
  | failed => exact ⟨.quiet (.of_same rfl rfl rfl) rfl rfl, fun e found => found⟩
  | kept definition source entry _ _ renewed | unpublished definition source entry _ _ renewed =>
    exact ⟨stored renewed, fun e same => by cases same; simp [Runtime.store]⟩
  | unpatched definition source entry _ _ renewed
  | unsized definition source entry _ _ _ renewed =>
    exact ⟨(stored renewed).weaken rfl rfl rfl, fun e same => by cases same; simp [Runtime.store]⟩
  | published definition source entry update _ _ renewed _ updating =>
    obtain ⟨own, version, full⟩ := (updateFor_cases updating).shows
    have called : Called rt [id] { rt.store id entry with
        subscribers := rt.subscribers.filterMap (keptBy outside definition id)
        deliveryErrors := rt.deliveryErrors +
          (rt.audience outside definition id).countP fun m => !outside.sendable m.1 } [] [] :=
      (stored renewed).weaken rfl rfl rfl
    refine ⟨⟨called.grows, called.others, ?_, by simp⟩,
      fun e same => by cases same; simp [Runtime.store]⟩
    intro d inside
    obtain ⟨member, -, rfl⟩ := List.mem_map.mp inside
    exact ⟨List.mem_singleton.mpr own,
      ⟨entry, by simp [Runtime.store, own], rfl, version⟩, full⟩

theorem called_getSnapshot (rt : Runtime S D V P Sub) (outside : Outside S Sub) (id : EntryId) :
    Called rt [id] (rt.getSnapshot outside id).runtime (rt.getSnapshot outside id).delivered
      (rt.getSnapshot outside id).result.toList := by
  have shown {rt' : Runtime S D V P Sub} {entry : CacheEntry D V} (grows : Grows rt rt')
      (found : rt'.cache.get? id = some entry) :
      rt'.Shows (P := P) (.full (rt.envelope id entry)) entry.value :=
    ⟨⟨entry, found, rfl, by rw [grows.generation]; rfl⟩, by rintro e ⟨⟩; rfl⟩
  unfold getSnapshot
  split
  · exact .quiet (.refl rt) rfl rfl
  · split
    · have clean : Grows rt { rt with pending := rt.pending.delete id } := .of_same rfl rfl rfl
      obtain ⟨called, result⟩ := called_recompute { rt with pending := rt.pending.delete id } outside
        id (rt.pending.has id || rt.hasSubscribersForEntryId id)
      refine ⟨clean.trans called.grows, called.others, called.delivered, fun e inside => ?_⟩
      obtain ⟨entry, found, rfl⟩ := Option.map_eq_some_iff.mp (Option.mem_toList.mp inside)
      exact ⟨List.mem_singleton.mpr rfl, shown (clean.trans called.grows) (result entry found)⟩
    · refine ⟨.refl rt, fun _ _ => ⟨rfl, rfl⟩, by simp, fun e inside => ?_⟩
      obtain ⟨entry, found, rfl⟩ := Option.map_eq_some_iff.mp (Option.mem_toList.mp inside)
      exact ⟨List.mem_singleton.mpr rfl, shown (.refl rt) found⟩

theorem called_resolve (rt : Runtime S D V P Sub) (outside : Outside S Sub)
    (accepted : List (EntryId × Option Version)) (distinct : (accepted.map Prod.fst).Nodup) :
    Called rt (accepted.map Prod.fst) (resolve outside rt accepted).runtime
      (resolve outside rt accepted).delivered
      ((resolve outside rt accepted).result.map Prod.fst) := by
  induction accepted generalizing rt with
  | nil => exact .quiet (.refl rt) rfl rfl
  | cons first rest ih =>
    obtain ⟨id, known⟩ := first
    obtain ⟨fresh, others⟩ := List.nodup_cons.mp distinct
    have called := (called_getSnapshot rt outside id).append
      (ih (rt.getSnapshot outside id).runtime others)
      fun other own => List.mem_singleton.mp own ▸ fresh
    refine called.fewer ?_
    simp only [resolve]
    split <;> simp_all

theorem called_recomputeAll (rt : Runtime S D V P Sub) (outside : Outside S Sub)
    (batch : List EntryId) (distinct : batch.Nodup) :
    Called rt batch (recomputeAll outside rt batch).runtime
      (recomputeAll outside rt batch).delivered [] := by
  induction batch generalizing rt with
  | nil => exact .quiet (.refl rt) rfl rfl
  | cons id rest ih =>
    obtain ⟨fresh, others⟩ := List.nodup_cons.mp distinct
    exact (called_recompute rt outside id true).1.append
      (ih (rt.recompute outside id true).runtime others)
      fun other own => List.mem_singleton.mp own ▸ fresh

theorem called_flush (rt : Runtime S D V P Sub) (outside : Outside S Sub) :
    ∃ ids, Called rt ids (rt.flush outside).runtime (rt.flush outside).delivered [] := by
  unfold flush
  dsimp only
  split
  · exact ⟨[], .quiet (.of_same rfl rfl rfl) rfl rfl⟩
  · split
    · exact ⟨[], .quiet (.of_same rfl rfl rfl) rfl rfl⟩
    · have distinct : (rt.pending.keys.filter rt.hasSubscribersForEntryId).Nodup :=
        rt.pending.nodup.filter _
      have called := called_recomputeAll { rt with
        flushScheduled := false, pending := ∅, flushing := true } outside _ distinct
      obtain ⟨generation, cache, dropped⟩ := scheduleFlush_same { (recomputeAll outside { rt with
        flushScheduled := false, pending := ∅, flushing := true } _).runtime with flushing := false }
      have before : Grows rt { rt with flushScheduled := false, pending := ∅, flushing := true } :=
        .of_same rfl rfl rfl
      have after := called.weaken generation cache dropped
      exact ⟨_, before.trans after.grows, after.others, after.delivered, after.returned⟩

theorem called_replaceSubscriptions (rt : Runtime S D V P Sub) (outside : Outside S Sub)
    (subscriber : Sub) (requested : List (Option Subscription)) :
    ∃ ids, Called rt ids (rt.replaceSubscriptions outside subscriber requested).runtime
      (rt.replaceSubscriptions outside subscriber requested).delivered
      (rt.replaceSubscriptions outside subscriber requested).result.snapshots := by
  have detached : Grows rt { rt with subscribers := rt.subscribers.delete subscriber } :=
    .of_same rfl rfl rfl
  have called := called_resolve { rt with subscribers := rt.subscribers.delete subscriber } outside
    (rt.accept outside subscriber [] (requested.take rt.maxSubscriptionsPerSubscriber))
    (rt.accept_nodup outside subscriber [] _).1
  have attached : Called _ _ (rt.replaceSubscriptions outside subscriber requested).runtime
      (rt.replaceSubscriptions outside subscriber requested).delivered _ :=
    called.weaken rfl rfl rfl
  refine ⟨_, detached.trans attached.grows, attached.others, attached.delivered, fun e inside => ?_⟩
  exact attached.returned e ((List.filter_sublist.map Prod.fst).subset inside)

theorem called_resync (rt : Runtime S D V P Sub) (outside : Outside S Sub) (subscriber : Sub)
    (id : EntryId) :
    Called rt [id] (rt.resync outside subscriber id).runtime
      (rt.resync outside subscriber id).delivered
      (rt.resync outside subscriber id).result.toList := by
  unfold resync
  repeat' split
  all_goals first
    | exact called_getSnapshot rt outside id
    | exact .quiet (.of_same rfl rfl rfl) rfl rfl

theorem resolve_known (rt : Runtime S D V P Sub) (outside : Outside S Sub)
    (accepted : List (EntryId × Option Version)) {snapshot : Envelope V}
    (current : (snapshot, true) ∈ (resolve outside rt accepted).result) :
    (snapshot.id, some ⟨snapshot.generation, snapshot.revision⟩) ∈ accepted := by
  induction accepted generalizing rt with
  | nil => cases current
  | cons first rest ih =>
    obtain ⟨id, known⟩ := first
    simp only [resolve] at current
    split at current
    · exact List.mem_cons_of_mem _ (ih _ current)
    · rename_i found result
      rcases List.mem_cons.mp current with same | later
      · obtain ⟨rfl, flag⟩ := Prod.mk.inj same
        have own := ((called_getSnapshot rt outside id).returned snapshot (by simp [result])).1
        rw [List.mem_singleton.mp own, ← of_decide_eq_true flag.symm]
        exact List.mem_cons_self
      · exact List.mem_cons_of_mem _ (ih _ later)

end Calls

theorem accept_requested (rt : Runtime S D V P Sub) (outside : Outside S Sub) (subscriber : Sub)
    (seen : List EntryId) (requested : List (Option Subscription)) {id : EntryId}
    {known : Option Version} (accepted : (id, known) ∈ rt.accept outside subscriber seen requested) :
    some ⟨id.1, id.2, known⟩ ∈ requested := by
  fun_induction accept rt outside subscriber seen requested with
  | case1 => cases accepted
  | case2 seen rest ih => exact List.mem_cons_of_mem _ (ih accepted)
  | case3 seen request rest unregistered ih => exact List.mem_cons_of_mem _ (ih accepted)
  | case4 seen request rest own definition registered rejected ih =>
    exact List.mem_cons_of_mem _ (ih accepted)
  | case5 seen request rest own definition registered valid authorized ih =>
    rcases List.mem_cons.mp accepted with same | later
    · obtain ⟨rfl, rfl⟩ := Prod.mk.inj same
      exact List.mem_cons_self
    · exact List.mem_cons_of_mem _ (ih later)
  | case6 seen request rest own definition registered valid rejected ih =>
    exact List.mem_cons_of_mem _ (ih accepted)

end Runtime

/-! ## Runs -/

namespace System

variable {s : System S D V P Sub}

/-- What has been issued, seen from the cache as it is now. -/
structure Versioned (s : System S D V P Sub) : Prop where
  past : ∀ i ∈ s.issued, i.dropped ≤ s.runtime.dropped i.message.id ∧
    (i.dropped = s.runtime.dropped i.message.id →
      ∃ e, s.runtime.cache.get? i.message.id = some e ∧
        (i.message.version.revision < e.revision ∨
          i.message.version.revision = e.revision ∧ i.value = e.value))
  stands : ∀ i ∈ s.issued, ∀ e, i.message.contents = .full e → e.value = i.value
  ordered : s.issued.Pairwise fun i j => i.message.id = j.message.id → i.dropped = j.dropped →
    i.message.version.revision < j.message.version.revision ∨
      i.message.version.revision = j.message.version.revision ∧ i.value = j.value
  bounded : s.issued.Pairwise fun i j => i.message.id = j.message.id → i.dropped ≤ j.dropped

/-- An envelope that shows an entry as it is now. -/
def Fresh (rt : Runtime S D V P Sub) (i : Issued V P Sub) : Prop :=
  i.dropped = rt.dropped i.message.id ∧ rt.Shows i.message.contents i.value

theorem Versioned.grows {s' : System S D V P Sub} (versioned : Versioned s)
    (grows : s.runtime.Grows s'.runtime) (issued : s'.issued = s.issued) : Versioned s' := by
  refine ⟨fun i inside => ?_, issued ▸ versioned.stands, issued ▸ versioned.ordered,
    issued ▸ versioned.bounded⟩
  rw [issued] at inside
  obtain ⟨below, entry⟩ := versioned.past i inside
  have more := grows.dropped i.message.id
  refine ⟨Nat.le_trans below more, fun stays => ?_⟩
  obtain ⟨e, found, before⟩ := entry (by omega)
  obtain ⟨e', found', after⟩ := grows.entry _ e found (by omega)
  refine ⟨e', found', ?_⟩
  rcases before with less | ⟨same, value⟩ <;> rcases after with less' | ⟨same', value'⟩
  · exact .inl (Nat.lt_trans less less')
  · exact .inl (same' ▸ less)
  · exact .inl (same ▸ less')
  · exact .inr ⟨same.trans same', value.trans value'⟩

theorem Versioned.append {fresh : List (Issued V P Sub)} (versioned : Versioned s)
    (now : ∀ i ∈ fresh, Fresh s.runtime i) :
    Versioned { s with issued := s.issued ++ fresh } := by
  have cached : ∀ i ∈ fresh, ∃ e, s.runtime.cache.get? i.message.id = some e ∧
      i.message.version.revision = e.revision ∧ i.value = e.value := by
    intro i inside
    obtain ⟨e, found, value, version⟩ := (now i inside).2.cached
    exact ⟨e, found, congrArg Version.revision version, value.symm⟩
  refine ⟨fun i inside => ?_, fun i inside => ?_, ?_, ?_⟩
  · rcases List.mem_append.mp inside with old | new
    · exact versioned.past i old
    · obtain ⟨e, found, same⟩ := cached i new
      exact ⟨Nat.le_of_eq (now i new).1, fun _ => ⟨e, found, .inr same⟩⟩
  · rcases List.mem_append.mp inside with old | new
    · exact versioned.stands i old
    · exact (now i new).2.full
  · refine List.pairwise_append.mpr ⟨versioned.ordered, ?_, fun i old j new same stays => ?_⟩
    · refine List.pairwise_of_forall_mem_list fun i inside j inside' same stays => ?_
      obtain ⟨e, found, revision, value⟩ := cached i inside
      obtain ⟨e', found', revision', value'⟩ := cached j inside'
      cases found.symm.trans (same ▸ found')
      exact .inr ⟨revision.trans revision'.symm, value.trans value'.symm⟩
    · obtain ⟨e, found, revision, value⟩ := cached j new
      obtain ⟨e', found', before⟩ := (versioned.past i old).2
        (stays.trans ((now j new).1.trans (by rw [same])))
      cases found.symm.trans (same ▸ found')
      rw [revision, value]
      exact before
  · refine List.pairwise_append.mpr ⟨versioned.bounded, ?_, fun i old j new same => ?_⟩
    · refine List.pairwise_of_forall_mem_list fun i inside j inside' same => ?_
      exact Nat.le_of_eq (by rw [(now i inside).1, (now j inside').1, same])
    · rw [(now j new).1, ← same]
      exact (versioned.past i old).1

theorem Versioned.issue {ids : List EntryId} {rt : Runtime S D V P Sub}
    {delivered : List (Delivery V P Sub)} {returned : List (Envelope V)} (versioned : Versioned s)
    (called : s.runtime.Called ids rt delivered returned) (recipient : Option Sub)
    {kind : Envelope V → Message V P} (contents : ∀ e, (kind e).contents = .full e) :
    Versioned (s.issue rt delivered recipient kind returned) := by
  have grown : Versioned { s with runtime := rt } := versioned.grows called.grows rfl
  unfold System.issue
  rw [List.append_assoc]
  apply grown.append
  intro i inside
  rcases List.mem_append.mp inside with sent | answered
  · obtain ⟨d, own, rfl⟩ := List.mem_map.mp sent
    exact ⟨rfl, (called.delivered d own).2⟩
  · obtain ⟨e, own, rfl⟩ := List.mem_map.mp answered
    have same : (kind e).id = e.id := congrArg Update.id (contents e)
    exact ⟨congrArg rt.dropped same.symm, by
      simpa only [contents] using (called.returned e own).2⟩

section Steps

variable [DecidableEq Sub] [JsonSized V] [JsonSized P] {s' : System S D V P Sub}

theorem Versioned.step (versioned : Versioned s) {call : Call S D V P Sub}
    (stepped : s.step call = some s') : Versioned s' := by
  cases call with
  | change outside =>
    cases stepped
    exact ⟨versioned.past, versioned.stands, versioned.ordered, versioned.bounded⟩
  | register definition =>
    obtain ⟨rt, registered, rfl⟩ := Option.map_eq_some_iff.mp stepped
    refine versioned.grows ?_ rfl
    unfold Runtime.register at registered
    split at registered
    · cases registered
    · split at registered
      · cases registered
      · split at registered
        · cases registered
        · cases registered
          exact .of_same rfl rfl rfl
  | invalidate projection key =>
    cases stepped
    refine versioned.grows ?_ rfl
    simp only [Runtime.invalidate]
    split
    · exact .refl _
    · obtain ⟨generation, cache, dropped⟩ := Runtime.scheduleFlush_same { s.runtime with
        dirty := s.runtime.dirty.add (projection, key)
        pending := if s.runtime.hasSubscribersForEntryId (projection, key) then
          s.runtime.pending.add (projection, key) else s.runtime.pending }
      exact .of_same generation cache dropped
  | beginTransaction =>
    cases stepped
    exact versioned.grows (.of_same rfl rfl rfl) rfl
  | endTransaction =>
    simp only [System.step] at stepped
    split at stepped
    · cases stepped
      obtain ⟨generation, cache, dropped⟩ := Runtime.scheduleFlush_same { s.runtime with
        transactionDepth := s.runtime.transactionDepth - 1 }
      exact versioned.grows (.of_same generation cache dropped) rfl
    · cases stepped
  | getSnapshot id =>
    cases stepped
    exact versioned.issue (Runtime.called_getSnapshot _ _ id) none fun _ => rfl
  | replaceSubscriptions subscriber requested =>
    cases stepped
    obtain ⟨ids, called⟩ := Runtime.called_replaceSubscriptions s.runtime s.outside subscriber
      requested
    exact versioned.issue called (some subscriber) fun _ => rfl
  | resync subscriber id =>
    cases stepped
    exact versioned.issue (Runtime.called_resync _ _ subscriber id) (some subscriber) fun _ => rfl
  | removeSubscriber subscriber =>
    cases stepped
    exact versioned.grows (.of_same rfl rfl rfl) rfl
  | removeKey id =>
    cases stepped
    refine versioned.grows ?_ rfl
    unfold Runtime.removeKey
    split
    · exact .refl _
    · have detached : s.runtime.Grows { s.runtime with
          dirty := s.runtime.dirty.delete id
          pending := s.runtime.pending.delete id
          subscribers := s.runtime.subscribers.map fun _ ids => ids.delete id } :=
        .of_same rfl rfl rfl
      exact detached.trans (.drop _ id)
  | flush =>
    cases stepped
    obtain ⟨ids, called⟩ := Runtime.called_flush s.runtime s.outside
    exact versioned.issue called none fun _ => rfl

end Steps

end System

variable [DecidableEq Sub] [JsonSized V] [JsonSized P]

/-- JSON text of a Boolean. -/
instance : JsonSized Bool := ⟨fun b => some (if b then 4 else 5)⟩

/-- What was issued: the id, version and value of each envelope. -/
def System.summary (s : System Bool Bool Bool Bool Nat) : List (EntryId × Version × Bool) :=
  s.issued.map fun i => (i.message.id, i.message.version, i.value)

end Takode.SyncedProjection
