import Takode.SyncedProjection.Runtime

/-!
# What one recomputation can do

`recompute` is the only place where an entry of the cache changes. The lemmas
here say once what it and the calls around it come to.
-/

namespace Takode.SyncedProjection

namespace Runtime

variable {S D V P Sub : Type} [JsonSized V]
variable {rt : Runtime S D V P Sub} {outside : Outside S Sub}
variable {definition : Definition S D V P Sub} {prior : Option (CacheEntry D V)}

/-- What the `try` of `recompute` comes to when it does not throw. -/
inductive Renewed (rt : Runtime S D V P Sub) (definition : Definition S D V P Sub)
    (prior : Option (CacheEntry D V)) (source : S) (key : JsString) :
    CacheEntry D V → Bool → Prop
  | sameDependencies (p dependencies) : prior = some p →
      definition.selectDependencies source key = .ok dependencies →
      definition.dependenciesEqual p.dependencies dependencies = true →
      Renewed rt definition prior source key p false
  | sameValue (p dependencies value) : prior = some p →
      definition.selectDependencies source key = .ok dependencies →
      definition.derive source key dependencies = .ok value →
      definition.valueEqual p.value value = true →
      Renewed rt definition prior source key { p with dependencies := dependencies } false
  | newValue (dependencies value bytes) :
      definition.selectDependencies source key = .ok dependencies →
      definition.derive source key dependencies = .ok value →
      (∀ p, prior = some p → definition.valueEqual p.value value = false) →
      jsonUtf8ByteLength value = some bytes →
      bytes ≤ min (definition.maxValueBytes.getD rt.maxValueBytes) rt.maxValueBytes →
      Renewed rt definition prior source key
        ⟨dependencies, value, (prior.map CacheEntry.revision).getD 0 + 1⟩ true

theorem renewed_cases {source : S} {key : JsString} {entry : CacheEntry D V} {isNew : Bool}
    (renewed : rt.renewed definition prior source key = .ok (entry, isNew)) :
    Renewed rt definition prior source key entry isNew := by
  unfold Runtime.renewed at renewed
  cases selected : definition.selectDependencies source key with
  | error thrown => simp [selected, bind, Except.bind] at renewed
  | ok dependencies =>
    simp only [selected, bind, Except.bind] at renewed
    split at renewed
    · rename_i p same
      obtain ⟨found, equal⟩ := Option.filter_eq_some_iff.mp same
      cases renewed
      exact .sameDependencies _ dependencies found selected equal
    · cases derived : definition.derive source key dependencies with
      | error thrown => simp [derived] at renewed
      | ok value =>
        simp only [derived] at renewed
        split at renewed
        · rename_i p same
          obtain ⟨found, equal⟩ := Option.filter_eq_some_iff.mp same
          cases renewed
          exact .sameValue p dependencies value found selected derived equal
        · rename_i other
          split at renewed
          · cases renewed
          · rename_i bytes sized
            split at renewed
            · cases renewed
            · rename_i small
              cases renewed
              refine .newValue dependencies value bytes selected derived ?_ sized (Nat.not_lt.mp small)
              rintro p rfl
              simpa [Option.filter] using other

/-- What `publish` sends for an entry. -/
inductive Updates (rt : Runtime S D V P Sub) (definition : Definition S D V P Sub) (id : EntryId)
    (entry : CacheEntry D V) (prior : Option (CacheEntry D V)) : Update V P → Prop
  | full : Updates rt definition id entry prior (.full (rt.envelope id entry))
  | patch (p createPatch patch) : prior = some p → definition.createPatch = some createPatch →
      createPatch p.value entry.value = .ok (some patch) →
      Updates rt definition id entry prior
        (.patch ⟨id.1, id.2, rt.generation, entry.revision, patch⟩)

omit [JsonSized V] in
theorem updateFor_cases {id : EntryId} {entry : CacheEntry D V} {update : Update V P}
    (updating : rt.updateFor definition id entry prior = .ok update) :
    Updates rt definition id entry prior update := by
  unfold updateFor at updating
  split at updating
  · rename_i p createPatch patching
    cases patched : createPatch p.value entry.value with
    | error thrown => simp [patched, bind, Except.bind] at updating
    | ok patch =>
      rw [patched] at updating
      cases patch with
      | none =>
        cases updating
        exact .full
      | some patch =>
        cases updating
        exact .patch p createPatch patch rfl patching patched
  · cases updating
    exact .full

/-- The subscribers an update of an entry is meant for. -/
def audience (rt : Runtime S D V P Sub) (outside : Outside S Sub)
    (definition : Definition S D V P Sub) (id : EntryId) : List (Sub × JsSet EntryId) :=
  rt.subscribers.entries.filter fun (subscriber, ids) =>
    ids.has id && (outside.resolveSource id).any (definition.authorizeSubscription subscriber id.2)

/-- The runtime with an entry in the cache that is no longer dirty. -/
def store (rt : Runtime S D V P Sub) (id : EntryId) (entry : CacheEntry D V) :
    Runtime S D V P Sub :=
  { rt with dirty := rt.dirty.delete id, cache := rt.cache.set id entry }

/-- What `recompute` comes to. -/
inductive Recomputed [JsonSized P] (rt : Runtime S D V P Sub) (outside : Outside S Sub) (id : EntryId)
    (publishing : Bool) : Outcome S D V P Sub (Option (CacheEntry D V)) → Prop
  | unregistered : rt.definitions.get? id.1 = none →
      Recomputed rt outside id publishing { runtime := rt, result := none }
  | gone : outside.resolveSource id = none →
      Recomputed rt outside id publishing
        { runtime := drop { rt with dirty := rt.dirty.delete id } id, result := none }
  | failed (definition source) : rt.definitions.get? id.1 = some definition →
      outside.resolveSource id = some source →
      rt.renewed definition (rt.cache.get? id) source id.2 = .error () →
      Recomputed rt outside id publishing
        { runtime := { rt with derivationErrors := rt.derivationErrors + 1 }
          result := rt.cache.get? id }
  | kept (definition source entry) : rt.definitions.get? id.1 = some definition →
      outside.resolveSource id = some source →
      Renewed rt definition (rt.cache.get? id) source id.2 entry false →
      Recomputed rt outside id publishing { runtime := rt.store id entry, result := some entry }
  | unpublished (definition source entry) : rt.definitions.get? id.1 = some definition →
      outside.resolveSource id = some source →
      Renewed rt definition (rt.cache.get? id) source id.2 entry true → publishing = false →
      Recomputed rt outside id publishing { runtime := rt.store id entry, result := some entry }
  | unpatched (definition source entry) : rt.definitions.get? id.1 = some definition →
      outside.resolveSource id = some source →
      Renewed rt definition (rt.cache.get? id) source id.2 entry true →
      rt.updateFor definition id entry (rt.cache.get? id) = .error () →
      Recomputed rt outside id publishing
        { runtime := { rt.store id entry with
            dirty := rt.dirty, derivationErrors := rt.derivationErrors + 1 }
          result := some entry }
  | unsized (definition source entry update) : rt.definitions.get? id.1 = some definition →
      outside.resolveSource id = some source →
      Renewed rt definition (rt.cache.get? id) source id.2 entry true →
      rt.updateFor definition id entry (rt.cache.get? id) = .ok update →
      updateBytes update = none →
      Recomputed rt outside id publishing
        { runtime := { rt.store id entry with deliveryErrors := rt.deliveryErrors + 1 }
          result := some entry }
  | published (definition source entry update) : rt.definitions.get? id.1 = some definition →
      outside.resolveSource id = some source →
      Renewed rt definition (rt.cache.get? id) source id.2 entry true → publishing = true →
      rt.updateFor definition id entry (rt.cache.get? id) = .ok update →
      Recomputed rt outside id publishing
        { runtime := { rt.store id entry with
            subscribers := rt.subscribers.filterMap (keptBy outside definition id)
            deliveryErrors := rt.deliveryErrors +
              (rt.audience outside definition id).countP fun m => !outside.sendable m.1 }
          delivered := ((rt.audience outside definition id).filter fun m =>
            outside.sendable m.1).map fun m => ⟨m.1, update, entry.value⟩
          result := some entry }

theorem recompute_cases [DecidableEq Sub] [JsonSized P] (rt : Runtime S D V P Sub) (outside : Outside S Sub) (id : EntryId)
    (publishing : Bool) :
    Recomputed rt outside id publishing (rt.recompute outside id publishing) := by
  unfold recompute
  cases registered : rt.definitions.get? id.1 with
  | none => exact .unregistered registered
  | some definition =>
    dsimp only
    cases found : outside.resolveSource id with
    | none => exact .gone found
    | some source =>
      dsimp only
      cases renewed : rt.renewed definition (rt.cache.get? id) source id.2 with
      | error thrown => exact .failed definition source registered found renewed
      | ok result =>
        obtain ⟨entry, isNew⟩ := result
        have kind := renewed_cases renewed
        dsimp only
        cases isNew with
        | false => exact .kept definition source entry registered found kind
        | true =>
          cases publishing with
          | false => exact .unpublished definition source entry registered found kind rfl
          | true =>
            simp only [Bool.and_self, if_true, publish]
            have sameUpdate : updateFor { rt with
                dirty := rt.dirty.delete id, cache := rt.cache.set id entry } definition id entry
                (rt.cache.get? id) = rt.updateFor definition id entry (rt.cache.get? id) := rfl
            rw [sameUpdate]
            cases updating : rt.updateFor definition id entry (rt.cache.get? id) with
            | error thrown =>
              exact .unpatched definition source entry registered found kind updating
            | ok update =>
              simp only [bind, Except.bind]
              cases sized : updateBytes update with
              | none =>
                exact .unsized definition source entry update registered found kind updating sized
              | some bytes =>
                exact .published definition source entry update registered found kind rfl updating

/-! ## Error counters -/

/-- No derivation and no delivery has thrown. -/
def Calm (rt : Runtime S D V P Sub) : Prop := rt.derivationErrors = 0 ∧ rt.deliveryErrors = 0

section Calls

variable [DecidableEq Sub] [JsonSized P]

theorem calm_of_recompute {id : EntryId} {publishing : Bool}
    (calm : (rt.recompute outside id publishing).runtime.Calm) : rt.Calm := by
  have kinds := rt.recompute_cases outside id publishing
  generalize rt.recompute outside id publishing = called at kinds calm
  obtain ⟨derivation, delivery⟩ := calm
  cases kinds with
  | failed | unpatched | unsized => simp at derivation delivery
  | published => exact ⟨derivation, Nat.eq_zero_of_add_eq_zero_right delivery⟩
  | _ => exact ⟨derivation, delivery⟩

theorem recompute_dirty {id other : EntryId} (publishing : Bool) (away : other ≠ id)
    (dirty : rt.dirty.has other = true) :
    (rt.recompute outside id publishing).runtime.dirty.has other = true := by
  have kinds := rt.recompute_cases outside id publishing
  generalize rt.recompute outside id publishing = called at kinds
  cases kinds with
  | unregistered | failed | unpatched => exact dirty
  | _ => simp [drop, store, away, dirty]

theorem recompute_cleans {id : EntryId} {publishing : Bool} {e : CacheEntry D V}
    (calm : (rt.recompute outside id publishing).runtime.Calm)
    (result : (rt.recompute outside id publishing).result = some e) :
    (rt.recompute outside id publishing).runtime.dirty.has id = false := by
  have kinds := rt.recompute_cases outside id publishing
  generalize rt.recompute outside id publishing = called at kinds calm result
  cases kinds with
  | unregistered | gone => cases result
  | failed | unpatched => exact absurd calm.1 (Nat.succ_ne_zero _)
  | _ => simp [store]

theorem recompute_clean {id other : EntryId} {publishing : Bool}
    (clean : rt.dirty.has other = false) :
    (rt.recompute outside id publishing).runtime.dirty.has other = false := by
  have kinds := rt.recompute_cases outside id publishing
  generalize rt.recompute outside id publishing = called at kinds
  cases kinds with
  | unregistered | failed | unpatched => exact clean
  | _ => simp [drop, store, clean]

theorem getSnapshot_clean {id other : EntryId} (clean : rt.dirty.has other = false) :
    (rt.getSnapshot outside id).runtime.dirty.has other = false := by
  unfold getSnapshot
  split
  · exact clean
  · split
    · exact recompute_clean clean
    · exact clean

theorem getSnapshot_cleans {id : EntryId} {snapshot : Envelope V}
    (calm : (rt.getSnapshot outside id).runtime.Calm)
    (result : (rt.getSnapshot outside id).result = some snapshot) :
    snapshot.id = id ∧ (rt.getSnapshot outside id).runtime.dirty.has id = false := by
  unfold getSnapshot at calm result ⊢
  split
  · rename_i invalid
    simp [invalid] at result
  · rename_i valid
    rw [if_neg valid] at calm result
    split
    · rename_i due
      rw [if_pos due] at calm result
      obtain ⟨e, computed, rfl⟩ := Option.map_eq_some_iff.mp result
      exact ⟨rfl, recompute_cleans calm computed⟩
    · rename_i fresh
      rw [if_neg fresh] at result
      obtain ⟨e, cached, rfl⟩ := Option.map_eq_some_iff.mp result
      simp only [Bool.or_eq_true, not_or, Bool.not_eq_true] at fresh
      exact ⟨rfl, fresh.1⟩

theorem resolve_clean (accepted : List (EntryId × Option Version)) {other : EntryId}
    (clean : rt.dirty.has other = false) :
    (resolve outside rt accepted).runtime.dirty.has other = false := by
  induction accepted generalizing rt with
  | nil => exact clean
  | cons first rest ih => exact ih (getSnapshot_clean clean)

theorem calm_of_getSnapshot {id : EntryId} (calm : (rt.getSnapshot outside id).runtime.Calm) :
    rt.Calm := by
  unfold getSnapshot at calm
  split at calm
  · exact calm
  · split at calm
    · have before : (recompute { rt with pending := rt.pending.delete id } outside id
          (rt.pending.has id || rt.hasSubscribersForEntryId id)).runtime.Calm := calm
      have quiet := calm_of_recompute before
      exact quiet
    · exact calm

theorem calm_of_resolve {accepted : List (EntryId × Option Version)}
    (calm : (resolve outside rt accepted).runtime.Calm) : rt.Calm := by
  induction accepted generalizing rt with
  | nil => exact calm
  | cons first rest ih => exact calm_of_getSnapshot (ih calm)

theorem resolve_cleans {accepted : List (EntryId × Option Version)} {r : Envelope V × Bool}
    (calm : (resolve outside rt accepted).runtime.Calm)
    (resolved : r ∈ (resolve outside rt accepted).result) :
    (resolve outside rt accepted).runtime.dirty.has r.1.id = false := by
  induction accepted generalizing rt with
  | nil => cases resolved
  | cons first rest ih =>
    cases taken : (rt.getSnapshot outside first.1).result with
    | none =>
      simp only [resolve, taken] at resolved
      exact ih calm resolved
    | some snapshot =>
      simp only [resolve, taken] at resolved
      rcases List.mem_cons.mp resolved with rfl | later
      · obtain ⟨own, clean⟩ := getSnapshot_cleans (calm_of_resolve calm) taken
        have still : (resolve outside (rt.getSnapshot outside first.1).runtime
            rest).runtime.dirty.has first.1 = false := resolve_clean rest clean
        exact own ▸ still
      · exact ih calm later

theorem calm_of_recomputeAll {batch : List EntryId}
    (calm : (recomputeAll outside rt batch).runtime.Calm) : rt.Calm := by
  induction batch generalizing rt with
  | nil => exact calm
  | cons id rest ih => exact calm_of_recompute (ih calm)

omit [DecidableEq Sub] [JsonSized V] [JsonSized P] in
theorem calm_scheduleFlush : rt.scheduleFlush.Calm ↔ rt.Calm := by
  unfold scheduleFlush
  split <;> exact Iff.rfl

theorem calm_of_flush (calm : (rt.flush outside).runtime.Calm) : rt.Calm := by
  unfold flush at calm
  dsimp only at calm
  split at calm
  · exact calm
  · split at calm
    · exact calm
    · have done := calm_scheduleFlush.mp calm
      have before := calm_of_recomputeAll done
      exact before

theorem calm_of_resync {subscriber : Sub} {id : EntryId}
    (calm : (rt.resync outside subscriber id).runtime.Calm) : rt.Calm := by
  unfold resync at calm
  repeat' split at calm
  all_goals first
    | exact calm_of_getSnapshot calm
    | exact calm

/-! ## Definitions -/

theorem recompute_definitions (rt : Runtime S D V P Sub) (outside : Outside S Sub) (id : EntryId)
    (publishing : Bool) :
    (rt.recompute outside id publishing).runtime.definitions = rt.definitions := by
  have kinds := rt.recompute_cases outside id publishing
  generalize rt.recompute outside id publishing = called at kinds
  cases kinds <;> rfl

theorem getSnapshot_definitions (rt : Runtime S D V P Sub) (outside : Outside S Sub)
    (id : EntryId) : (rt.getSnapshot outside id).runtime.definitions = rt.definitions := by
  unfold getSnapshot
  split
  · rfl
  · split
    · exact recompute_definitions _ outside id _
    · rfl

theorem resolve_definitions (rt : Runtime S D V P Sub) (outside : Outside S Sub)
    (accepted : List (EntryId × Option Version)) :
    (resolve outside rt accepted).runtime.definitions = rt.definitions := by
  induction accepted generalizing rt with
  | nil => rfl
  | cons first rest ih => exact (ih _).trans (getSnapshot_definitions rt outside first.1)

theorem recomputeAll_definitions (rt : Runtime S D V P Sub) (outside : Outside S Sub)
    (batch : List EntryId) : (recomputeAll outside rt batch).runtime.definitions = rt.definitions := by
  induction batch generalizing rt with
  | nil => rfl
  | cons id rest ih => exact (ih _).trans (recompute_definitions rt outside id true)

omit [DecidableEq Sub] [JsonSized V] [JsonSized P] in
theorem scheduleFlush_definitions (rt : Runtime S D V P Sub) :
    rt.scheduleFlush.definitions = rt.definitions := by
  unfold scheduleFlush
  split <;> rfl

theorem flush_definitions (rt : Runtime S D V P Sub) (outside : Outside S Sub) :
    (rt.flush outside).runtime.definitions = rt.definitions := by
  unfold flush
  dsimp only
  split
  · rfl
  · split
    · rfl
    · exact (scheduleFlush_definitions _).trans (recomputeAll_definitions _ outside _)

end Calls

end Runtime

theorem System.step_definitions {S D V P Sub : Type} [DecidableEq Sub] [JsonSized V] [JsonSized P]
    {s s' : System S D V P Sub}
    {call : Call S D V P Sub} (stepped : s.step call = some s') :
    s'.runtime.definitions = s.runtime.definitions ∨
      ∃ definition, call = .register definition ∧ s'.runtime.definitions =
        s.runtime.definitions.set definition.projection definition := by
  cases call with
  | register definition =>
    obtain ⟨rt, added, rfl⟩ := Option.map_eq_some_iff.mp stepped
    unfold Runtime.register at added
    repeat' split at added
    all_goals cases added
    exact .inr ⟨definition, rfl, rfl⟩
  | change | beginTransaction | removeSubscriber => cases stepped; exact .inl rfl
  | invalidate projection key =>
    cases stepped
    simp only [Runtime.invalidate]
    split
    · exact .inl rfl
    · exact .inl (Runtime.scheduleFlush_definitions _)
  | endTransaction =>
    simp only [step] at stepped
    split at stepped
    · cases stepped
      exact .inl (Runtime.scheduleFlush_definitions _)
    · cases stepped
  | getSnapshot id => cases stepped; exact .inl (Runtime.getSnapshot_definitions _ _ id)
  | replaceSubscriptions subscriber requested =>
    cases stepped
    exact .inl (Runtime.resolve_definitions _ _ _)
  | resync subscriber id =>
    cases stepped
    left
    simp only [issue, Runtime.resync]
    repeat' split
    all_goals first
      | exact Runtime.getSnapshot_definitions _ _ id
      | rfl
  | removeKey id =>
    cases stepped
    simp only [Runtime.removeKey]
    split <;> exact .inl rfl
  | flush => cases stepped; exact .inl (Runtime.flush_definitions _ _)

end Takode.SyncedProjection
