import Takode.Streams.Store

/-!
# Ids and slugs of a scope

Every operation keeps the ids of a scope below `nextId` and its ids and slugs distinct.
-/

namespace Takode.Streams

open JsString

/-- No two streams of the scope share an id or a slug, and the next id is new. -/
structure Tidy (file : StreamScopeFile) : Prop where
  positive : 0 < file.nextId
  numbered : ∀ stream ∈ file.streams, ∃ n < file.nextId, stream.id = js "s-" ++ decimal n
  ids : (file.streams.map (·.id)).Nodup
  filled : ∀ stream ∈ file.streams, stream.slug ≠ []
  slugs : (file.streams.map (·.slug)).Nodup

theorem tidy_empty (scope : JsString) : Tidy (emptyScopeFile scope) :=
  ⟨Nat.one_pos, by simp [emptyScopeFile], List.nodup_nil, by simp [emptyScopeFile], List.nodup_nil⟩

namespace Tidy

variable {file : StreamScopeFile}

/-- Nothing else than the ids, the slugs and the next id matters. -/
theorem congr (tidy : Tidy file) {streams : List StreamRecord} {scope : JsString}
    (ids : streams.map (·.id) = file.streams.map (·.id))
    (slugs : streams.map (·.slug) = file.streams.map (·.slug)) :
    Tidy ⟨scope, file.nextId, streams⟩ where
  positive := tidy.positive
  numbered := by
    intro stream inside
    have listed : stream.id ∈ file.streams.map (·.id) := ids ▸ List.mem_map_of_mem inside
    obtain ⟨old, before, same⟩ := List.mem_map.mp listed
    rw [← same]
    exact tidy.numbered old before
  ids := ids ▸ tidy.ids
  filled := by
    intro stream inside
    have listed : stream.slug ∈ file.streams.map (·.slug) := slugs ▸ List.mem_map_of_mem inside
    obtain ⟨old, before, same⟩ := List.mem_map.mp listed
    rw [← same]
    exact tidy.filled old before
  slugs := slugs ▸ tidy.slugs

/-- A stream with the next id and a free slug is added. -/
theorem push (tidy : Tidy file) {stream : StreamRecord}
    (id : stream.id = js "s-" ++ decimal file.nextId) (filled : stream.slug ≠ [])
    (free : stream.slug ∉ file.streams.map (·.slug)) :
    Tidy ⟨file.scope, file.nextId + 1, file.streams ++ [stream]⟩ where
  positive := Nat.succ_pos _
  numbered := by
    intro other inside
    rcases List.mem_append.mp inside with before | last
    · obtain ⟨n, below, same⟩ := tidy.numbered other before
      exact ⟨n, Nat.lt_succ_of_lt below, same⟩
    · obtain rfl := List.mem_singleton.mp last
      exact ⟨file.nextId, Nat.lt_succ_self _, id⟩
  ids := by
    rw [List.map_append, List.map_singleton, List.nodup_append_comm, List.singleton_append,
      List.nodup_cons]
    refine ⟨fun listed => ?_, tidy.ids⟩
    obtain ⟨old, before, same⟩ := List.mem_map.mp listed
    obtain ⟨n, below, named⟩ := tidy.numbered old before
    have same := named.symm.trans (same.trans id)
    exact Nat.ne_of_lt below (decimal_injective (List.append_cancel_left same))
  filled := by
    intro other inside
    rcases List.mem_append.mp inside with before | last
    · exact tidy.filled other before
    · obtain rfl := List.mem_singleton.mp last
      exact filled
  slugs := by
    rw [List.map_append, List.map_singleton, List.nodup_append_comm, List.singleton_append,
      List.nodup_cons]
    exact ⟨free, tidy.slugs⟩

end Tidy

theorem uniqueSlug_ne_nil (title : JsString) (streams : List StreamRecord)
    (ignoreId : Option JsString) : uniqueSlug title streams ignoreId ≠ [] :=
  nextFree_ne_nil (normalizeSlug_ne_nil title) _ _

theorem uniqueSlug_free (title : JsString) (streams : List StreamRecord) :
    uniqueSlug title streams none ∉ streams.map (·.slug) := by
  intro listed
  obtain ⟨stream, inside, same⟩ := List.mem_map.mp listed
  let taken (slug : JsString) : Bool :=
    streams.any fun stream => some stream.id ≠ none && stream.slug = slug
  have free : taken (firstFree taken (normalizeSlug title) (streams.map (·.slug)).length) = false := by
    refine firstFree_free fun s occupied => ?_
    obtain ⟨stream, inside, same⟩ := List.any_eq_true.mp occupied
    exact List.mem_map.mpr ⟨stream, inside, by simpa using same⟩
  rw [List.length_map] at free
  have other := List.any_eq_false.mp free stream inside
  rw [show firstFree taken (normalizeSlug title) streams.length = uniqueSlug title streams none from
    rfl, same] at other
  simp at other

theorem map_of_mapM {α β : Type} {f : α → Except JsString α} {g : α → β} {as bs : List α}
    (keeps : ∀ a ∈ as, ∀ b, f a = .ok b → g b = g a) (mapped : as.mapM f = .ok bs) :
    bs.map g = as.map g := by
  induction as generalizing bs with
  | nil =>
    cases mapped
    rfl
  | cons a as ih =>
    rw [List.mapM_cons] at mapped
    cases first : f a with
    | error detail => rw [first] at mapped; cases mapped
    | ok b =>
      cases rest : as.mapM f with
      | error detail => rw [first, rest] at mapped; cases mapped
      | ok bs' =>
        rw [first, rest] at mapped
        cases mapped
        rw [List.map_cons, List.map_cons, keeps a List.mem_cons_self b first,
          ih (fun a inside => keeps a (List.mem_cons_of_mem _ inside)) rest]

theorem normalizeStoredStream_keeps {scope : JsString} {raw stream : StreamRecord}
    (loaded : normalizeStoredStream scope raw = .ok stream) :
    stream.id = raw.id ∧ (raw.slug ≠ [] → stream.slug = raw.slug) := by
  unfold normalizeStoredStream at loaded
  cases status : normalizeStatus (some raw.status) (js "active") with
  | error detail => rw [status] at loaded; cases loaded
  | ok status' =>
    rw [status] at loaded
    cases loaded
    exact ⟨rfl, fun filled => by simp [filled]⟩

theorem Tidy.load {scope path : JsString} {stored : Option StreamScopeFile} {data : StreamScopeFile}
    (tidy : ∀ file, stored = some file → Tidy file)
    (loaded : loadScopeFile scope path stored = .ok data) : Tidy data := by
  cases stored with
  | none =>
    cases loaded
    exact tidy_empty scope
  | some file =>
    have tidy := tidy file rfl
    simp only [loadScopeFile] at loaded
    split at loaded
    · rename_i streams mapped
      rw [if_pos tidy.positive] at loaded
      cases loaded
      refine tidy.congr (map_of_mapM (fun raw _ stream same => ?_) mapped)
        (map_of_mapM (fun raw inside stream same => ?_) mapped)
      · exact (normalizeStoredStream_keeps same).1
      · exact (normalizeStoredStream_keeps same).2 (tidy.filled raw inside)
    · cases loaded

theorem addPinnedFacts_keeps (stream : StreamRecord) (texts : List JsString)
    (source : Option JsString) (clock : List Nat) :
    (addPinnedFacts stream texts source clock).1.id = stream.id ∧
      (addPinnedFacts stream texts source clock).1.slug = stream.slug := by
  induction texts generalizing stream clock with
  | nil => exact ⟨rfl, rfl⟩
  | cons raw texts ih =>
    unfold addPinnedFacts
    simp only
    split
    · exact ih stream clock
    · exact ih _ clock.tail

theorem Tidy.create {data saved : StreamScopeFile} {input : StreamCreateInput} {clock : List Nat}
    {stream : StreamRecord} (tidy : Tidy data)
    (created : createStream data input clock = .ok (saved, stream)) : Tidy saved := by
  unfold createStream at created
  cases status : normalizeStatus input.status (js "active") with
  | error detail => rw [status] at created; cases created
  | ok status' =>
    rw [status] at created
    cases created
    refine tidy.push ?_ ?_ ?_
    · exact (addPinnedFacts_keeps _ _ _ _).1
    · rw [(addPinnedFacts_keeps _ _ _ _).2]
      exact uniqueSlug_ne_nil _ _ _
    · rw [(addPinnedFacts_keeps _ _ _ _).2]
      exact uniqueSlug_free _ _

theorem update_keeps {stream updated : StreamRecord} {input : StreamUpdateInput} {clock : List Nat}
    (done : stream.update input clock = .ok updated) :
    updated.id = stream.id ∧ updated.slug = stream.slug := by
  unfold StreamRecord.update at done
  cases type : normalizeEntryType input.type with
  | error detail => rw [type] at done; cases done
  | ok type' =>
    rw [type] at done
    simp only [bind, Except.bind] at done
    split at done
    · cases done
    · cases done
      exact addPinnedFacts_keeps _ _ _ _

theorem set_of_getElem {α : Type} {as : List α} {index : Nat} {a : α}
    (found : as[index]? = some a) : as.set index a = as := by
  obtain ⟨inside, rfl⟩ := List.getElem?_eq_some_iff.mp found
  exact List.set_getElem_self inside

theorem Tidy.update {data saved : StreamScopeFile} {input : StreamUpdateInput} {clock : List Nat}
    {stream : StreamRecord} (tidy : Tidy data)
    (updated : updateStream data input clock = .ok (some (saved, stream))) : Tidy saved := by
  unfold updateStream at updated
  split at updated
  · cases updated
  · rename_i index _
    split at updated
    · cases updated
    · rename_i old found
      cases done : old.update input clock with
      | error detail => rw [done] at updated; cases updated
      | ok stream' =>
        rw [done] at updated
        cases updated
        obtain ⟨sameId, sameSlug⟩ := update_keeps done
        obtain ⟨inside, rfl⟩ := List.getElem?_eq_some_iff.mp found
        refine tidy.congr ?_ ?_
        · rw [List.map_set, sameId]
          exact set_of_getElem (by simp [inside])
        · rw [List.map_set, sameSlug]
          exact set_of_getElem (by simp [inside])

/-- Each migrated stream is added to those of the destination. -/
theorem Tidy.migrate {destination : StreamScopeFile} {groupName : JsString} {m : Migration}
    (stream : StreamRecord)
    (tidy : Tidy ⟨destination.scope, m.nextId, destination.streams ++ m.migratedStreams⟩) :
    Tidy ⟨destination.scope, (m.migrate destination groupName stream).nextId,
      destination.streams ++ (m.migrate destination groupName stream).migratedStreams⟩ := by
  unfold Migration.migrate
  rw [← List.append_assoc]
  exact tidy.push rfl (uniqueSlug_ne_nil _ _ _) (uniqueSlug_free _ _)

theorem Tidy.migrateSessionGroupStreams {source destination source' destination' : StreamScopeFile}
    {input : SessionGroupStreamMigrationInput} {result : SessionGroupStreamMigrationResult}
    (tidySource : Tidy source) (tidy : Tidy destination)
    (migrated : Streams.migrateSessionGroupStreams source destination input =
      (destination', source', result)) : Tidy destination' ∧ Tidy source' := by
  have loop (streams : List StreamRecord) (m : Migration)
      (tidy : Tidy ⟨destination.scope, m.nextId, destination.streams ++ m.migratedStreams⟩) :
      Tidy ⟨destination.scope, (streams.foldl (Migration.migrate destination input.groupName) m).nextId,
        destination.streams ++
          (streams.foldl (Migration.migrate destination input.groupName) m).migratedStreams⟩ := by
    induction streams generalizing m with
    | nil => exact tidy
    | cons stream streams ih => exact ih _ (tidy.migrate stream)
  cases migrated
  constructor
  · refine (loop source.streams ⟨destination.nextId, _, {}, {}, [], 0⟩ ?_).congr ?_ ?_
    · rw [List.append_nil]
      exact tidy
    · simp [Migration.remap, Function.comp_def]
    · simp [Migration.remap, Function.comp_def]
  · exact ⟨tidySource.positive, by simp, List.nodup_nil, by simp, List.nodup_nil⟩

end Takode.Streams
