import Takode.Streams.Loading
import Takode.Streams.Serial

/-!
# The streams of a session group move

A migration gives every stream of the source a copy at the end of the destination, with an id, a
slug and a title that are free there, and leads the references between the moved streams to the
copies. What loading reads is what was stored, as long as the store itself wrote it.
-/

namespace Takode.Streams

open JsString

/-! ## What the operations write is loaded as it is -/

section Writing

variable {scope : JsString} {stream : StreamRecord}

theorem addPinnedFacts_eq (stream : StreamRecord) (texts : List JsString)
    (source : Option JsString) (clock : List Nat) :
    (addPinnedFacts stream texts source clock).1 =
      { stream with pinnedFacts := (addPinnedFacts stream texts source clock).1.pinnedFacts } := by
  induction texts generalizing stream clock with
  | nil => rfl
  | cons raw texts ih =>
    unfold addPinnedFacts
    simp only
    split
    · exact ih stream clock
    · rw [ih]

theorem addPinnedFacts_pinned (pinned : Pinned stream.pinnedFacts) (texts : List JsString)
    (source : Option JsString) (clock : List Nat) :
    Pinned (addPinnedFacts stream texts source clock).1.pinnedFacts := by
  induction texts generalizing stream clock with
  | nil => exact pinned
  | cons raw texts ih =>
    unfold addPinnedFacts
    simp only
    split
    · exact ih pinned clock
    · rename_i filled
      refine ih ?_ clock.tail
      refine ⟨by simp, ?_⟩
      intro fact inside
      rcases List.mem_append.mp inside with old | new
      · exact pinned.2 fact old
      · rw [List.mem_singleton.mp new]
        exact ⟨trim_trim _, by simpa using filled, rfl⟩

theorem normalizeStatus_valid {status : Option JsString} {fallback given : JsString}
    (valid : VALID_STATUSES.contains fallback = true)
    (read : normalizeStatus status fallback = .ok given) : VALID_STATUSES.contains given = true := by
  unfold normalizeStatus at read
  split at read
  · cases read
    exact valid
  · split at read
    · rename_i listed
      cases read
      exact listed
    · cases read

theorem Good.create {data saved : StreamScopeFile} {input : StreamCreateInput} {clock : List Nat}
    (good : Good scope data) (created : createStream data input clock = .ok (saved, stream)) :
    Good scope saved := by
  have tidy := good.tidy.create created
  unfold createStream at created
  simp only [bind_eq_ok, pure_eq_ok] at created
  obtain ⟨status, read, made⟩ := created
  cases made
  refine ⟨tidy, good.home, ?_⟩
  intro other inside
  rcases List.mem_append.mp inside with old | new
  · exact good.normal other old
  · obtain rfl := List.mem_singleton.mp new
    have none : Pinned none := ⟨by simp, fun fact none => absurd none List.not_mem_nil⟩
    constructor
    · rw [addPinnedFacts_eq]
      exact good.home
    · rw [addPinnedFacts_eq]
      exact normalizeStatus_valid (by decide +kernel) read
    · rw [addPinnedFacts_eq]
      exact uniqueSlug_ne_nil _ _ _
    · rw [addPinnedFacts_eq]
      cases input.summary with
      | none => rfl
      | some text => exact trim_trim text
    · rw [addPinnedFacts_eq]
      exact linked_normalizeLinks _
    · rw [addPinnedFacts_eq]
      exact owned_none.mergeOwners _
    · exact addPinnedFacts_pinned none _ _ _

theorem StreamRecord.Normal.update {updated : StreamRecord} {input : StreamUpdateInput}
    {clock : List Nat} (normal : stream.Normal scope)
    (done : stream.update input clock = .ok updated) : updated.Normal scope := by
  unfold StreamRecord.update at done
  simp only [bind_eq_ok, pure_eq_ok] at done
  obtain ⟨type, -, status, read, rfl⟩ := done
  have added := addPinnedFacts_eq stream (input.pins.getD []) input.source clock.tail
  have pinned := addPinnedFacts_pinned normal.facts (input.pins.getD []) input.source clock.tail
  generalize (addPinnedFacts stream (input.pins.getD []) input.source clock.tail).1 = next at *
  constructor
  · rw [added]
    exact normal.home
  · refine normalizeStatus_valid ?_ read
    rw [added]
    exact normal.status
  · rw [added]
    exact normal.slug
  · rw [added]
    simp only [markStaleFacts]
    cases patch : normalizeStatePatch input.statePatch with
    | none => exact normal.summary
    | some patch' =>
      obtain ⟨raw, -, rfl⟩ := Option.map_eq_some_iff.mp (Option.mem_filter_iff.mp patch).1
      simp only [Option.map_some, Option.getD_some, StreamCurrentState.patched,
        StreamStatePatch.normalized]
      cases given : normalizeText raw.summary with
      | none => exact normal.summary
      | some text =>
        obtain ⟨raw', -, rfl⟩ := Option.map_eq_some_iff.mp (Option.mem_filter_iff.mp given).1
        exact trim_trim raw'
  · rw [added]
    exact normal.links.mergeLinks (linked_normalizeLinks _)
  · rw [added]
    exact normal.owners.mergeOwners _
  · refine pinned.markStale _ ?_
    intro fact old
    split
    · exact ⟨old.trimmed, old.filled, rfl⟩
    · exact old

theorem Good.update {data saved : StreamScopeFile} {input : StreamUpdateInput} {clock : List Nat}
    (good : Good scope data)
    (updated : updateStream data input clock = .ok (some (saved, stream))) : Good scope saved := by
  have tidy := good.tidy.update updated
  unfold updateStream at updated
  split at updated
  · cases updated
  · rename_i index _
    split at updated
    · cases updated
    · rename_i old found
      simp only [bind_eq_ok, pure_eq_ok] at updated
      obtain ⟨next, done, made⟩ := updated
      cases made
      refine ⟨tidy, good.home, ?_⟩
      intro other inside
      rcases List.mem_or_eq_of_mem_set inside with before | rfl
      · exact good.normal other before
      · exact (good.normal old (List.mem_of_getElem? found)).update done

end Writing

/-! ## The loop of a migration -/

/-- A name that is no white space, such as an id or a slug. -/
def Plain (name : JsString) : Prop := name ≠ [] ∧ ∀ c ∈ name, isSpace c = false

theorem isSpace_of_isDigit {c : UInt16} (digit : isDigit c = true) : isSpace c = false := by
  have range := toNat_of_isDigit digit
  rw [← UInt16.ofNat_toNat (x := c)]
  generalize c.toNat = n at range
  obtain ⟨low, high⟩ := range
  interval_cases n <;> rfl

theorem isSpace_of_isSlugChar {c : UInt16} (plain : isSlugChar c = true) : isSpace c = false := by
  rcases (Bool.or_eq_true _ _).mp plain with letter | digit
  · have range : 97 ≤ c.toNat ∧ c.toNat ≤ 122 := by
      simpa [UInt16.le_iff_toNat_le] using letter
    rw [← UInt16.ofNat_toNat (x := c)]
    generalize c.toNat = n at range
    obtain ⟨low, high⟩ := range
    interval_cases n <;> rfl
  · exact isSpace_of_isDigit digit

theorem mem_dashed {inside : Bool} {text : JsString} {c : UInt16} (listed : c ∈ dashed inside text) :
    isSlugChar c = true ∨ c = 45 := by
  induction text generalizing inside with
  | nil => exact absurd listed List.not_mem_nil
  | cons first rest ih =>
    unfold dashed at listed
    split at listed
    · rename_i plain
      rcases List.mem_cons.mp listed with rfl | later
      · exact Or.inl plain
      · exact ih later
    · split at listed
      · exact ih listed
      · rcases List.mem_cons.mp listed with rfl | later
        · exact Or.inr rfl
        · exact ih later

theorem plain_normalizeSlug (text : JsString) : Plain (normalizeSlug text) := by
  refine ⟨normalizeSlug_ne_nil text, ?_⟩
  unfold normalizeSlug
  simp only
  split
  · exact forall_mem_of_all (by decide +kernel)
  · intro c inside
    have stripped : c ∈ stripDashes (dashed false (lower text)) := List.mem_of_mem_take inside
    have kept : c ∈ dashed false (lower text) := by
      unfold stripDashes at stripped
      rw [List.mem_reverse] at stripped
      have front := (List.dropWhile_sublist _).subset stripped
      rw [List.mem_reverse] at front
      exact (List.dropWhile_sublist _).subset front
    rcases mem_dashed kept with plain | rfl
    · exact isSpace_of_isSlugChar plain
    · rfl

theorem plain_suffixed {base : JsString} (plain : Plain base) (suffix : Nat) :
    Plain (suffixed base suffix) := by
  refine ⟨by simp [suffixed, plain.1], ?_⟩
  intro c inside
  unfold suffixed at inside
  rcases List.mem_append.mp inside with front | digits
  · rcases List.mem_append.mp front with old | dash
    · exact plain.2 c old
    · obtain rfl : c = 45 := by simpa [js] using dash
      rfl
  · exact isSpace_of_isDigit (isDigit_of_mem_decimal digits)

theorem plain_nextFree {taken : JsString → Bool} {base name : JsString} (plain : Plain base)
    (plain' : Plain name) (fuel suffix : Nat) : Plain (nextFree taken base fuel suffix name) := by
  induction fuel generalizing suffix name with
  | zero => exact plain'
  | succ fuel ih =>
    unfold nextFree
    split
    · exact ih (plain_suffixed plain suffix) _
    · exact plain'

theorem plain_id (n : Nat) : Plain (js "s-" ++ decimal n) := by
  refine ⟨by simp [js], ?_⟩
  intro c inside
  rcases List.mem_append.mp inside with front | digits
  · have letters : ∀ c ∈ js "s-", isSpace c = false := forall_mem_of_all (by decide +kernel)
    exact letters c front
  · exact isSpace_of_isDigit (isDigit_of_mem_decimal digits)

theorem uniqueMigratedTitle_fresh (title : JsString) (existingTitles : List JsString)
    (sourceGroupName : JsString) :
    (uniqueMigratedTitle title existingTitles sourceGroupName).2 =
        (uniqueMigratedTitle title existingTitles sourceGroupName).1 :: existingTitles ∧
      (uniqueMigratedTitle title existingTitles sourceGroupName).1 ∉ existingTitles := by
  unfold uniqueMigratedTitle
  simp only
  generalize (if (trim title).isEmpty then js "Stream" else trim title) = normalizedTitle
  generalize (if (trim sourceGroupName).isEmpty then js "default" else trim sourceGroupName) = group
  split
  · refine ⟨rfl, ?_⟩
    have free := @firstFree_free existingTitles.contains
      (group ++ js "-" ++ normalizedTitle) existingTitles fun s listed => by simpa using listed
    simpa using free
  · rename_i free
    exact ⟨rfl, by simpa using free⟩

/-- The streams that the loop has gone through, and their copies. -/
structure Moved (destination : StreamScopeFile) (sources : List StreamRecord) (m : Migration) :
    Prop where
  copies : List.Forall₂ (fun source copy => copy =
      { source with id := copy.id, title := copy.title, slug := copy.slug, scope := destination.scope } ∧
    Plain copy.id ∧ Plain copy.slug ∧
    m.idMap.get? source.id = some copy.id ∧ m.slugMap.get? source.slug = some copy.slug)
    sources m.migratedStreams
  ids : ∀ ref, (∀ source ∈ sources, source.id ≠ ref) → m.idMap.get? ref = none
  slugs : ∀ ref, (∀ source ∈ sources, source.slug ≠ ref) → m.slugMap.get? ref = none
  titles : ∀ title, title ∈ m.existingTitles ↔
    title ∈ destination.streams.map (·.title) ∨ title ∈ m.migratedStreams.map (·.title)
  fresh : ((destination.streams.map (·.title)).Disjoint (m.migratedStreams.map (·.title)))
  distinct : (m.migratedStreams.map (·.title)).Nodup

theorem Moved.migrate {destination : StreamScopeFile} {sources : List StreamRecord} {m : Migration}
    (moved : Moved destination sources m) (groupName : JsString) {stream : StreamRecord}
    (newId : ∀ source ∈ sources, source.id ≠ stream.id)
    (newSlug : ∀ source ∈ sources, source.slug ≠ stream.slug) :
    Moved destination (sources ++ [stream]) (m.migrate destination groupName stream) := by
  obtain ⟨added, free⟩ := uniqueMigratedTitle_fresh stream.title m.existingTitles groupName
  unfold Migration.migrate
  generalize named : uniqueMigratedTitle stream.title m.existingTitles groupName = answer at *
  obtain ⟨title, existingTitles⟩ := answer
  simp only at added free ⊢
  subst added
  have outside := fun listed => free ((moved.titles title).mpr listed)
  constructor
  case copies =>
    refine List.rel_append ?_ (List.Forall₂.cons ?_ List.Forall₂.nil)
    · have apart := (List.forall₂_and_left (p := fun source : StreamRecord =>
        source.id ≠ stream.id ∧ source.slug ≠ stream.slug) _ _).mpr
          ⟨fun source inside => ⟨newId source inside, newSlug source inside⟩, moved.copies⟩
      refine apart.imp ?_
      rintro source copy ⟨⟨otherId, otherSlug⟩, same, plain, plain', id, slug⟩
      refine ⟨same, plain, plain', ?_, ?_⟩
      · rw [JsMap.get?_set_of_ne otherId]
        exact id
      · rw [JsMap.get?_set_of_ne otherSlug]
        exact slug
    · refine ⟨rfl, plain_id _, plain_nextFree (plain_normalizeSlug _) (plain_normalizeSlug _) _ _,
        JsMap.get?_set_self, JsMap.get?_set_self⟩
  case ids =>
    intro ref none
    have other : ref ≠ stream.id := fun same =>
      none stream (List.mem_append_right _ (List.mem_singleton_self _)) same.symm
    rw [JsMap.get?_set_of_ne other]
    exact moved.ids ref fun source inside => none source (List.mem_append_left _ inside)
  case slugs =>
    intro ref none
    have other : ref ≠ stream.slug := fun same =>
      none stream (List.mem_append_right _ (List.mem_singleton_self _)) same.symm
    rw [JsMap.get?_set_of_ne other]
    exact moved.slugs ref fun source inside => none source (List.mem_append_left _ inside)
  case titles =>
    intro other
    rw [List.mem_cons, moved.titles other, List.map_append, List.mem_append, List.map_singleton,
      List.mem_singleton]
    tauto
  case fresh =>
    rw [List.map_append, List.map_singleton, List.disjoint_append_right]
    refine ⟨moved.fresh, ?_⟩
    intro other listed last
    rw [List.mem_singleton] at last
    subst last
    exact outside (Or.inl listed)
  case distinct =>
    rw [List.map_append, List.map_singleton, List.nodup_append_comm, List.singleton_append,
      List.nodup_cons]
    exact ⟨fun listed => outside (Or.inr listed), moved.distinct⟩

theorem moved_start (destination : StreamScopeFile) :
    Moved destination []
      { nextId := destination.nextId, existingTitles := destination.streams.map (·.title) } := by
  constructor
  · exact List.Forall₂.nil
  · exact fun ref _ => rfl
  · exact fun ref _ => rfl
  · simp
  · simp
  · exact List.nodup_nil

theorem Moved.foldl {destination : StreamScopeFile} {sources streams : List StreamRecord}
    {m : Migration} (moved : Moved destination sources m) (groupName : JsString)
    (ids : ((sources ++ streams).map (·.id)).Nodup)
    (slugs : ((sources ++ streams).map (·.slug)).Nodup) :
    Moved destination (sources ++ streams)
      (streams.foldl (Migration.migrate destination groupName) m) := by
  induction streams generalizing sources m with
  | nil =>
    rw [List.append_nil]
    exact moved
  | cons stream rest ih =>
    have next : sources ++ stream :: rest = sources ++ [stream] ++ rest := by simp
    rw [next] at ids slugs ⊢
    rw [List.foldl_cons]
    refine ih ?_ ids slugs
    have earlier {f : StreamRecord → JsString}
        (distinct : ((sources ++ [stream] ++ rest).map f).Nodup) :
        ∀ source ∈ sources, f source ≠ f stream := by
      intro source inside same
      rw [List.map_append, List.map_append, List.nodup_append] at distinct
      have front := (List.nodup_append.mp distinct.1).2.2
      exact front _ (List.mem_map_of_mem inside) _ (List.mem_singleton.mpr rfl) same
    exact moved.migrate groupName (earlier ids) (earlier slugs)

/-! ## References -/

/-- The links with references led elsewhere: those to streams. -/
def relinked (lead : JsString → JsString) (links : Option (List StreamLink)) :
    Option (List StreamLink) :=
  links.map fun links => links.map fun link =>
    if link.type = js "stream" then { link with ref := lead link.ref } else link

/-- A copy of a stream: nothing but its keys, its scope and its references is another. -/
def Copy (scope : JsString) (lead : JsString → JsString) (source copy : StreamRecord) : Prop :=
  copy = { source with
    id := copy.id
    slug := copy.slug
    title := copy.title
    scope
    parentId := source.parentId.map lead
    childIds := source.childIds.map fun ids => ids.map lead
    links := relinked lead source.links
    timeline := source.timeline.map fun entry => { entry with links := relinked lead entry.links } }

/-- References are led from a moved stream to its copy: by its id, or else by its slug. -/
structure Leads (lead : JsString → JsString) (sources copies : List StreamRecord) : Prop where
  keys : List.Forall₂ (fun source copy => lead source.id = copy.id ∧
    ((∀ other ∈ sources, other.id ≠ source.slug) → lead source.slug = copy.slug)) sources copies
  others : ∀ ref, (∀ source ∈ sources, source.id ≠ ref ∧ source.slug ≠ ref) → lead ref = ref

section References

theorem exists_copy {α β : Type} {R : α → β → Prop} {as : List α} {bs : List β}
    (related : List.Forall₂ R as bs) : ∀ a ∈ as, ∃ b ∈ bs, R a b := by
  induction related with
  | nil => exact fun a none => absurd none List.not_mem_nil
  | @cons first copy _ _ one _ ih =>
    intro a inside
    rcases List.mem_cons.mp inside with rfl | later
    · exact ⟨copy, List.mem_cons_self, one⟩
    · obtain ⟨b, listed, given⟩ := ih a later
      exact ⟨b, List.mem_cons_of_mem _ listed, given⟩

theorem exists_source {α β : Type} {R : α → β → Prop} {as : List α} {bs : List β}
    (related : List.Forall₂ R as bs) : ∀ b ∈ bs, ∃ a ∈ as, R a b :=
  exists_copy related.flip

variable {destination : StreamScopeFile} {sources : List StreamRecord} {m : Migration}

theorem truthy_of_plain {name : JsString} (plain : Plain name) : truthy (some name) = some name := by
  simp [truthy, plain.1]

theorem Moved.plain_or_same (moved : Moved destination sources m) (ref : JsString) :
    Plain (m.remapStreamRef ref) ∨ m.remapStreamRef ref = ref := by
  have listed {key : StreamRecord → JsString} {map : JsMap JsString JsString}
      (copied : List.Forall₂ (fun source copy =>
        ∃ name, Plain name ∧ map.get? (key source) = some name) sources m.migratedStreams)
      (absent : ∀ ref, (∀ source ∈ sources, key source ≠ ref) → map.get? ref = none) {name : JsString}
      (found : map.get? ref = some name) : Plain name := by
    by_cases there : ∃ source ∈ sources, key source = ref
    · obtain ⟨source, inside, same⟩ := there
      obtain ⟨copy, -, name', plain, found'⟩ := exists_copy copied source inside
      rw [same, found] at found'
      rwa [Option.some.inj found']
    · rw [absent ref fun source inside same => there ⟨source, inside, same⟩] at found
      cases found
  unfold Migration.remapStreamRef
  split
  · exact Or.inr rfl
  · cases first : m.idMap.get? ref with
    | some id =>
      have plain := listed
        (moved.copies.imp fun source copy given => ⟨copy.id, given.2.1, given.2.2.2.1⟩) moved.ids first
      left
      simpa [truthy_of_plain plain] using plain
    | none =>
      cases second : m.slugMap.get? ref with
      | some slug =>
        have plain := listed
          (moved.copies.imp fun source copy given => ⟨copy.slug, given.2.2.1, given.2.2.2.2⟩)
          moved.slugs second
        left
        rw [truthy_of_plain plain]
        exact plain
      | none =>
        right
        rfl

theorem Moved.leads (moved : Moved destination sources m)
    (filled : ∀ source ∈ sources, source.id ≠ [] ∧ source.slug ≠ []) :
    Leads m.remapStreamRef sources m.migratedStreams := by
  constructor
  · have given := (List.forall₂_and_left (p := fun source : StreamRecord =>
      source.id ≠ [] ∧ source.slug ≠ []) _ _).mpr ⟨filled, moved.copies⟩
    refine given.imp ?_
    rintro source copy ⟨⟨named, titled⟩, -, plain, plain', id, slug⟩
    constructor
    · simp [Migration.remapStreamRef, id, truthy_of_plain plain, named]
    · intro other
      rw [Migration.remapStreamRef, moved.ids _ other, slug, truthy_of_plain plain']
      simp [titled, truthy]
  · intro ref none
    have noId := moved.ids ref fun source inside => (none source inside).1
    have noSlug := moved.slugs ref fun source inside => (none source inside).2
    rw [Migration.remapStreamRef, noId, noSlug]
    split <;> rfl

theorem Moved.copied (moved : Moved destination sources m) :
    List.Forall₂ (Copy destination.scope m.remapStreamRef) sources (m.migratedStreams.map m.remap) := by
  rw [List.forall₂_map_right_iff]
  refine moved.copies.imp ?_
  rintro source copy ⟨same, -⟩
  rw [Copy, Migration.remap]
  conv_lhs => rw [same]
  rfl

theorem Linked.relinked {links : Option (List StreamLink)} (linked : Linked links)
    {lead : JsString → JsString} (plain : ∀ ref, Plain (lead ref) ∨ lead ref = ref) :
    Linked (relinked lead links) := by
  cases links with
  | none => exact linked
  | some links =>
    refine ⟨?_, ?_⟩
    · intro none
      have none : links = [] := by simpa [Streams.relinked] using none
      exact linked.1 (congrArg some none)
    · intro link inside
      obtain ⟨old, listed, rfl⟩ := List.mem_map.mp inside
      have normal := linked.2 old listed
      by_cases stream : old.type = js "stream"
      · rw [if_pos stream]
        rcases plain old.ref with plain | same
        · exact ⟨trim_of_not_space plain.2, plain.1, normal.label⟩
        · rw [same]
          exact normal
      · rw [if_neg stream]
        exact normal

end References

theorem Good.migrate {source destination : StreamScopeFile} {scope scope' : JsString}
    (good : Good scope source) (good' : Good scope' destination)
    (input : SessionGroupStreamMigrationInput) :
    Good scope' (migrateSessionGroupStreams source destination input).1 := by
  have moved := @Moved.foldl destination _ source.streams _ (moved_start destination) input.groupName
    good.tidy.ids good.tidy.slugs
  rw [List.nil_append] at moved
  refine ⟨(Tidy.migrateSessionGroupStreams good.tidy good'.tidy rfl).1, good'.home, ?_⟩
  intro stream inside
  rcases List.mem_append.mp inside with old | new
  · exact good'.normal stream old
  · obtain ⟨copy, listed, rfl⟩ := List.mem_map.mp new
    obtain ⟨old, inside, same, -, plain, -⟩ := exists_source moved.copies copy listed
    have normal := good.normal old inside
    have home : copy.scope = destination.scope := by rw [same]
    have status : copy.status = old.status := by rw [same]
    have current : copy.current = old.current := by rw [same]
    have links : copy.links = old.links := by rw [same]
    have owners : copy.owners = old.owners := by rw [same]
    have facts : copy.pinnedFacts = old.pinnedFacts := by rw [same]
    constructor
    · exact home.trans good'.home
    · exact status ▸ normal.status
    · exact plain.1
    · show trim copy.current.summary = copy.current.summary
      rw [current]
      exact normal.summary
    · show Linked (relinked _ copy.links)
      rw [links]
      exact normal.links.relinked moved.plain_or_same
    · show Owned copy.owners
      rw [owners]
      exact normal.owners
    · show Pinned copy.pinnedFacts
      rw [facts]
      exact normal.facts

/-! ## Files that the store itself wrote -/

/-- The files of a scope that the operations leave, from what they have read of it. -/
inductive Stored : JsString → StreamScopeFile → Prop
  | created {scope path : JsString} {stored : Option StreamScopeFile} {data saved : StreamScopeFile}
      {input : StreamCreateInput} {clock : List Nat} {stream : StreamRecord} :
      (∀ file, stored = some file → Stored scope file) → loadScopeFile scope path stored = .ok data →
      createStream data input clock = .ok (saved, stream) → Stored scope saved
  | updated {scope path : JsString} {stored : Option StreamScopeFile} {data saved : StreamScopeFile}
      {input : StreamUpdateInput} {clock : List Nat} {stream : StreamRecord} :
      (∀ file, stored = some file → Stored scope file) → loadScopeFile scope path stored = .ok data →
      updateStream data input clock = .ok (some (saved, stream)) → Stored scope saved
  | emptied {scope scope' path path' : JsString} {stored stored' : Option StreamScopeFile}
      {source destination : StreamScopeFile} {input : SessionGroupStreamMigrationInput} :
      (∀ file, stored = some file → Stored scope file) →
      loadScopeFile scope path stored = .ok source →
      (∀ file, stored' = some file → Stored scope' file) →
      loadScopeFile scope' path' stored' = .ok destination →
      Stored scope (migrateSessionGroupStreams source destination input).2.1
  | filled {scope scope' path path' : JsString} {stored stored' : Option StreamScopeFile}
      {source destination : StreamScopeFile} {input : SessionGroupStreamMigrationInput} :
      (∀ file, stored = some file → Stored scope file) →
      loadScopeFile scope path stored = .ok source →
      (∀ file, stored' = some file → Stored scope' file) →
      loadScopeFile scope' path' stored' = .ok destination →
      Stored scope' (migrateSessionGroupStreams source destination input).1

theorem load_of_good {scope path : JsString} {stored : Option StreamScopeFile}
    (good : ∀ file, stored = some file → Good scope file) :
    loadScopeFile scope path stored = .ok (stored.getD (emptyScopeFile scope)) ∧
      Good scope (stored.getD (emptyScopeFile scope)) := by
  cases stored with
  | none => exact ⟨rfl, good_empty scope⟩
  | some file => exact ⟨(good file rfl).load path, good file rfl⟩

theorem Good.loaded {scope path : JsString} {stored : Option StreamScopeFile}
    {data : StreamScopeFile} (good : ∀ file, stored = some file → Good scope file)
    (loaded : loadScopeFile scope path stored = .ok data) : Good scope data := by
  obtain ⟨same, good⟩ := @load_of_good scope path _ good
  rw [same] at loaded
  exact Except.ok.inj loaded ▸ good

theorem Stored.good {scope : JsString} {file : StreamScopeFile} (stored : Stored scope file) :
    Good scope file := by
  induction stored with
  | created _ loaded done ih => exact (Good.loaded ih loaded).create done
  | updated _ loaded done ih => exact (Good.loaded ih loaded).update done
  | emptied _ loaded _ _ ih _ =>
    have good := Good.loaded ih loaded
    exact ⟨⟨good.tidy.positive, fun _ none => absurd none List.not_mem_nil, List.nodup_nil,
      fun _ none => absurd none List.not_mem_nil, List.nodup_nil⟩, good.home,
      fun _ none => absurd none List.not_mem_nil⟩
  | filled _ loaded _ loaded' ih ih' => exact (Good.loaded ih loaded).migrate (Good.loaded ih' loaded') _

/-- The streams that are stored at a path. -/
def streamsAt (disk : Disk) (path : JsString) : List StreamRecord :=
  ((disk path).map (·.streams)).getD []

/-- A migration loses nothing: every stream of the source is moved once, the destination keeps its
streams as they are, the moved ones have an id, a slug and a title of their own, and the references
between them lead to the copies: one that is an id by the id, any other that is a slug by the slug. -/
theorem migration_loses_nothing (path : JsString → JsString) (disk : Disk)
    (input : SessionGroupStreamMigrationInput) (clock : List Nat)
    (files : ∀ scope file, disk (path scope) = some file → Stored scope file)
    (apart : input.sourceScope ≠ input.destinationScope →
      path input.sourceScope ≠ path input.destinationScope) :
    let source := streamsAt disk (path input.sourceScope)
    let destination := streamsAt disk (path input.destinationScope)
    ∃ disk' result, (Request.migrate input).alone path disk clock =
        (disk', .ended (.ok (.migrated result))) ∧
      (∀ p, p ≠ path input.sourceScope → p ≠ path input.destinationScope → disk' p = disk p) ∧
      (input.sourceScope = input.destinationScope → disk' = disk ∧ result.migratedCount = 0) ∧
      (input.sourceScope ≠ input.destinationScope → ∃ moved lead,
        streamsAt disk' (path input.destinationScope) = destination ++ moved ∧
        streamsAt disk' (path input.sourceScope) = [] ∧
        result.migratedCount = source.length ∧
        List.Forall₂ (Copy input.destinationScope lead) source moved ∧
        Leads lead source moved ∧
        ((destination ++ moved).map (·.id)).Nodup ∧ ((destination ++ moved).map (·.slug)).Nodup ∧
        (moved.map (·.title)).Nodup ∧
        (destination.map (·.title)).Disjoint (moved.map (·.title))) := by
  obtain ⟨loaded, goodSource⟩ := @load_of_good input.sourceScope (path input.sourceScope) _
    fun file held => (files input.sourceScope file held).good
  obtain ⟨loaded', goodDestination⟩ := @load_of_good input.destinationScope (path input.destinationScope) _
    fun file held => (files input.destinationScope file held).good
  have atPath (scope : JsString) : ((disk (path scope)).getD (emptyScopeFile scope)).streams =
      streamsAt disk (path scope) := by
    unfold streamsAt
    cases disk (path scope) <;> rfl
  generalize read : (disk (path input.sourceScope)).getD (emptyScopeFile input.sourceScope) =
    source at loaded goodSource
  generalize read' : (disk (path input.destinationScope)).getD
    (emptyScopeFile input.destinationScope) = destination at loaded' goodDestination
  have sources := atPath input.sourceScope
  have destinations := atPath input.destinationScope
  rw [read] at sources
  rw [read'] at destinations
  simp only
  rw [← sources, ← destinations]
  by_cases same : input.sourceScope = input.destinationScope
  · refine ⟨disk, _, Request.alone_of_start (if_pos same), fun _ _ _ => rfl, fun _ => ⟨rfl, rfl⟩, ?_⟩
    exact fun other => absurd same other
  · have started : (Request.migrate input).start = .loading := if_neg same
    by_cases empty : source.streams = []
    · have nothing : (Request.migrate input).load path disk clock =
          .ended (.ok (.migrated ⟨input.sourceScope, input.destinationScope, 0, 0⟩)) := by
        simp only [Request.load, Request.scope, loaded, bind, Except.bind, empty]
        rfl
      refine ⟨disk, _, Request.alone_of_load started nothing, fun _ _ _ => rfl,
        fun equal => absurd equal same, fun _ => ⟨[], id, ?_, ?_, ?_, ?_, ?_, ?_, ?_, ?_, ?_⟩⟩
      · rw [List.append_nil]
        exact destinations.symm
      · rw [← sources]
        exact empty
      · rw [empty]
        rfl
      · rw [empty]
        exact List.Forall₂.nil
      · rw [empty]
        exact ⟨List.Forall₂.nil, fun _ _ => rfl⟩
      · rw [List.append_nil]
        exact goodDestination.tidy.ids
      · rw [List.append_nil]
        exact goodDestination.tidy.slugs
      · exact List.nodup_nil
      · exact List.disjoint_nil_right _
    · have first : (Request.migrate input).load path disk clock = .loadingDestination source := by
        have filled : source.streams.isEmpty = false := by simpa using empty
        simp only [Request.load, Request.scope, loaded, bind, Except.bind, filled]
        rfl
      have second : (Request.migrate input).loadDestination path disk source =
          .savingDestination (migrateSessionGroupStreams source destination input).1
            (migrateSessionGroupStreams source destination input).2.1
            (migrateSessionGroupStreams source destination input).2.2 := by
        simp only [Request.loadDestination, loaded', bind, Except.bind]
        rfl
      have scope : (migrateSessionGroupStreams source destination input).1.scope =
          input.destinationScope := goodDestination.home
      have scope' : (migrateSessionGroupStreams source destination input).2.1.scope =
          input.sourceScope := goodSource.home
      have moved := @Moved.foldl destination _ source.streams _ (moved_start destination) input.groupName
        goodSource.tidy.ids goodSource.tidy.slugs
      rw [List.nil_append] at moved
      have tidy := (@Tidy.migrateSessionGroupStreams _ _ _ _ input _ goodSource.tidy
        goodDestination.tidy rfl).1
      have ran := @Request.alone_of_migrating _ _ _ clock _ _ _ _ started first second
      rw [scope, scope'] at ran
      have copied := moved.copied
      have leads := moved.leads fun stream inside => ⟨by
          obtain ⟨n, -, named⟩ := goodSource.tidy.numbered stream inside
          rw [named]
          simp [js], goodSource.tidy.filled stream inside⟩
      have distinct := moved.distinct
      have fresh := moved.fresh
      generalize ended : source.streams.foldl (Migration.migrate destination input.groupName)
        { nextId := destination.nextId, existingTitles := destination.streams.map (·.title) } = m
        at moved copied leads distinct fresh
      have streams : (migrateSessionGroupStreams source destination input).1.streams =
          destination.streams ++ m.migratedStreams.map m.remap := by
        rw [← ended]
        rfl
      have titles : (m.migratedStreams.map m.remap).map (·.title) =
          m.migratedStreams.map (·.title) := by
        rw [List.map_map]
        rfl
      refine ⟨_, _, ran, ?_, fun equal => absurd equal same, fun _ =>
        ⟨m.migratedStreams.map m.remap, m.remapStreamRef, ?_, ?_, ?_, ?_, ?_, ?_, ?_, ?_, ?_⟩⟩
      · intro p elsewhere elsewhere'
        rw [Disk.set_of_ne _ _ elsewhere, Disk.set_of_ne _ _ elsewhere']
      · rw [streamsAt, Disk.set_of_ne _ _ (Ne.symm (apart same)), Disk.set_self]
        exact streams
      · rw [streamsAt, Disk.set_self]
        rfl
      · have length := moved.copies.length_eq
        have count : (migrateSessionGroupStreams source destination input).2.2.migratedCount =
            m.migratedStreams.length := by
          rw [← ended]
          rfl
        rw [count, length]
      · rw [← goodDestination.home]
        exact copied
      · refine ⟨?_, leads.others⟩
        rw [List.forall₂_map_right_iff]
        exact leads.keys
      · rw [← streams]
        exact tidy.ids
      · rw [← streams]
        exact tidy.slugs
      · rw [titles]
        exact distinct
      · rw [titles]
        exact fresh

/-- `resolveStream`. -/
def resolveStream (data : StreamScopeFile) (ref : JsString) : Option StreamRecord :=
  data.streams.find? fun stream => streamMatchesRef stream ref

section Example

def sourceScope : JsString := js "local:session-group:a"
def destinationScope : JsString := js "local:session-group:b"

def movingToB : SessionGroupStreamMigrationInput where
  sourceGroupId := js "a"
  destinationGroupId := js "b"

/-- What is stored after a stream is created, if it is. -/
def createNext (scope : JsString) (stored : Option StreamScopeFile) (input : StreamCreateInput) :
    Option StreamScopeFile :=
  match loadScopeFile scope [] stored with
  | .ok data =>
    match createStream data input [] with
    | .ok (saved, _) => some saved
    | .error _ => stored
  | .error _ => stored

def createAll (scope : JsString) (inputs : List StreamCreateInput) : Option StreamScopeFile :=
  inputs.foldl (createNext scope) none

theorem stored_createAll {scope : JsString} {inputs : List StreamCreateInput} :
    ∀ file, createAll scope inputs = some file → Stored scope file := by
  have next {stored : Option StreamScopeFile} (held : ∀ file, stored = some file → Stored scope file)
      (input : StreamCreateInput) :
      ∀ file, createNext scope stored input = some file → Stored scope file := by
    intro file given
    unfold createNext at given
    split at given
    · rename_i data loaded
      split at given
      · rename_i saved stream made
        cases given
        exact .created held loaded made
      · exact held file given
    · exact held file given
  have step (inputs : List StreamCreateInput) (stored : Option StreamScopeFile)
      (held : ∀ file, stored = some file → Stored scope file) :
      ∀ file, inputs.foldl (createNext scope) stored = some file → Stored scope file := by
    induction inputs generalizing stored with
    | nil => exact held
    | cons input rest ih => exact ih _ (next held input)
  exact step inputs none fun _ none => (by cases none)

/-- The third names the first by its slug, which is the id of the second. -/
def sourceStreams : List StreamCreateInput :=
  [{ title := js "S 2", scope := sourceScope }, { title := js "Alpha", scope := sourceScope },
    { title := js "Gamma", scope := sourceScope, parent := some (js "s-2") }]

def destinationStreams : List StreamCreateInput :=
  [{ title := js "Delta", scope := destinationScope }]

/-- A reference that is the slug of one stream and the id of another leads to the other one
afterwards. -/
theorem slug_led_elsewhere : ∃ source destination child named copy copyOfNamed,
    Stored sourceScope source ∧ Stored destinationScope destination ∧
    loadScopeFile movingToB.sourceScope [] (some source) = .ok source ∧
    loadScopeFile movingToB.destinationScope [] (some destination) = .ok destination ∧
    source.streams[2]? = some child ∧ child.parentId = some (js "s-2") ∧
    resolveStream source (js "s-2") = some named ∧ named.slug = js "s-2" ∧
    source.streams[0]? = some named ∧
    (migrateSessionGroupStreams source destination movingToB).1.streams[1]? = some copyOfNamed ∧
    (migrateSessionGroupStreams source destination movingToB).1.streams[3]? = some copy ∧
    copy.parentId ≠ some copyOfNamed.id ∧ copy.parentId ≠ some copyOfNamed.slug := by
  have held : (createAll sourceScope sourceStreams).isSome = true := by decide +kernel
  have held' : (createAll destinationScope destinationStreams).isSome = true := by decide +kernel
  obtain ⟨source, made⟩ := Option.isSome_iff_exists.mp held
  obtain ⟨destination, made'⟩ := Option.isSome_iff_exists.mp held'
  have stored := stored_createAll source made
  have stored' := stored_createAll destination made'
  have facts : ((createAll sourceScope sourceStreams).any fun source =>
      (createAll destinationScope destinationStreams).any fun destination =>
        (source.streams[2]?.any fun child => child.parentId = some (js "s-2")) &&
        ((resolveStream source (js "s-2")).any fun named => named.slug = js "s-2" &&
          source.streams[0]? = some named) &&
        let streams := (migrateSessionGroupStreams source destination movingToB).1.streams
        (streams[1]?.any fun copyOfNamed => streams[3]?.any fun copy =>
          copy.parentId ≠ some copyOfNamed.id && copy.parentId ≠ some copyOfNamed.slug)) = true := by
    decide +kernel
  rw [made, made'] at facts
  simp only [Option.any_some, Bool.and_eq_true] at facts
  obtain ⟨⟨child, named⟩, copies⟩ := facts
  obtain ⟨child, third, parent⟩ := (Option.any_eq_true _ _).mp child
  obtain ⟨named, resolved, slug⟩ := (Option.any_eq_true _ _).mp named
  obtain ⟨copyOfNamed, second, copies⟩ := (Option.any_eq_true _ _).mp copies
  obtain ⟨copy, fourth, differs⟩ := (Option.any_eq_true _ _).mp copies
  simp only [Bool.and_eq_true, decide_eq_true_eq] at parent slug differs
  exact ⟨source, destination, child, named, copy, copyOfNamed, stored, stored', stored.good.load [],
    stored'.good.load [], third, parent, resolved, slug.1, slug.2, second, fourth, differs.1, differs.2⟩

/-- The streams of the two groups, of which one is moved to the other. -/
def groupsDisk : Disk := fun p =>
  if p = sourceScope then createAll sourceScope [{ title := js "Build", scope := sourceScope },
    { title := js "Test", scope := sourceScope, parent := some (js "build") }]
  else if p = destinationScope then createAll destinationScope
    [{ title := js "Build", scope := destinationScope }]
  else none

theorem groups_moved : ∃ disk' result moved lead,
    (Request.migrate movingToB).alone id groupsDisk [] = (disk', .ended (.ok (.migrated result))) ∧
      streamsAt disk' destinationScope = streamsAt groupsDisk destinationScope ++ moved ∧
      List.Forall₂ (Copy destinationScope lead) (streamsAt groupsDisk sourceScope) moved ∧
      Leads lead (streamsAt groupsDisk sourceScope) moved := by
  have scope : movingToB.sourceScope = sourceScope := by decide +kernel
  have scope' : movingToB.destinationScope = destinationScope := by decide +kernel
  have other : movingToB.sourceScope ≠ movingToB.destinationScope := by
    rw [scope, scope']
    decide +kernel
  obtain ⟨disk', result, ran, -, -, moves⟩ := migration_loses_nothing id groupsDisk movingToB [] (by
    intro scope file held
    unfold groupsDisk at held
    split at held
    · rename_i same
      obtain rfl : scope = sourceScope := same
      exact stored_createAll file held
    · split at held
      · rename_i same
        obtain rfl : scope = destinationScope := same
        exact stored_createAll file held
      · cases held) fun _ => other
  obtain ⟨moved, lead, joined, -, -, copies, leads, -⟩ := moves other
  rw [scope, scope'] at *
  exact ⟨disk', result, moved, lead, ran, joined, copies, leads⟩

end Example

end Takode.Streams
