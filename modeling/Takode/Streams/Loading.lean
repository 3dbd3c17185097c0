import Takode.Lib.Except
import Takode.Streams.Tidy

/-!
# Stored streams are loaded as they are

What the operations write of a stream is in the form that loading gives it, so a file that they left
is read back unchanged.
-/

namespace Takode.Streams

open JsString

theorem truthy_eq_some {value : Option JsString} {s : JsString} (given : truthy value = some s) :
    s ≠ [] := by
  have filled := (Option.mem_filter_iff.mp given).2
  simpa using filled

theorem truthy_trim {value : Option JsString} :
    truthy ((truthy (value.map trim)).map trim) = truthy (value.map trim) := by
  cases given : truthy (value.map trim) with
  | none => rfl
  | some s =>
    have filled := truthy_eq_some given
    obtain ⟨raw, -, rfl⟩ := Option.map_eq_some_iff.mp (Option.mem_filter_iff.mp given).1
    rw [Option.map_some, trim_trim]
    simp [truthy, filled]

/-! ## Links -/

structure StreamLink.Normal (link : StreamLink) : Prop where
  trimmed : trim link.ref = link.ref
  filled : link.ref ≠ []
  label : truthy (link.label.map trim) = link.label

def Linked (links : Option (List StreamLink)) : Prop :=
  links ≠ some [] ∧ ∀ link ∈ links.getD [], link.Normal

theorem nonEmpty_getD {α : Type} {items : Option (List α)} (listed : items ≠ some []) :
    nonEmpty (items.getD []) = items := by
  cases items with
  | none => rfl
  | some items =>
    have filled : items ≠ [] := fun none => listed (congrArg some none)
    simp [nonEmpty, filled]

theorem nonEmpty_ne {α : Type} (items : List α) : nonEmpty items ≠ some [] := by
  unfold nonEmpty
  split
  · simp
  · rename_i filled
    simpa using filled

@[simp] theorem getD_nonEmpty {α : Type} (items : List α) : (nonEmpty items).getD [] = items := by
  unfold nonEmpty
  split
  · rename_i none
    rw [List.isEmpty_iff.mp none]
    rfl
  · rfl

theorem linked_of_forall {items : List StreamLink} (normal : ∀ link ∈ items, link.Normal) :
    Linked (nonEmpty items) := by
  refine ⟨nonEmpty_ne items, ?_⟩
  rwa [getD_nonEmpty]

theorem linked_normalizeLinks (links : Option (List StreamLink)) : Linked (normalizeLinks links) := by
  refine linked_of_forall ?_
  intro link inside
  obtain ⟨mapped, filled⟩ := List.mem_filter.mp inside
  obtain ⟨raw, -, rfl⟩ := List.mem_map.mp mapped
  exact ⟨trim_trim _, by simpa using filled, truthy_trim⟩

theorem Linked.normalizeLinks {links : Option (List StreamLink)} (linked : Linked links) :
    normalizeLinks links = links := by
  have mapped : (links.getD []).map (fun link =>
      { link with ref := trim link.ref, label := truthy (link.label.map trim) }) =
      links.getD [] := by
    refine (List.map_congr_left fun link inside => ?_).trans (List.map_id _)
    obtain ⟨trimmed, -, label⟩ := linked.2 link inside
    rw [trimmed, label]
    rfl
  have filtered : (links.getD []).filter (fun link => !link.ref.isEmpty) = links.getD [] := by
    refine List.filter_eq_self.mpr fun link inside => ?_
    simpa using (linked.2 link inside).filled
  rw [Streams.normalizeLinks, mapped, filtered]
  exact nonEmpty_getD linked.1

theorem mem_of_mem_unseenLinks {seen : List JsString} {links : List StreamLink} {link : StreamLink}
    (inside : link ∈ unseenLinks seen links) : link ∈ links := by
  induction links generalizing seen with
  | nil => exact absurd inside List.not_mem_nil
  | cons first rest ih =>
    unfold unseenLinks at inside
    simp only at inside
    split at inside
    · exact List.mem_cons_of_mem _ (ih inside)
    · rcases List.mem_cons.mp inside with rfl | later
      · exact List.mem_cons_self
      · exact List.mem_cons_of_mem _ (ih later)

theorem Linked.mergeLinks {existing incoming : Option (List StreamLink)} (linked : Linked existing)
    (linked' : Linked incoming) : Linked (mergeLinks existing incoming) := by
  refine linked_of_forall ?_
  intro link inside
  rcases List.mem_append.mp (mem_of_mem_unseenLinks inside) with old | new
  · exact linked.2 link old
  · exact linked'.2 link new

/-! ## Owners -/

structure StreamOwner.Normal (owner : StreamOwner) : Prop where
  trimmed : trim owner.ref = owner.ref
  filled : owner.ref ≠ []
  role : truthy (owner.role.map trim) = owner.role

structure OwnersNormal (owners : List StreamOwner) : Prop where
  normal : ∀ owner ∈ owners, owner.Normal
  distinct : (owners.map (·.ref)).Nodup

def Owned (owners : Option (List StreamOwner)) : Prop :=
  owners ≠ some [] ∧ OwnersNormal (owners.getD [])

theorem OwnersNormal.mergeOwner {owners : List StreamOwner} (normal : OwnersNormal owners)
    (owner : StreamOwner) : OwnersNormal (mergeOwner owners owner) := by
  unfold Streams.mergeOwner
  simp only
  split
  · exact normal
  · rename_i filled
    have made : StreamOwner.Normal ⟨trim owner.ref, truthy (owner.role.map trim), owner.steeringMode⟩ :=
      ⟨trim_trim _, by simpa using filled, truthy_trim⟩
    cases found : owners.findIdx? fun item => item.ref = trim owner.ref with
    | none =>
      rw [List.findIdx?_eq_none_iff] at found
      constructor
      · intro other inside
        rcases List.mem_append.mp inside with old | new
        · exact normal.normal other old
        · rw [List.mem_singleton.mp new]
          exact made
      · rw [List.map_append, List.map_singleton, List.nodup_append_comm, List.singleton_append,
          List.nodup_cons]
        refine ⟨?_, normal.distinct⟩
        intro listed
        obtain ⟨other, inside, same⟩ := List.mem_map.mp listed
        exact absurd same (of_decide_eq_false (found other inside))
    | some index =>
      obtain ⟨below, same, -⟩ := List.findIdx?_eq_some_iff_getElem.mp found
      constructor
      · intro other inside
        rcases List.mem_or_eq_of_mem_set inside with old | rfl
        · exact normal.normal other old
        · exact made
      · have refs : (owners.set index ⟨trim owner.ref, truthy (owner.role.map trim),
            owner.steeringMode⟩).map (·.ref) = owners.map (·.ref) := by
          rw [List.map_set]
          refine set_of_getElem ?_
          rw [List.getElem?_map, List.getElem?_eq_getElem below, Option.map_some]
          exact congrArg some (of_decide_eq_true same)
        rw [refs]
        exact normal.distinct

theorem OwnersNormal.foldl {owners : List StreamOwner} (normal : OwnersNormal owners)
    (incoming : List StreamOwner) : OwnersNormal (incoming.foldl Streams.mergeOwner owners) := by
  induction incoming generalizing owners with
  | nil => exact normal
  | cons owner rest ih => exact ih (normal.mergeOwner owner)

theorem Owned.mergeOwners {existing : Option (List StreamOwner)} (owned : Owned existing)
    (incoming : Option (List StreamOwner)) : Owned (mergeOwners existing incoming) := by
  refine ⟨nonEmpty_ne _, ?_⟩
  rw [Streams.mergeOwners, getD_nonEmpty]
  exact owned.2.foldl _

theorem owned_none : Owned none :=
  ⟨by simp, ⟨fun owner none => absurd none List.not_mem_nil, List.nodup_nil⟩⟩

theorem foldl_mergeOwner {before owners : List StreamOwner} (normal : OwnersNormal (before ++ owners)) :
    owners.foldl mergeOwner before = before ++ owners := by
  induction owners generalizing before with
  | nil => rw [List.append_nil]; rfl
  | cons owner rest ih =>
    have own := normal.normal owner (List.mem_append_right _ List.mem_cons_self)
    have absent : (before.findIdx? fun item => item.ref = owner.ref) = none := by
      rw [List.findIdx?_eq_none_iff]
      intro other inside
      refine decide_eq_false ?_
      intro same
      have distinct := normal.distinct
      rw [List.map_append, List.map_cons] at distinct
      refine (List.nodup_append.mp distinct).2.2 _ (List.mem_map_of_mem inside) _ List.mem_cons_self ?_
      exact same
    have merged : mergeOwner before owner = before ++ [owner] := by
      unfold mergeOwner
      simp only
      rw [own.trimmed, own.role, absent]
      simp [own.filled]
    rw [List.foldl_cons, merged, ih (by rwa [List.append_assoc, List.singleton_append]),
      List.append_assoc, List.singleton_append]

theorem Owned.mergeOwners_none {owners : Option (List StreamOwner)} (owned : Owned owners) :
    Streams.mergeOwners none owners = owners := by
  have merged := @foldl_mergeOwner [] (owners.getD []) owned.2
  rw [List.nil_append] at merged
  show nonEmpty ((owners.getD []).foldl mergeOwner []) = owners
  rw [merged]
  exact nonEmpty_getD owned.1

/-! ## Facts -/

structure StreamPinnedFact.Normal (fact : StreamPinnedFact) : Prop where
  trimmed : trim fact.text = fact.text
  filled : fact.text ≠ []
  status : fact.status = some (normalizeFactStatus fact.status)

def Pinned (facts : Option (List StreamPinnedFact)) : Prop :=
  facts ≠ some [] ∧ ∀ fact ∈ facts.getD [], fact.Normal

theorem Pinned.normalizePinnedFacts {facts : Option (List StreamPinnedFact)} (pinned : Pinned facts) :
    normalizePinnedFacts facts = facts := by
  have mapped : (facts.getD []).map (fun fact =>
      { fact with text := trim fact.text, status := some (normalizeFactStatus fact.status) }) =
      facts.getD [] := by
    refine (List.map_congr_left fun fact inside => ?_).trans (List.map_id _)
    obtain ⟨trimmed, -, status⟩ := pinned.2 fact inside
    rw [trimmed, ← status]
    rfl
  have filtered : (facts.getD []).filter (fun fact => !fact.text.isEmpty) = facts.getD [] := by
    refine List.filter_eq_self.mpr fun fact inside => ?_
    simpa using (pinned.2 fact inside).filled
  rw [Streams.normalizePinnedFacts, mapped, filtered]
  exact nonEmpty_getD pinned.1

theorem Pinned.markStale {facts : Option (List StreamPinnedFact)} (pinned : Pinned facts)
    (change : StreamPinnedFact → StreamPinnedFact)
    (normal : ∀ fact : StreamPinnedFact, fact.Normal → (change fact).Normal) :
    Pinned (facts.map fun facts => facts.map change) := by
  cases facts with
  | none => exact pinned
  | some facts =>
    refine ⟨?_, ?_⟩
    · intro none
      have none : facts = [] := by simpa using none
      exact pinned.1 (congrArg some none)
    · intro fact inside
      obtain ⟨old, listed, rfl⟩ := List.mem_map.mp inside
      exact normal old (pinned.2 old listed)

/-! ## Streams -/

/-- A stream that loading leaves as it is. -/
structure StreamRecord.Normal (scope : JsString) (stream : StreamRecord) : Prop where
  home : stream.scope = scope
  status : VALID_STATUSES.contains stream.status = true
  slug : stream.slug ≠ []
  summary : trim stream.current.summary = stream.current.summary
  links : Linked stream.links
  owners : Owned stream.owners
  facts : Pinned stream.pinnedFacts

theorem StreamRecord.Normal.normalizeStoredStream {scope : JsString} {stream : StreamRecord}
    (normal : stream.Normal scope) : normalizeStoredStream scope stream = .ok stream := by
  have filled : stream.status ≠ [] := by
    intro none
    have valid := normal.status
    rw [none] at valid
    exact absurd valid (by decide +kernel)
  have given : truthy (some stream.status) = some stream.status := by simp [truthy, filled]
  have status : normalizeStatus (some stream.status) (js "active") = .ok stream.status := by
    unfold normalizeStatus
    rw [given]
    simp only [normal.status, if_true]
  have slug : stream.slug.isEmpty = false := by simpa using normal.slug
  unfold Streams.normalizeStoredStream
  rw [status]
  simp only [bind, Except.bind, pure, Except.pure, ← normal.home, slug, normal.summary,
    normal.links.normalizeLinks, normal.owners.mergeOwners_none, normal.facts.normalizePinnedFacts]
  rfl

/-- A file that the operations leave. -/
structure Good (scope : JsString) (file : StreamScopeFile) : Prop where
  tidy : Tidy file
  home : file.scope = scope
  normal : ∀ stream ∈ file.streams, stream.Normal scope

theorem good_empty (scope : JsString) : Good scope (emptyScopeFile scope) :=
  ⟨tidy_empty scope, rfl, fun _ none => absurd none List.not_mem_nil⟩

theorem Good.load {scope : JsString} {file : StreamScopeFile} (good : Good scope file)
    (path : JsString) : loadScopeFile scope path (some file) = .ok file := by
  have loaded : file.streams.mapM (normalizeStoredStream scope) = .ok file.streams :=
    mapM_eq_self fun stream inside => (good.normal stream inside).normalizeStoredStream
  simp only [loadScopeFile, loaded]
  rw [if_pos good.tidy.positive, ← good.home]

end Takode.Streams
