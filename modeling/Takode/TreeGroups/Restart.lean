import Takode.TreeGroups.Reconcile
import Takode.TreeGroups.Sanitizing

/-!
# A restart changes nothing

Every operation keeps the groups well formed, unless a deleted group has an order of its
sessions or a removed session is the last one of an order.
-/

namespace Takode.TreeGroups

open JsString

inductive Event
  | setState (next : JsonValue)
  | createGroup (uuid name : JsString)
  | renameGroup (id name : JsString)
  | deleteGroup (id : JsString)
  | assignSession (sessionId groupId : JsString)
  | removeSession (sessionId : JsString)
  | setNodeOrder (groupId : JsString) (orderedIds : List JsonValue)
  | reconcile (legacy : Option JsonValue) (sessions : List SessionTreeGroupSnapshot)
  | restart

/-- An id that `randomUUID` may give: it is new. -/
def TreeGroupState.isFresh (state : TreeGroupState) (uuid : JsString) : Bool :=
  trim uuid = uuid && !uuid.isEmpty && !state.hasGroup uuid

def TreeGroupState.step (state : TreeGroupState) : Event → Option TreeGroupState
  | .setState next => some (TreeGroups.setState next)
  | .createGroup uuid name =>
    if state.isFresh uuid then some (TreeGroups.createGroup state uuid name) else none
  | .renameGroup id name => some (TreeGroups.renameGroup state id name).1
  | .deleteGroup id => some (TreeGroups.deleteGroup state id).1
  | .assignSession sessionId groupId => some (TreeGroups.assignSession state sessionId groupId)
  | .removeSession sessionId => some (TreeGroups.removeSession state sessionId)
  | .setNodeOrder groupId orderedIds => some (TreeGroups.setNodeOrder state groupId orderedIds)
  | .reconcile legacy sessions => some (reconcileSessionTreeGroups state legacy sessions).1
  | .restart => some (sanitizeState state.json)

def treeGroupStore : Machine TreeGroupState Event := ⟨emptyState, TreeGroupState.step⟩

/-- Session ids are not empty and have no spaces around them. -/
def Event.isProper : Event → Bool
  | .assignSession sessionId _ | .removeSession sessionId =>
    trim sessionId = sessionId && !sessionId.isEmpty
  | _ => true

/-- The condition: a deleted group has no order, and a removed session is not the only one of an
order. -/
def admits (state : TreeGroupState) : Event → Bool
  | .deleteGroup id => id = js "default" || !state.hasGroup id || !state.nodeOrder.has id
  | .removeSession sessionId => state.nodeOrder.entries.all fun e => e.2 ≠ [sessionId]
  | _ => true

/-- The state is well formed, and a restart leaves it as it is. -/
structure Sound (s : TreeGroupState) : Prop where
  default : ∃! g, g ∈ s.groups ∧ g.id = js "default"
  ids : (s.groups.map (·.id)).Nodup
  names : ∀ g ∈ s.groups, g.name ≠ []
  assigned : ∀ sessionId groupId, s.assignments.get? sessionId = some groupId →
    s.hasGroup groupId = true
  ordered : ∀ groupId order, s.nodeOrder.get? groupId = some order →
    s.hasGroup groupId = true ∧ order ≠ [] ∧ order.Nodup
  restart : (sanitizeState s.json).content = s.content

theorem TreeGroupState.hasGroup_iff {s : TreeGroupState} {groupId : JsString} :
    s.hasGroup groupId = true ↔ ∃ g ∈ s.groups, g.id = groupId := by
  simp [TreeGroupState.hasGroup]

namespace Kept

variable {s : TreeGroupState} (kept : Kept s)
include kept

theorem sound : Sound s where
  default := by
    obtain ⟨g, inside, same⟩ := kept.default
    refine ⟨g, ⟨inside, same⟩, fun other ⟨listed, same'⟩ => ?_⟩
    exact List.inj_on_of_nodup_map kept.ids listed inside (same'.trans same.symm)
  ids := kept.ids
  names := fun g inside => (kept.named g inside).2.2
  assigned := fun sessionId groupId found =>
    TreeGroupState.hasGroup_iff.mpr (kept.assigned sessionId groupId found).2
  ordered := fun groupId order found =>
    have ⟨listed, listing⟩ := kept.ordered groupId order found
    ⟨TreeGroupState.hasGroup_iff.mpr listed, listing.filled, listing.distinct⟩
  restart := kept.restart

theorem createGroup {uuid : JsString} (fresh : s.isFresh uuid = true) (name : JsString) :
    Kept (createGroup s uuid name) := by
  simp only [TreeGroupState.isFresh, Bool.and_eq_true, decide_eq_true_eq, Bool.not_eq_true',
    List.isEmpty_eq_false_iff] at fresh
  obtain ⟨⟨trimmed, filled⟩, new⟩ := fresh
  have absent : ∀ g ∈ s.groups, g.id ≠ uuid := by
    intro g inside same
    simp [TreeGroupState.hasGroup_iff.mpr ⟨g, inside, same⟩] at new
  have named : Trimmed (if (trim name).isEmpty then js "Untitled" else trim name) := by
    split
    · exact ⟨by decide, by decide⟩
    · rename_i filled
      exact ⟨trim_trim name, by simpa using filled⟩
  unfold TreeGroups.createGroup
  refine ⟨?_, ?_, fun g inside => ?_, fun sessionId groupId found => ?_,
    fun groupId order found => ?_⟩
  · rw [List.map_append, List.map_singleton, List.nodup_append_comm, List.singleton_append,
      List.nodup_cons]
    refine ⟨fun listed => ?_, kept.ids⟩
    obtain ⟨g, inside, same⟩ := List.mem_map.mp listed
    exact absent g inside same
  · obtain ⟨g, inside, same⟩ := kept.default
    exact ⟨g, List.mem_append_left _ inside, same⟩
  · rcases List.mem_append.mp inside with before | last
    · exact kept.named g before
    · obtain rfl := List.mem_singleton.mp last
      exact ⟨⟨trimmed, filled⟩, named⟩
  · obtain ⟨same, g, inside, named⟩ := kept.assigned sessionId groupId found
    exact ⟨same, g, List.mem_append_left _ inside, named⟩
  · obtain ⟨⟨g, inside, named⟩, listing⟩ := kept.ordered groupId order found
    exact ⟨⟨g, List.mem_append_left _ inside, named⟩, listing⟩

theorem of_groups {groups : List TreeGroup} (same : groups.map (·.id) = s.groups.map (·.id))
    (named : ∀ g ∈ groups, Trimmed g.name) : Kept { s with groups } := by
  have back {id : JsString} (there : ∃ g ∈ s.groups, g.id = id) : ∃ g ∈ groups, g.id = id := by
    rw [← List.mem_map, same, List.mem_map]
    exact there
  refine ⟨same ▸ kept.ids, back kept.default, fun g inside => ⟨?_, named g inside⟩,
    fun sessionId groupId found => (kept.assigned sessionId groupId found).imp_right back,
    fun groupId order found => (kept.ordered groupId order found).imp_left back⟩
  have listed : g.id ∈ s.groups.map (·.id) := same ▸ List.mem_map_of_mem inside
  obtain ⟨old, before, same⟩ := List.mem_map.mp listed
  exact same ▸ (kept.named old before).1

theorem renameGroup (id name : JsString) : Kept (renameGroup s id name).1 := by
  unfold TreeGroups.renameGroup
  split
  · exact kept
  · split
    · exact kept
    · refine kept.of_groups ?_ fun g inside => ?_
      · refine List.ext_getElem? fun i => ?_
        rw [List.getElem?_map, List.getElem?_map, List.getElem?_modify]
        cases s.groups[i]? with
        | none => rfl
        | some g => split <;> rfl
      · obtain ⟨i, there⟩ := List.mem_iff_getElem?.mp inside
        rw [List.getElem?_modify] at there
        obtain ⟨old, before, rfl⟩ := Option.map_eq_some_iff.mp there
        have named := (kept.named old (List.mem_of_getElem? before)).2
        split
        · simp only
          split
          · exact named
          · rename_i filled
            exact ⟨trim_trim name, by simpa using filled⟩
        · exact named

theorem deleteGroup {id : JsString} (admitted : admits s (.deleteGroup id) = true) :
    Kept (deleteGroup s id).1 := by
  unfold TreeGroups.deleteGroup
  split
  · exact kept
  rename_i other
  split
  · exact kept
  rename_i idx found
  obtain ⟨inside, same⟩ := List.findIdx?_eq_some_iff_getElem.mp found
  have same : s.groups[idx].id = id := by simpa using same.1
  have unordered : s.nodeOrder.has id = false := by
    have listed : s.hasGroup id = true :=
      TreeGroupState.hasGroup_iff.mpr ⟨_, List.getElem_mem inside, same⟩
    simpa [admits, other, listed] using admitted
  have stays {groupId : JsString} (different : groupId ≠ id) (there : ∃ g ∈ s.groups, g.id = groupId) :
      ∃ g ∈ s.groups.eraseIdx idx, g.id = groupId := by
    obtain ⟨g, listed, rfl⟩ := there
    obtain ⟨i, here⟩ := List.mem_iff_getElem?.mp listed
    refine ⟨g, List.mem_eraseIdx_iff_getElem?.mpr ⟨i, fun equal => ?_, here⟩, rfl⟩
    subst equal
    rw [List.getElem?_eq_getElem inside] at here
    exact different (Option.some.inj here ▸ same)
  have default := stays (Ne.symm other) kept.default
  have sublist := List.eraseIdx_sublist s.groups idx
  refine ⟨(sublist.map _).nodup kept.ids, default, fun g listed => kept.named g (sublist.mem listed),
    fun sessionId groupId there => ?_, fun groupId order there => ?_⟩
  · rw [JsMap.get?_map] at there
    obtain ⟨old, before, rfl⟩ := Option.map_eq_some_iff.mp there
    obtain ⟨whole, listed⟩ := kept.assigned sessionId old before
    refine ⟨whole, ?_⟩
    split
    · exact default
    · rename_i different
      exact stays different listed
  · obtain ⟨listed, listing⟩ := kept.ordered groupId order there
    refine ⟨stays (fun equal => ?_) listed, listing⟩
    subst equal
    exact absurd (JsMap.has_eq_true.mpr ⟨order, there⟩) (by simp [unordered])

theorem removeSessionFromOtherNodeOrders (sessionId assignedGroupId : JsString) :
    Kept (removeSessionFromOtherNodeOrders s sessionId assignedGroupId) := by
  refine ⟨kept.ids, kept.default, kept.named, kept.assigned, fun groupId order there => ?_⟩
  obtain ⟨old, before, became⟩ := Option.bind_eq_some_iff.mp ((JsMap.get?_filterMap ..).symm.trans there)
  obtain ⟨listed, listing⟩ := kept.ordered groupId old before
  refine ⟨listed, ?_⟩
  split at became
  · cases became
    exact listing
  · simp only at became
    split at became
    · cases became
    · rename_i filled
      cases became
      exact ⟨by simpa using filled, listing.distinct.filter _, fun id inside =>
        listing.trimmed id (List.mem_filter.mp inside).1⟩

theorem assignSession {sessionId : JsString} (whole : trim sessionId = sessionId)
    (groupId : JsString) : Kept (assignSession s sessionId groupId) := by
  unfold TreeGroups.assignSession
  split
  · rename_i listed
    refine removeSessionFromOtherNodeOrders (s := { s with
      assignments := s.assignments.set sessionId groupId }) ?_ sessionId groupId
    refine ⟨kept.ids, kept.default, kept.named, fun other value found => ?_, kept.ordered⟩
    rw [JsMap.get?_set] at found
    split at found
    · rename_i same
      cases found
      exact ⟨same ▸ whole, TreeGroupState.hasGroup_iff.mp listed⟩
    · exact kept.assigned other value found
  · exact kept

theorem removeSession {sessionId : JsString} (admitted : admits s (.removeSession sessionId) = true) :
    Kept (removeSession s sessionId) := by
  refine ⟨kept.ids, kept.default, kept.named, fun other value found => ?_,
    fun groupId order there => ?_⟩
  · simp only [TreeGroups.removeSession, JsMap.get?_delete] at found
    split at found
    · cases found
    · exact kept.assigned other value found
  · simp only [TreeGroups.removeSession, JsMap.get?_map] at there
    obtain ⟨old, before, rfl⟩ := Option.map_eq_some_iff.mp there
    obtain ⟨listed, listing⟩ := kept.ordered groupId old before
    have several : old ≠ [sessionId] := by
      simpa using List.all_eq_true.mp admitted _ (JsMap.mem_entries.mpr before)
    refine ⟨listed, fun empty => ?_, listing.distinct.erase sessionId, fun id inside =>
      listing.trimmed id (List.mem_of_mem_erase inside)⟩
    rcases List.erase_eq_nil_iff.mp empty with none | single
    · exact listing.filled none
    · exact several single

theorem setNodeOrder (groupId : JsString) (orderedIds : List JsonValue) :
    Kept (setNodeOrder s groupId orderedIds) := by
  unfold TreeGroups.setNodeOrder
  split
  · rename_i group
    have group := TreeGroupState.hasGroup_iff.mp group
    obtain ⟨distinct, trimmed⟩ := normalizeIds_spec orderedIds []
    refine ⟨kept.ids, kept.default, kept.named, kept.assigned, fun other order there => ?_⟩
    simp only at there
    split at there
    · rw [JsMap.get?_delete] at there
      split at there
      · cases there
      · exact kept.ordered other order there
    · rename_i filled
      rw [JsMap.get?_set] at there
      split at there
      · rename_i same
        cases there
        subst same
        exact ⟨group, by simpa using filled, distinct, fun id inside => (trimmed id inside).1⟩
      · exact kept.ordered other order there
  · exact kept

theorem reconcile (legacy : Option JsonValue) (sessions : List SessionTreeGroupSnapshot) :
    Kept (reconcileSessionTreeGroups s legacy sessions).1 := by
  unfold reconcileSessionTreeGroups
  simp only
  split
  · exact sanitizeState_kept _
  · exact kept

theorem step {t : TreeGroupState} {event : Event} (proper : event.isProper = true)
    (admitted : admits s event = true) (taken : s.step event = some t) : Kept t := by
  cases event with
  | setState next =>
    cases taken
    exact sanitizeState_kept next
  | createGroup uuid name =>
    simp only [TreeGroupState.step] at taken
    split at taken
    · cases taken
      exact kept.createGroup ‹_› name
    · cases taken
  | renameGroup id name =>
    cases taken
    exact kept.renameGroup id name
  | deleteGroup id =>
    cases taken
    exact kept.deleteGroup admitted
  | assignSession sessionId groupId =>
    cases taken
    simp only [Event.isProper, Bool.and_eq_true, decide_eq_true_eq] at proper
    exact kept.assignSession proper.1 groupId
  | removeSession sessionId =>
    cases taken
    exact kept.removeSession admitted
  | setNodeOrder groupId orderedIds =>
    cases taken
    exact kept.setNodeOrder groupId orderedIds
  | reconcile legacy sessions =>
    cases taken
    exact kept.reconcile legacy sessions
  | restart =>
    cases taken
    exact sanitizeState_kept _

/-- The condition is exact. -/
theorem admits_of_sound {t : TreeGroupState} {event : Event} (taken : s.step event = some t)
    (sound : Sound t) : admits s event = true := by
  cases event with
  | deleteGroup id =>
    cases taken
    by_contra denied
    simp only [admits, Bool.or_eq_true, decide_eq_true_eq, Bool.not_eq_true', not_or,
      Bool.not_eq_false] at denied
    obtain ⟨⟨other, listed⟩, ordered⟩ := denied
    obtain ⟨g, inside, same⟩ := TreeGroupState.hasGroup_iff.mp listed
    obtain ⟨order, found⟩ := JsMap.has_eq_true.mp ordered
    have indexed : (s.groups.findIdx? fun g => g.id = id).isSome = true := by
      rw [List.findIdx?_isSome]
      exact List.any_eq_true.mpr ⟨g, inside, decide_eq_true same⟩
    obtain ⟨idx, at'⟩ := Option.isSome_iff_exists.mp indexed
    simp only [TreeGroups.deleteGroup, if_neg other, at'] at sound
    obtain ⟨g', remains, same'⟩ := TreeGroupState.hasGroup_iff.mp (sound.ordered id order found).1
    -- The ids are distinct: no other group has the one that was deleted.
    obtain ⟨j, different, there⟩ := List.mem_eraseIdx_iff_getElem?.mp remains
    obtain ⟨below, match'⟩ := List.findIdx?_eq_some_iff_getElem.mp at'
    obtain ⟨below', rfl⟩ := List.getElem?_eq_some_iff.mp there
    have first : j < (s.groups.map (·.id)).length := by simpa using below'
    have second : idx < (s.groups.map (·.id)).length := by simpa using below
    have equal : (s.groups.map (·.id))[j] = (s.groups.map (·.id))[idx] := by
      rw [List.getElem_map, List.getElem_map, of_decide_eq_true match'.1]
      exact same'
    exact different (kept.ids.getElem_inj_iff.mp equal)
  | removeSession sessionId =>
    cases taken
    refine List.all_eq_true.mpr fun e inside => ?_
    rw [decide_eq_true_eq]
    intro single
    have found := JsMap.mem_entries.mp (show (e.1, e.2) ∈ _ from inside)
    refine (sound.ordered e.1 [] ?_).2.1 rfl
    simp only [TreeGroups.removeSession, JsMap.get?_map, found, single]
    simp
  | setState | createGroup | renameGroup | assignSession | setNodeOrder | reconcile | restart => rfl

end Kept

theorem kept_of_reaches {s : TreeGroupState} (reached : treeGroupStore.Reaches
    (fun s event => (event.isProper && admits s event) = true) s) : Kept s := by
  induction reached with
  | start =>
    refine ⟨by decide, ⟨DEFAULT_GROUP, List.mem_cons_self, rfl⟩, fun g inside => ?_,
      fun _ _ none => (by cases none), fun _ _ none => (by cases none)⟩
    obtain rfl := List.mem_singleton.mp inside
    exact ⟨⟨by decide, by decide⟩, by decide, by decide⟩
  | step _ admitted taken kept =>
    obtain ⟨proper, admitted⟩ := (Bool.and_eq_true _ _).mp admitted
    exact kept.step proper admitted taken

/-- In every run that meets the condition the state is well formed and survives a restart; a further
operation keeps it so exactly if it meets the condition. -/
theorem tree_groups_sound (s : TreeGroupState) (reached : treeGroupStore.Reaches
    (fun s event => (event.isProper && admits s event) = true) s) :
    Sound s ∧ ∀ (event : Event) (t : TreeGroupState), event.isProper = true →
      s.step event = some t → (Sound t ↔ admits s event = true) := by
  have kept := kept_of_reaches reached
  exact ⟨kept.sound, fun event t proper taken =>
    ⟨kept.admits_of_sound taken, fun admitted => (kept.step proper admitted taken).sound⟩⟩

section Runs

def listing (ids : List String) : List JsonValue := ids.map fun id => .string (js id)

/-- A group is filled, renamed and emptied before it is deleted. -/
def plainRun : List Event :=
  [.createGroup (js "g1") (js " Work "), .assignSession (js "s1") (js "g1"),
    .setNodeOrder (js "g1") (listing ["s1", " s2", "s1"]), .renameGroup (js "g1") (js "Play"), .restart,
    .reconcile none [⟨js "s2", some (js "g1"), none⟩, ⟨js "s3", none, some (js "Play")⟩],
    .assignSession (js "s2") (js "default"), .assignSession (js "s1") (js "default"),
    .setNodeOrder (js "g1") [.null], .deleteGroup (js "g1"), .removeSession (js "s1")]

theorem plain_groups_sound : ∃ s,
    treeGroupStore.Reaches (fun s event => (event.isProper && admits s event) = true) s ∧ Sound s ∧
      s.content = ⟨[DEFAULT_GROUP], [(js "s2", js "default"), (js "s3", js "default")], []⟩ := by
  obtain ⟨s, reached, content⟩ := treeGroupStore.exists_reaches_of_run
    (fun s event => event.isProper && admits s event)
    (fun s => s.content =
      ⟨[DEFAULT_GROUP], [(js "s2", js "default"), (js "s3", js "default")], []⟩) plainRun
    (by decide +kernel)
  exact ⟨s, reached, (tree_groups_sound s reached).1, content⟩

/-- A group with an order is deleted. -/
def danglingRun : List Event :=
  [.createGroup (js "g1") (js "Work"), .setNodeOrder (js "g1") (listing ["s1"]),
    .deleteGroup (js "g1")]

/-- The only session of an order is removed. -/
def emptyRun : List Event :=
  [.setNodeOrder (js "default") (listing ["s1"]), .removeSession (js "s1")]

/-- After either run a node order is left over that a restart drops. -/
theorem tree_groups_unsound :
    (∃ s, treeGroupStore.Reachable s ∧ s.nodeOrder.get? (js "g1") = some [js "s1"] ∧
      s.hasGroup (js "g1") = false ∧ (sanitizeState s.json).content ≠ s.content) ∧
    ∃ s, treeGroupStore.Reachable s ∧ s.nodeOrder.get? (js "default") = some [] ∧
      (sanitizeState s.json).content ≠ s.content := by
  constructor
  · obtain ⟨s, reached, left, gone, differs⟩ := treeGroupStore.exists_reaches_of_run
      (fun _ _ => true) (fun s => s.nodeOrder.get? (js "g1") = some [js "s1"] ∧
        s.hasGroup (js "g1") = false ∧ (sanitizeState s.json).content ≠ s.content) danglingRun
      (by decide +kernel)
    exact ⟨s, reached.reachable, left, gone, differs⟩
  · obtain ⟨s, reached, left, differs⟩ := treeGroupStore.exists_reaches_of_run
      (fun _ _ => true) (fun s => s.nodeOrder.get? (js "default") = some [] ∧
        (sanitizeState s.json).content ≠ s.content) emptyRun (by decide +kernel)
    exact ⟨s, reached.reachable, left, differs⟩

end Runs

end Takode.TreeGroups
