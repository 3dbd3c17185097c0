import Takode.TreeGroups.Store

/-!
# What sanitizing gives, and what it leaves as it is

A sanitized state is well formed, and a well-formed state is read back from its JSON as
it is.
-/

namespace Takode.TreeGroups

open JsString

/-- Texts as the store keeps them: not empty, without spaces around them. -/
def Trimmed (s : JsString) : Prop := trim s = s ∧ s ≠ []

/-- An order of sessions that is not empty and lists none twice. -/
structure Listing (order : List JsString) : Prop where
  filled : order ≠ []
  distinct : order.Nodup
  trimmed : ∀ id ∈ order, Trimmed id

/-- What holds in every state of a run that meets the condition. -/
structure Kept (s : TreeGroupState) : Prop where
  ids : (s.groups.map (·.id)).Nodup
  default : ∃ g ∈ s.groups, g.id = js "default"
  named : ∀ g ∈ s.groups, Trimmed g.id ∧ Trimmed g.name
  assigned : ∀ sessionId groupId, s.assignments.get? sessionId = some groupId →
    trim sessionId = sessionId ∧ ∃ g ∈ s.groups, g.id = groupId
  ordered : ∀ groupId order, s.nodeOrder.get? groupId = some order →
    (∃ g ∈ s.groups, g.id = groupId) ∧ Listing order

theorem normalizeIds_spec (values : List JsonValue) (seen : List JsString) :
    (normalizeIds seen values).Nodup ∧
      ∀ id ∈ normalizeIds seen values, Trimmed id ∧ id ∉ seen := by
  induction values generalizing seen with
  | nil => exact ⟨List.nodup_nil, by simp [normalizeIds]⟩
  | cons value rest ih =>
    unfold normalizeIds
    split
    · exact ih seen
    · rename_i id _
      simp only
      split
      · rename_i fresh
        simp only [Bool.and_eq_true, Bool.not_eq_true', List.isEmpty_eq_false_iff,
          List.contains_eq_mem, decide_eq_false_iff_not] at fresh
        obtain ⟨distinct, trimmed⟩ := ih (trim id :: seen)
        refine ⟨List.nodup_cons.mpr ⟨fun inside => ?_, distinct⟩, fun other inside => ?_⟩
        · exact (trimmed _ inside).2 List.mem_cons_self
        · rcases List.mem_cons.mp inside with rfl | later
          · exact ⟨⟨trim_trim id, fresh.1⟩, fresh.2⟩
          · exact ⟨(trimmed other later).1, fun old =>
              (trimmed other later).2 (List.mem_cons_of_mem _ old)⟩
      · exact ih seen

theorem normalizeIds_listing {order seen : List JsString} (distinct : order.Nodup)
    (trimmed : ∀ id ∈ order, Trimmed id) (fresh : ∀ id ∈ order, id ∉ seen) :
    normalizeIds seen (order.map .string) = order := by
  induction order generalizing seen with
  | nil => rfl
  | cons id rest ih =>
    obtain ⟨same, filled⟩ := trimmed id List.mem_cons_self
    have unseen := fresh id List.mem_cons_self
    obtain ⟨notLater, distinct⟩ := List.nodup_cons.mp distinct
    simp only [List.map_cons, normalizeIds, JsonValue.asString, same]
    rw [if_pos (by simp [filled, unseen]), ih distinct]
    · exact fun other inside => trimmed other (List.mem_cons_of_mem _ inside)
    · intro other inside seen
      rcases List.mem_cons.mp seen with rfl | old
      · exact notLater inside
      · exact fresh other (List.mem_cons_of_mem _ inside) old

theorem trimmed_of_text {value : Option JsString} (filled : (value.map trim).getD [] ≠ []) :
    Trimmed ((value.map trim).getD []) := by
  cases value with
  | none => exact absurd rfl filled
  | some text => exact ⟨trim_trim text, filled⟩

theorem sanitizeGroups_spec (values : List JsonValue) (seen : List JsString) :
    ((sanitizeGroups seen values).map (·.id)).Nodup ∧
      ∀ g ∈ sanitizeGroups seen values, Trimmed g.id ∧ Trimmed g.name ∧ g.id ∉ seen := by
  induction values generalizing seen with
  | nil => exact ⟨List.nodup_nil, by simp [sanitizeGroups]⟩
  | cons value rest ih =>
    unfold sanitizeGroups
    simp only
    split
    · exact ih seen
    · rename_i fresh
      simp only [Bool.or_eq_true, List.isEmpty_iff, List.contains_eq_mem, decide_eq_true_eq,
        not_or] at fresh
      obtain ⟨⟨id, name⟩, unseen⟩ := fresh
      obtain ⟨distinct, named⟩ := ih _
      refine ⟨List.nodup_cons.mpr ⟨fun inside => ?_, distinct⟩, fun g inside => ?_⟩
      · obtain ⟨other, listed, same⟩ := List.mem_map.mp inside
        exact (named other listed).2.2 (same ▸ List.mem_cons_self)
      · rcases List.mem_cons.mp inside with rfl | later
        · exact ⟨trimmed_of_text id, trimmed_of_text name, unseen⟩
        · obtain ⟨id, name, unseen⟩ := named g later
          exact ⟨id, name, fun old => unseen (List.mem_cons_of_mem _ old)⟩

theorem TreeGroup.get_json (g : TreeGroup) :
    g.json.get (js "id") = some (.string g.id) ∧ g.json.get (js "name") = some (.string g.name) := by
  have distinct : js "id" ≠ js "name" := by decide
  simp [TreeGroup.json, JsonValue.get, Record.ofEntries, distinct]

theorem sanitizeGroups_named {groups : List TreeGroup} {seen : List JsString}
    (distinct : (groups.map (·.id)).Nodup) (named : ∀ g ∈ groups, Trimmed g.id ∧ Trimmed g.name)
    (fresh : ∀ g ∈ groups, g.id ∉ seen) : sanitizeGroups seen (groups.map TreeGroup.json) = groups := by
  induction groups generalizing seen with
  | nil => rfl
  | cons g rest ih =>
    obtain ⟨⟨sameId, filledId⟩, sameName, filledName⟩ := named g List.mem_cons_self
    obtain ⟨notLater, distinct⟩ := List.nodup_cons.mp distinct
    have unseen := fresh g List.mem_cons_self
    simp only [List.map_cons, sanitizeGroups, g.get_json.1, g.get_json.2, Option.bind_some,
      JsonValue.asString, Option.map_some, Option.getD_some, sameId, sameName]
    rw [if_neg (by simp [filledId, filledName, unseen]), ih distinct]
    · exact fun other inside => named other (List.mem_cons_of_mem _ inside)
    · intro other inside seen
      rcases List.mem_cons.mp seen with same | old
      · exact notLater (List.mem_map.mpr ⟨other, inside, same⟩)
      · exact fresh other (List.mem_cons_of_mem _ inside) old

theorem sanitizeAssignments_spec {input : Option JsonValue} {validGroupIds : List JsString}
    {sessionId groupId : JsString}
    (found : (sanitizeAssignments input validGroupIds).get? sessionId = some groupId) :
    trim sessionId = sessionId ∧ groupId ∈ validGroupIds := by
  unfold sanitizeAssignments at found
  refine List.foldlRecOn (motive := fun r : Record JsString => ∀ k v, r.get? k = some v →
    trim k = k ∧ v ∈ validGroupIds) _ _ (fun _ _ absent => by cases absent)
    (fun r kept e _ => ?_) _ _ found
  intro k v there
  split at there
  · exact kept k v there
  · split at there
    · rename_i valid
      rw [JsMap.get?_set] at there
      split at there
      · rename_i same
        cases there
        exact ⟨same ▸ trim_trim e.1, by simpa using valid⟩
      · exact kept k v there
    · exact kept k v there

theorem sanitizeNodeOrder_spec {input : Option JsonValue} {validGroupIds : List JsString}
    {groupId : JsString} {order : List JsString}
    (found : (sanitizeNodeOrder input validGroupIds).get? groupId = some order) :
    groupId ∈ validGroupIds ∧ Listing order := by
  unfold sanitizeNodeOrder at found
  refine List.foldlRecOn (motive := fun r : Record (List JsString) => ∀ k v, r.get? k = some v →
    k ∈ validGroupIds ∧ Listing v) _ _ (fun _ _ absent => by cases absent)
    (fun r kept e _ => ?_) _ _ found
  intro k v there
  split at there
  · exact kept k v there
  · rename_i values _
    simp only at there
    split at there
    · rename_i valid
      simp only [Bool.and_eq_true, List.contains_eq_mem, decide_eq_true_eq, Bool.not_eq_true',
        List.isEmpty_eq_false_iff] at valid
      rw [JsMap.get?_set] at there
      split at there
      · rename_i same
        cases there
        obtain ⟨distinct, trimmed⟩ := normalizeIds_spec values []
        exact ⟨same ▸ valid.1, valid.2, distinct, fun id inside => (trimmed id inside).1⟩
      · exact kept k v there
    · exact kept k v there

theorem sanitizeState_kept (input : JsonValue) : Kept (sanitizeState input) := by
  obtain ⟨distinct, named⟩ :=
    sanitizeGroups_spec (((input.get (js "groups")).bind (·.asArray)).getD []) []
  unfold sanitizeState
  set groups := sanitizeGroups [] (((input.get (js "groups")).bind (·.asArray)).getD [])
  simp only
  have assigned (groups : List TreeGroup) (sessionId groupId : JsString)
      (found : (sanitizeAssignments (input.get (js "assignments"))
        (groups.map (·.id))).get? sessionId = some groupId) :
      trim sessionId = sessionId ∧ ∃ g ∈ groups, g.id = groupId :=
    (sanitizeAssignments_spec found).imp_right List.mem_map.mp
  have ordered (groups : List TreeGroup) (groupId : JsString) (order : List JsString)
      (found : (sanitizeNodeOrder (input.get (js "nodeOrder"))
        (groups.map (·.id))).get? groupId = some order) :
      (∃ g ∈ groups, g.id = groupId) ∧ Listing order :=
    (sanitizeNodeOrder_spec found).imp_left List.mem_map.mp
  split
  · rename_i listed
    obtain ⟨g, inside, same⟩ := List.any_eq_true.mp listed
    exact ⟨distinct, ⟨g, inside, of_decide_eq_true same⟩, fun g inside =>
      ⟨(named g inside).1, (named g inside).2.1⟩, assigned groups, ordered groups⟩
  · rename_i missing
    refine ⟨List.nodup_cons.mpr ⟨fun inside => ?_, distinct⟩, ⟨DEFAULT_GROUP, List.mem_cons_self, rfl⟩,
      fun g inside => ?_, assigned _, ordered _⟩
    · obtain ⟨g, inside, same⟩ := List.mem_map.mp inside
      exact missing (List.any_eq_true.mpr ⟨g, inside, decide_eq_true same⟩)
    · rcases List.mem_cons.mp inside with rfl | inside
      · exact ⟨⟨by decide, by decide⟩, by decide, by decide⟩
      · exact ⟨(named g inside).1, (named g inside).2.1⟩

theorem TreeGroupState.get_json (s : TreeGroupState) :
    s.json.get (js "groups") = some (.array (s.groups.map TreeGroup.json)) ∧
    s.json.get (js "assignments") =
      some (.object (s.assignments.ownEntries.map fun e => (e.1, .string e.2))) ∧
    s.json.get (js "nodeOrder") =
      some (.object (s.nodeOrder.ownEntries.map fun e => (e.1, .array (e.2.map .string)))) := by
  have one : js "groups" ≠ js "assignments" := by decide
  have two : js "groups" ≠ js "nodeOrder" := by decide
  have three : js "assignments" ≠ js "nodeOrder" := by decide
  simp [TreeGroupState.json, JsonValue.get, Record.ofEntries, one, two, three]

theorem Kept.sanitizeAssignments {s : TreeGroupState} (kept : Kept s) :
    sanitizeAssignments (s.json.get (js "assignments")) (s.groups.map (·.id)) =
      Record.ofEntries s.assignments.ownEntries := by
  rw [s.get_json.2.1, TreeGroups.sanitizeAssignments, Option.map_some, Option.getD_some,
    JsonValue.entries_object, List.foldl_map, Record.ofEntries]
  refine List.foldl_ext _ _ _ fun r e inside => ?_
  obtain ⟨sessionId, groupId⟩ := e
  obtain ⟨same, g, listed, rfl⟩ := kept.assigned sessionId groupId (Record.mem_ownEntries.mp inside)
  have valid : (s.groups.map (·.id)).contains g.id = true := by
    simpa using ⟨g, listed, rfl⟩
  simp only [JsonValue.asString, (kept.named g listed).1.1, same, valid, if_true]

theorem Kept.sanitizeNodeOrder {s : TreeGroupState} (kept : Kept s) :
    sanitizeNodeOrder (s.json.get (js "nodeOrder")) (s.groups.map (·.id)) =
      Record.ofEntries s.nodeOrder.ownEntries := by
  rw [s.get_json.2.2, TreeGroups.sanitizeNodeOrder, Option.map_some, Option.getD_some,
    JsonValue.entries_object s.nodeOrder fun order => .array (order.map .string), List.foldl_map,
    Record.ofEntries]
  refine List.foldl_ext _ _ _ fun r e inside => ?_
  obtain ⟨groupId, order⟩ := e
  obtain ⟨⟨g, listed, rfl⟩, filled, distinct, trimmed⟩ :=
    kept.ordered groupId order (Record.mem_ownEntries.mp inside)
  have valid : (s.groups.map (·.id)).contains g.id = true := by
    simpa using ⟨g, listed, rfl⟩
  simp only [JsonValue.asArray, normalizeIds_listing distinct trimmed (fun _ _ => List.not_mem_nil),
    valid, Bool.true_and]
  rw [if_pos (by simpa using filled)]

/-- A well-formed state is read back from its JSON as it is. -/
theorem Kept.restart {s : TreeGroupState} (kept : Kept s) :
    (sanitizeState s.json).content = s.content := by
  have groups : sanitizeGroups [] (((s.json.get (js "groups")).bind (·.asArray)).getD []) =
      s.groups := by
    rw [s.get_json.1]
    exact sanitizeGroups_named kept.ids kept.named fun _ _ => List.not_mem_nil
  have default : (s.groups.any fun g => g.id = js "default") = true := by
    simpa using kept.default
  unfold sanitizeState TreeGroupState.content
  simp only [groups, default, if_true, kept.sanitizeAssignments, kept.sanitizeNodeOrder,
    Record.ownEntries_ofEntries_ownEntries]

end Takode.TreeGroups
