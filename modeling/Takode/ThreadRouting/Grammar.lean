import Takode.ThreadRouting.Markers

/-!
# What the patterns of a marker match

A marker that is written is matched as a whole, whatever follows it; and what is matched can be
written.
-/

namespace Takode.ThreadRouting

open JsString

/-! ## Characters -/

theorem isHandleUnit_iff {c : UInt16} : isHandleUnit c = true ↔ isHexDigit c = true ∨ c = unit '-' := by
  simp [isHandleUnit]

theorem isHexDigit_iff {c : UInt16} : isHexDigit c = true ↔
    (48 ≤ c.toNat ∧ c.toNat ≤ 57) ∨ (65 ≤ c.toNat ∧ c.toNat ≤ 70) ∨
      (97 ≤ c.toNat ∧ c.toNat ≤ 102) := by
  simp only [isHexDigit, Bool.or_eq_true, isDigit_iff, Bool.and_eq_true, decide_eq_true_eq,
    UInt16.le_iff_toNat_le, toNat_lower]
  have small : (97 : UInt16).toNat = 97 ∧ (102 : UInt16).toNat = 102 := ⟨rfl, rfl⟩
  rw [small.1, small.2]
  split <;> omega

theorem isHexDigit_of_isDigit {c : UInt16} (digit : isDigit c = true) : isHexDigit c = true :=
  isHexDigit_iff.mpr (Or.inl (isDigit_iff.mp digit))

@[simp] theorem isHexDigit_lower (c : UInt16) : isHexDigit (lower c) = isHexDigit c := by
  rw [Bool.eq_iff_iff, isHexDigit_iff, isHexDigit_iff, toNat_lower]
  split <;> omega

theorem lower_eq_dash {c : UInt16} : lower c = unit '-' ↔ c = unit '-' := by
  have dash : (unit '-').toNat = 45 := rfl
  rw [← UInt16.toNat_inj, ← UInt16.toNat_inj, toNat_lower, dash]
  split <;> omega

@[simp] theorem isHandleUnit_lower (c : UInt16) : isHandleUnit (lower c) = isHandleUnit c := by
  rw [Bool.eq_iff_iff, isHandleUnit_iff, isHandleUnit_iff, isHexDigit_lower, lower_eq_dash]

theorem isWordOrDash_of_isHandleUnit {c : UInt16} (handle : isHandleUnit c = true) :
    isWordOrDash c = true := by
  rcases isHandleUnit_iff.mp handle with hex | rfl
  · have bounds := isHexDigit_iff.mp hex
    have small : (97 : UInt16).toNat = 97 ∧ (122 : UInt16).toNat = 122 := ⟨rfl, rfl⟩
    simp only [isWordOrDash, Bool.or_eq_true, isDigit_iff, Bool.and_eq_true, decide_eq_true_eq,
      UInt16.le_iff_toNat_le, toNat_lower, small.1, small.2]
    split <;> omega
  · rfl

theorem isSpace_of_isHandleUnit {c : UInt16} (handle : isHandleUnit c = true) :
    isSpace c = false := by
  have range : 45 ≤ c.toNat ∧ c.toNat ≤ 102 := by
    rcases isHandleUnit_iff.mp handle with hex | rfl
    · have bounds := isHexDigit_iff.mp hex
      omega
    · exact ⟨by decide, by decide⟩
  rw [← UInt16.ofNat_toNat (x := c)]
  generalize c.toNat = n at range
  obtain ⟨low, high⟩ := range
  interval_cases n <;> rfl

theorem not_handleUnit_of_isKeyEnd {c : UInt16} (ends : c = unit ':' ∨ c = unit ']') :
    isDigit c = false ∧ isHandleUnit c = false := by
  rcases ends with rfl | rfl
  · exact ⟨rfl, rfl⟩
  · exact ⟨rfl, rfl⟩

/-! ## Thread keys -/

/-- Main, a quest, or the handle of a topic. -/
inductive CanonicalKey : JsString → Prop
  | main : CanonicalKey (js "main")
  | quest (digits : JsString) (filled : digits ≠ []) (all : ∀ c ∈ digits, isDigit c = true) :
      CanonicalKey (js "q-" ++ digits)
  | topic (handle : JsString) (length : handle.length = 8)
      (all : ∀ c ∈ handle, isHexDigit c = true ∧ lower c = c) :
      CanonicalKey (js "topic:" ++ handle)

/-- What follows the key of a marker. -/
def EndsKey (rest : JsString) : Prop := rest.head? = some (unit ':') ∨ rest.head? = some (unit ']')

theorem EndsKey.stops {rest : JsString} (ends : EndsKey rest) (c : UInt16)
    (first : rest.head? = some c) : isDigit c = false ∧ isHandleUnit c = false := by
  refine not_handleUnit_of_isKeyEnd ?_
  rcases ends with colon | bracket
  · exact Or.inl (Option.some.inj (first.symm.trans colon))
  · exact Or.inr (Option.some.inj (first.symm.trans bracket))

theorem matchThreadKey_topic {handle rest : JsString} (hex : ∀ c ∈ handle, isHexDigit c = true)
    (ends : EndsKey rest) (short : handle.length ≤ 36) :
    matchThreadKey (js "topic:" ++ handle ++ rest) =
      if 8 ≤ handle.length then some (js "topic:" ++ handle, rest) else none := by
  have run : (handle ++ rest).takeWhile isHandleUnit = handle :=
    takeWhile_append_stop (fun c inside => isHandleUnit_iff.mpr (Or.inl (hex c inside)))
      fun c first => (ends.stops c first).2
  have first : 8 ≤ handle.length → handle.head?.any isHexDigit = true := by
    intro long
    cases handle with
    | nil => cases long
    | cons c handle => exact hex c List.mem_cons_self
  rw [List.append_assoc]
  unfold matchThreadKey
  rw [show afterLiteral (js "main") (js "topic:" ++ (handle ++ rest)) = none from
      afterLiteral_of_head _ _ (by decide),
    show afterLiteral (js "q-") (js "topic:" ++ (handle ++ rest)) = none from
      afterLiteral_of_head _ _ (by decide),
    show afterLiteral (js "topic:") (js "topic:" ++ (handle ++ rest)) = some (handle ++ rest) from
      afterLiteral_self _ _ rfl]
  simp only [run, List.take_of_length_le short, List.drop_left]
  by_cases long : 8 ≤ handle.length
  · rw [if_pos ⟨long, first long⟩, if_pos long]
    rfl
  · rw [if_neg (fun both => long both.1), if_neg long]

theorem CanonicalKey.matchThreadKey {key rest : JsString} (canonical : CanonicalKey key)
    (ends : EndsKey rest) : matchThreadKey (key ++ rest) = some (key, rest) := by
  cases canonical with
  | main =>
    unfold ThreadRouting.matchThreadKey
    rw [show afterLiteral (js "main") (js "main" ++ rest) = some rest from afterLiteral_self _ _ rfl]
    rfl
  | quest digits filled all =>
    have run : (digits ++ rest).takeWhile isDigit = digits :=
      takeWhile_append_stop all fun c first => (ends.stops c first).1
    rw [List.append_assoc]
    unfold ThreadRouting.matchThreadKey
    rw [show afterLiteral (js "main") (js "q-" ++ (digits ++ rest)) = none from
      afterLiteral_of_head _ _ (by decide),
      show afterLiteral (js "q-") (js "q-" ++ (digits ++ rest)) = some (digits ++ rest) from
        afterLiteral_self _ _ rfl]
    simp only [run, if_neg filled, List.drop_left]
    rfl
  | topic handle length all =>
    rw [matchThreadKey_topic (fun c inside => (all c inside).1) ends (by omega), if_pos (by omega)]

/-- What the patterns take for a key, and the target that it names. -/
inductive Names : JsString → ThreadRouteTarget → Prop
  | main (front : JsString) (lead : toLowerCase front = js "main") : Names front ⟨js "main", none⟩
  | quest (front digits : JsString) (lead : toLowerCase front = js "q-") (filled : digits ≠ [])
      (all : ∀ c ∈ digits, isDigit c = true) :
      Names (front ++ digits) ⟨js "q-" ++ digits, some (js "q-" ++ digits)⟩
  | topic (front handle : JsString) (lead : toLowerCase front = js "topic:")
      (all : ∀ c ∈ handle, isHandleUnit c = true) (first : handle.head?.any isHexDigit = true) :
      Names (front ++ handle)
        ⟨js "topic:" ++ ((toLowerCase handle).filter isHexDigit).take 8, none⟩

theorem matchThreadKey_eq_some {text key rest : JsString}
    (found : matchThreadKey text = some (key, rest)) :
    text = key ++ rest ∧ ∃ target, Names key target := by
  unfold matchThreadKey at found
  split at found
  · rename_i tail isMain
    obtain ⟨front, lead, rfl⟩ := afterLiteral_eq_some isMain
    have long : front.length = 4 := length_of_toLowerCase lead
    rw [← long, List.take_left] at found
    cases found
    exact ⟨rfl, _, .main _ lead⟩
  · split at found
    · rename_i tail isQuest
      obtain ⟨front, lead, rfl⟩ := afterLiteral_eq_some isQuest
      have long : front.length = 2 := length_of_toLowerCase lead
      rw [← long, List.take_left] at found
      dsimp only at found
      split at found
      · cases found
      · rename_i filled
        cases found
        refine ⟨?_, _, .quest _ _ lead filled fun c inside => List.mem_takeWhile_imp inside⟩
        rw [List.append_assoc, List.append_right_inj]
        exact (List.prefix_iff_eq_append.mp (List.takeWhile_prefix _)).symm
    · split at found
      · rename_i tail isTopic
        obtain ⟨front, lead, rfl⟩ := afterLiteral_eq_some isTopic
        have long : front.length = 6 := length_of_toLowerCase lead
        rw [← long, List.take_left] at found
        dsimp only at found
        split at found
        · rename_i valid
          cases found
          refine ⟨?_, _, .topic _ _ lead ?_ valid.2⟩
          · rw [List.append_assoc, List.append_right_inj]
            exact (List.prefix_iff_eq_append.mp
              ((List.take_prefix _ _).trans (List.takeWhile_prefix _))).symm
          · intro c inside
            exact List.mem_takeWhile_imp (List.mem_of_mem_take inside)
        · cases found
      · cases found

theorem isQuestThreadKey_quest {digits : JsString} (filled : digits ≠ [])
    (all : ∀ c ∈ digits, isDigit c = true) : isQuestThreadKey (js "q-" ++ digits) = true := by
  show (true && digits != [] && digits.all isDigit) = true
  simpa [filled] using all

theorem Names.normalizeThreadTarget {key : JsString} {target : ThreadRouteTarget}
    (names : Names key target) : normalizeThreadTarget key = some target := by
  have trimmed {front rest : JsString} {lead : JsString} (same : toLowerCase front = lead)
      (filled : (lead.all fun c => !isSpace c) = true) (plain : ∀ c ∈ rest, isSpace c = false) :
      toLowerCase (trim (front ++ rest)) = lead ++ toLowerCase rest := by
    rw [trim_of_not_space, toLowerCase, List.map_append]
    · exact congrArg (· ++ _) same
    · intro c inside
      rcases List.mem_append.mp inside with early | late
      · have there : lower c ∈ lead := same ▸ List.mem_map_of_mem early
        simpa using List.all_eq_true.mp filled _ there
      · exact plain c late
  cases names with
  | main _ lead =>
    have same := @trimmed key [] _ lead rfl fun c inside => (by cases inside)
    rw [List.append_nil] at same
    unfold ThreadRouting.normalizeThreadTarget
    rw [same]
    rfl
  | quest front digits lead filled all =>
    have small : toLowerCase digits = digits :=
      (List.map_congr_left fun c inside => lower_of_isDigit (all c inside)).trans digits.map_id
    have same := @trimmed front digits _ lead rfl fun c inside =>
      isSpace_of_isHandleUnit (isHandleUnit_iff.mpr (Or.inl (isHexDigit_of_isDigit (all c inside))))
    unfold ThreadRouting.normalizeThreadTarget
    rw [same, small]
    have other : js "q-" ++ digits ≠ js "main" := fun main =>
      absurd (List.cons.inj main).1 (by decide)
    dsimp only
    rw [if_neg other, if_pos (isQuestThreadKey_quest filled all)]
  | topic front handle lead all first =>
    have same := @trimmed front handle _ lead rfl fun c inside =>
      isSpace_of_isHandleUnit (all c inside)
    have all' : ∀ c ∈ toLowerCase handle, isHandleUnit c = true := by
      intro c inside
      obtain ⟨d, inside', rfl⟩ := List.mem_map.mp inside
      rw [isHandleUnit_lower]
      exact all d inside'
    have same' : toLowerCase (trim (js "topic:" ++ toLowerCase handle)) =
        js "topic:" ++ toLowerCase handle := by
      rw [@trimmed (js "topic:") (toLowerCase handle) (js "topic:") rfl rfl fun c inside =>
        isSpace_of_isHandleUnit (all' c inside), toLowerCase_toLowerCase]
    have own : toLowerCase (trim (toLowerCase handle)) = toLowerCase handle := by
      rw [trim_of_not_space fun c inside => isSpace_of_isHandleUnit (all' c inside),
        toLowerCase_toLowerCase]
    have digits : (toLowerCase handle).filter (· ≠ unit '-') =
        (toLowerCase handle).filter isHexDigit := by
      refine List.filter_congr fun c inside => ?_
      rw [Bool.eq_iff_iff, decide_eq_true_iff]
      rcases isHandleUnit_iff.mp (all' c inside) with hex | rfl
      · exact ⟨fun _ => hex, fun _ dash => by rw [dash] at hex; cases hex⟩
      · exact ⟨fun other => absurd rfl other, fun hex => by cases hex⟩
    have filled : ((toLowerCase handle).filter isHexDigit).take 8 ≠ [] := by
      cases handle with
      | nil => cases first
      | cons c handle =>
        have hex : isHexDigit (lower c) = true := (isHexDigit_lower c).trans first
        rw [toLowerCase, List.map_cons, List.filter_cons_of_pos hex]
        exact List.cons_ne_nil _ _
    have long : toLowerCase handle ≠ [] := by
      intro none
      rw [none] at filled
      exact filled rfl
    have other : js "topic:" ++ toLowerCase handle ≠ js "main" := fun main =>
      absurd (List.cons.inj main).1 (by decide)
    have handleOf : topicHandle (toLowerCase handle) =
        ((toLowerCase handle).filter isHexDigit).take 8 := by
      rw [topicHandle, own, digits]
    have found : topicIdOfViewKey (js "topic:" ++ toLowerCase handle) =
        some (((toLowerCase handle).filter isHexDigit).take 8) := by
      unfold topicIdOfViewKey
      rw [same']
      show (if toLowerCase handle ≠ [] ∧ (toLowerCase handle).all isWordOrDash = true then
        if topicHandle (toLowerCase handle) = [] then none
        else some (topicHandle (toLowerCase handle)) else none) = _
      rw [if_pos, handleOf, if_neg filled]
      exact ⟨long, List.all_eq_true.mpr fun c inside =>
        isWordOrDash_of_isHandleUnit (all' c inside)⟩
    unfold ThreadRouting.normalizeThreadTarget
    rw [same]
    dsimp only
    rw [if_neg other, if_neg (by exact Bool.false_ne_true), normalizeTopicKey, found]
    rfl

/-- A canonical key names itself. -/
theorem CanonicalKey.names {key : JsString} (canonical : CanonicalKey key) :
    Names key ⟨key, if isQuestThreadKey key then some key else none⟩ := by
  cases canonical with
  | main => exact .main (js "main") rfl
  | quest digits filled all =>
    rw [if_pos (isQuestThreadKey_quest filled all)]
    exact .quest (js "q-") digits rfl filled all
  | topic handle length all =>
    have same : ((toLowerCase handle).filter isHexDigit).take 8 = handle := by
      have small : toLowerCase handle = handle :=
        (List.map_congr_left fun c inside => (all c inside).2).trans handle.map_id
      rw [small, List.filter_eq_self.mpr fun c inside => (all c inside).1,
        List.take_of_length_le length.le]
    have names := Names.topic (js "topic:") handle rfl
      (fun c inside => isHandleUnit_iff.mpr (Or.inl (all c inside).1)) (by
        cases handle with
        | nil => cases length
        | cons c handle => exact (all c List.mem_cons_self).1)
    rw [same] at names
    exact names

/-- A topic key of fewer hex digits than a handle has. -/
def ShortTopic (key : JsString) : Prop :=
  ∃ front handle, key = front ++ handle ∧ toLowerCase front = js "topic:" ∧
    (handle.filter isHexDigit).length < 8

theorem length_filter_toLowerCase (handle : JsString) :
    ((toLowerCase handle).filter isHexDigit).length = (handle.filter isHexDigit).length := by
  rw [toLowerCase, List.filter_map, List.length_map]
  congr 2
  exact funext isHexDigit_lower

theorem Names.canonical {key : JsString} {target : ThreadRouteTarget} (names : Names key target)
    (long : ¬ ShortTopic key) : CanonicalKey target.threadKey ∧
      target.questId = if isQuestThreadKey target.threadKey then some target.threadKey else none := by
  cases names with
  | main _ lead => exact ⟨.main, rfl⟩
  | quest front digits lead filled all =>
    refine ⟨.quest digits filled all, ?_⟩
    rw [if_pos (isQuestThreadKey_quest filled all)]
  | topic front handle lead all first =>
    refine ⟨.topic _ ?_ ?_, rfl⟩
    · rw [List.length_take, length_filter_toLowerCase]
      by_contra short
      exact long ⟨front, handle, rfl, lead, by omega⟩
    · intro c inside
      obtain ⟨inside, hex⟩ := List.mem_filter.mp (List.mem_of_mem_take inside)
      obtain ⟨d, -, rfl⟩ := List.mem_map.mp inside
      exact ⟨hex, lower_lower d⟩

theorem Names.of_topic {key front rest after : JsString} {target : ThreadRouteTarget}
    (names : Names key target) (same : key ++ after = front ++ rest)
    (lead : toLowerCase front = js "topic:") :
    ∃ handle, key = front ++ handle ∧ rest = handle ++ after ∧
      (∀ c ∈ handle, isHandleUnit c = true) ∧
      target = ⟨js "topic:" ++ ((toLowerCase handle).filter isHexDigit).take 8, none⟩ := by
  obtain ⟨t, front, rfl⟩ : ∃ t front', front = t :: front' := by
    cases front with
    | nil => cases lead
    | cons t front => exact ⟨t, front, rfl⟩
  have first : lower t = unit 't' := (List.cons.inj lead).1
  cases names with
  | main _ lead' =>
    cases key with
    | nil => cases lead'
    | cons m key =>
      have first' : lower m = unit 'm' := (List.cons.inj lead').1
      rw [(List.cons.inj same).1, first] at first'
      cases first'
  | quest front' digits lead' filled all =>
    cases front' with
    | nil => cases lead'
    | cons q front' =>
      have first' : lower q = unit 'q' := (List.cons.inj lead').1
      rw [(List.cons.inj same).1, first] at first'
      cases first'
  | topic front' handle lead' all first =>
    rw [List.append_assoc] at same
    obtain ⟨rfl, rfl⟩ := List.append_inj same
      ((length_of_toLowerCase lead').trans (length_of_toLowerCase lead).symm)
    exact ⟨handle, rfl, rfl, all, rfl⟩

/-- The key that a short topic key is replaced by is not one that the patterns take. -/
theorem Names.short {key : JsString} {target : ThreadRouteTarget} (names : Names key target)
    (short : ShortTopic key) {rest : JsString} (ends : EndsKey rest) :
    matchThreadKey (target.threadKey ++ rest) = none := by
  obtain ⟨front, handle, rfl, lead, few⟩ := short
  obtain ⟨handle', whole, -, -, rfl⟩ :=
    @Names.of_topic _ _ _ [] _ names (List.append_nil _) lead
  obtain rfl := List.append_cancel_left whole
  rw [matchThreadKey_topic _ ends, if_neg]
  · rw [List.length_take, length_filter_toLowerCase]
    omega
  · rw [List.length_take]
    omega
  · intro c inside
    exact (List.mem_filter.mp (List.mem_of_mem_take inside)).2

/-! ## Roles -/

def idsText (ids : List JsString) : JsString :=
  if ids = [] then [] else js ":" ++ (js ",").intercalate ids

/-- What the marker of a role holds between its key and its bracket. -/
def roleText (role : Option LeaderThreadTextRole) (ids : List JsString) (urgent : Bool) : JsString :=
  match role with
  | some .answer => js ":A" ++ (if urgent then js "!" else []) ++ idsText ids
  | some .commentary => js ":C"
  | none => []

/-- The groups that match it. -/
def roleGroups (role : Option LeaderThreadTextRole) (ids : List JsString) (urgent : Bool) :
    MarkerSuffix :=
  match role with
  | some .answer => ⟨none, some (js "A"), if urgent then some (js "!") else none,
      if ids = [] then none else some ((js ",").intercalate ids)⟩
  | some .commentary => ⟨some (js "C"), none, none, none⟩
  | none => ⟨none, none, none, none⟩

theorem formatThreadMarker_eq (key : JsString) (role : Option LeaderThreadTextRole)
    {ids : List JsString} (urgent : Bool)
    (canonical : ∀ id ∈ ids, isCanonicalLeaderUserMessageId id = true) (distinct : ids.Nodup) :
    formatThreadMarker key role ids urgent =
      .ok (js "[thread:" ++ key ++ roleText role ids urgent ++ js "]") := by
  rcases role with _ | _ | _
  · simp [formatThreadMarker, roleText]
  · simp [formatThreadMarker, roleText]
  · have valid : ¬ ((ids.any fun id => !isCanonicalLeaderUserMessageId id) = true ∨ ¬ ids.Nodup) := by
      rintro (odd | twice)
      · obtain ⟨id, inside, wrong⟩ := List.any_eq_true.mp odd
        simp [canonical id inside] at wrong
      · exact twice distinct
    unfold formatThreadMarker roleText idsText
    dsimp only
    rw [if_neg valid]
    have urgently : js ":" ++ (if urgent then js "A!" else js "A") =
        js ":A" ++ (if urgent then js "!" else []) := by
      cases urgent <;> rfl
    by_cases none : ids = []
    · rw [if_pos none, if_pos none, List.append_nil, ← urgently]
      simp only [List.append_assoc]
    · rw [if_neg none, if_neg none, ← urgently]
      simp only [List.append_assoc]

theorem isCanonical_units {id : JsString} (canonical : isCanonicalLeaderUserMessageId id = true) :
    ∀ c ∈ id, c = unit 'u' ∨ isDigit c = true := by
  unfold isCanonicalLeaderUserMessageId at canonical
  split at canonical
  · simp only [Bool.and_eq_true, beq_iff_eq] at canonical
    obtain ⟨⟨⟨u, first⟩, -⟩, digits⟩ := canonical
    intro c inside
    rcases List.mem_cons.mp inside with rfl | inside
    · exact Or.inl u
    · rcases List.mem_cons.mp inside with rfl | inside
      · exact Or.inr first
      · exact Or.inr (List.all_eq_true.mp digits c inside)
  · cases canonical

theorem isCanonical_lower {id : JsString} (canonical : isCanonicalLeaderUserMessageId id = true) :
    ∀ c ∈ id, lower c = c ∧ c ≠ unit ',' ∧ c ≠ unit ']' := by
  intro c inside
  rcases isCanonical_units canonical c inside with rfl | digit
  · exact ⟨rfl, by decide, by decide⟩
  · refine ⟨lower_of_isDigit digit, ?_, ?_⟩
    · rintro rfl
      cases digit
    · rintro rfl
      cases digit

theorem matchIds_intercalate {ids : List JsString} (filled : ids ≠ [])
    (canonical : ∀ id ∈ ids, isCanonicalLeaderUserMessageId id = true) (rest : JsString) :
    (toLowerCase ((js ",").intercalate ids)).splitOn (unit ',') = ids ∧
    matchIds ((js ",").intercalate ids ++ (js "]" ++ rest)) =
      some ((js ",").intercalate ids, js "]" ++ rest) := by
  have units : ∀ c ∈ (js ",").intercalate ids, lower c = c ∧ c ≠ unit ']' := by
    refine forall_mem_intercalate (forall_mem_of_all (by decide)) fun id listed c inside => ?_
    obtain ⟨small, -, bracket⟩ := isCanonical_lower (canonical id listed) c inside
    exact ⟨small, bracket⟩
  have small : toLowerCase ((js ",").intercalate ids) = (js ",").intercalate ids :=
    (List.map_congr_left fun c inside => (units c inside).1).trans (List.map_id _)
  have parts : ((js ",").intercalate ids).splitOn (unit ',') = ids :=
    List.splitOn_intercalate _ (fun id listed inside =>
      (isCanonical_lower (canonical id listed) _ inside).2.1 rfl) filled
  refine ⟨small.symm ▸ parts, ?_⟩
  have run : ((js ",").intercalate ids ++ (js "]" ++ rest)).takeWhile (· ≠ unit ']') =
      (js ",").intercalate ids :=
    takeWhile_append_stop (fun c inside => decide_eq_true (units c inside).2) fun c first => by
      rw [← Option.some.inj first]
      rfl
  unfold matchIds
  rw [run]
  dsimp only
  rw [small, parts, if_pos (List.all_eq_true.mpr canonical), List.drop_left]

theorem endsKey_roleText (role : Option LeaderThreadTextRole) (ids : List JsString) (urgent : Bool)
    (rest : JsString) : EndsKey (roleText role ids urgent ++ (js "]" ++ rest)) := by
  rcases role with _ | _ | _
  · exact Or.inr rfl
  · exact Or.inl rfl
  · exact Or.inl rfl

theorem matchRole_roleText (role : Option LeaderThreadTextRole) {ids : List JsString} (urgent : Bool)
    (canonical : ∀ id ∈ ids, isCanonicalLeaderUserMessageId id = true) (rest : JsString) :
    matchRole (roleText role ids urgent ++ (js "]" ++ rest)) =
      (roleGroups role ids urgent, js "]" ++ rest) := by
  rcases role with _ | _ | _
  · rfl
  · rfl
  · have ids_read : (afterLiteral (js ":") (idsText ids ++ (js "]" ++ rest))).bind matchIds =
        if ids = [] then none else some ((js ",").intercalate ids, js "]" ++ rest) := by
      unfold idsText
      by_cases none : ids = []
      · rw [if_pos none, if_pos none]
        rfl
      · rw [if_neg none, if_neg none, List.append_assoc, afterLiteral_self _ _ rfl,
          Option.bind_some, (matchIds_intercalate none canonical rest).2]
    have calm : afterLiteral (js "!") (idsText ids ++ (js "]" ++ rest)) = none := by
      unfold idsText
      split
      · rfl
      · rfl
    have rest_of : ids = [] → idsText ids = [] := fun none => if_pos none
    unfold roleText roleGroups matchRole
    generalize idsText ids = listed at ids_read calm rest_of
    cases urgent with
    | false =>
      rw [if_neg Bool.false_ne_true, List.append_nil, List.append_assoc,
        show afterLiteral (js ":c") (js ":A" ++ (listed ++ (js "]" ++ rest))) = none from rfl,
        show afterLiteral (js ":a") (js ":A" ++ (listed ++ (js "]" ++ rest))) =
          some (listed ++ (js "]" ++ rest)) from rfl]
      dsimp only
      rw [calm]
      dsimp only
      rw [ids_read]
      by_cases none : ids = []
      · rw [if_pos none, if_pos none, rest_of none]
        rfl
      · rw [if_neg none, if_neg none]
        rfl
    | true =>
      rw [if_pos rfl, List.append_assoc, List.append_assoc,
        show afterLiteral (js ":c") (js ":A" ++ (js "!" ++ (listed ++ (js "]" ++ rest)))) = none from
          rfl,
        show afterLiteral (js ":a") (js ":A" ++ (js "!" ++ (listed ++ (js "]" ++ rest)))) =
          some (js "!" ++ (listed ++ (js "]" ++ rest))) from rfl]
      dsimp only
      rw [afterLiteral_self _ _ rfl]
      dsimp only
      rw [ids_read]
      by_cases none : ids = []
      · rw [if_pos none, if_pos none, rest_of none]
        rfl
      · rw [if_neg none, if_neg none]
        rfl

theorem matchRole_groups (text : JsString) :
    ((matchRole text).1.answer = none ∧ (matchRole text).1.urgent = none ∧
      (matchRole text).1.ids = none) ∨
    ((matchRole text).1.answer.isSome ∧ ∀ ids, (matchRole text).1.ids = some ids →
      ∀ id ∈ (toLowerCase ids).splitOn (unit ','), isCanonicalLeaderUserMessageId id = true) := by
  unfold matchRole
  split
  · exact Or.inl ⟨rfl, rfl, rfl⟩
  · split
    · right
      rename_i tail _
      have named : ∀ tail ids rest, (afterLiteral (js ":") tail).bind matchIds = some (ids, rest) →
          ∀ id ∈ (toLowerCase ids).splitOn (unit ','), isCanonicalLeaderUserMessageId id = true := by
        intro tail ids rest found
        obtain ⟨tail', -, found⟩ := Option.bind_eq_some_iff.mp found
        unfold matchIds at found
        dsimp only at found
        split at found
        · rename_i all
          cases found
          exact List.all_eq_true.mp all
        · cases found
      cases afterLiteral (js "!") tail with
      | none =>
        dsimp only
        cases found : (afterLiteral (js ":") tail).bind matchIds with
        | none => exact ⟨rfl, fun ids none => by cases none⟩
        | some pair =>
          refine ⟨rfl, fun ids same => ?_⟩
          cases same
          exact named _ _ _ found
      | some tail' =>
        dsimp only
        cases found : (afterLiteral (js ":") tail').bind matchIds with
        | none => exact ⟨rfl, fun ids none => by cases none⟩
        | some pair =>
          refine ⟨rfl, fun ids same => ?_⟩
          cases same
          exact named _ _ _ found
    · exact Or.inl ⟨rfl, rfl, rfl⟩

theorem endsKey_of_matchRole {text rest : JsString}
    (found : afterLiteral (js "]") (matchRole text).2 = some rest) : EndsKey text := by
  unfold matchRole at found
  split at found
  · rename_i colon
    exact Or.inl (head_of_afterLiteral colon (Or.inl (by decide)))
  · split at found
    · rename_i colon
      exact Or.inl (head_of_afterLiteral colon (Or.inl (by decide)))
    · exact Or.inr (head_of_afterLiteral found (Or.inl (by decide)))

end Takode.ThreadRouting
