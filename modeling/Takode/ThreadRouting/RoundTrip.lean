import Takode.ThreadRouting.Grammar

/-!
# Markers round trip

A marker that is written in front of a body is read back with the body, by both parsers; and what
the parser of a whole text reads is read again from the marker it stands for.
-/

namespace Takode.ThreadRouting

open JsString

/-- One space, tab or line break. -/
def separators : List JsString := [js " ", js "\t", js "\n", js "\r\n"]

/-! ## Bodies -/

/-- The fence that is open after some lines. -/
def fenceAfter (fence : Option ThreadRoutingMarkdownFenceState) (lines : List JsString) :
    Option ThreadRoutingMarkdownFenceState :=
  lines.foldl (fun fence line => (advanceThreadRoutingMarkdownFence fence line).1) fence

/-- A line that is neither inside a fence, after the lines before it, nor one of its marks. -/
def Unfenced (fence : Option ThreadRoutingMarkdownFenceState) (before : List JsString)
    (line : JsString) : Prop :=
  fenceAfter fence before = none ∧ fenceToken line = none

/-- No line that is outside the fences looks like a marker. -/
def Unmarked (body : JsString) : Prop :=
  ∀ before line after, splitLines body = before ++ line :: after → Unfenced none before line →
    isThreadTextMarkerLikeAtLineStart (line.dropWhile isSpace) = false

theorem firstUnfencedIn_eq_none (lines : List JsString)
    (fence : Option ThreadRoutingMarkdownFenceState) : firstUnfencedIn fence lines = none ↔
      ∀ before line after, lines = before ++ line :: after → Unfenced fence before line →
        isThreadTextMarkerLikeAtLineStart (line.dropWhile isSpace) = false := by
  induction lines generalizing fence with
  | nil => simp [firstUnfencedIn]
  | cons first lines ih =>
    have step : (∀ before line after, first :: lines = before ++ line :: after →
        Unfenced fence before line →
          isThreadTextMarkerLikeAtLineStart (line.dropWhile isSpace) = false) ↔
        (Unfenced fence [] first →
          isThreadTextMarkerLikeAtLineStart (first.dropWhile isSpace) = false) ∧
        ∀ before line after, lines = before ++ line :: after →
          Unfenced (advanceThreadRoutingMarkdownFence fence first).1 before line →
            isThreadTextMarkerLikeAtLineStart (line.dropWhile isSpace) = false := by
      constructor
      · intro all
        exact ⟨all [] first lines rfl, fun before line after same =>
          all (first :: before) line after (congrArg _ same)⟩
      · rintro ⟨here, later⟩ before line after same unfenced
        cases before with
        | nil =>
          obtain ⟨rfl, -⟩ := List.cons.inj same
          exact here unfenced
        | cons other before =>
          obtain ⟨rfl, same'⟩ := List.cons.inj same
          exact later before line after same' unfenced
    rw [step, ← ih]
    have token : (advanceThreadRoutingMarkdownFence fence first).2 = (fenceToken first).isSome := by
      unfold advanceThreadRoutingMarkdownFence
      cases fenceToken first with
      | none => rfl
      | some token =>
        cases fence with
        | none => rfl
        | some opened => rfl
    rw [firstUnfencedIn]
    dsimp only
    rw [token]
    by_cases outside : Unfenced fence [] first
    · obtain ⟨closed, plain⟩ := outside
      have closed : fence = none := closed
      have clear : (fence.isSome || (fenceToken first).isSome) = false := by
        rw [closed, plain]
        rfl
      rw [if_neg (by rw [clear]; exact Bool.false_ne_true)]
      have here : Unfenced fence [] first := ⟨closed, plain⟩
      cases isThreadTextMarkerLikeAtLineStart (first.dropWhile isSpace) with
      | true => simp [here]
      | false => simp
    · have busy : (fence.isSome || (fenceToken first).isSome) = true := by
        by_contra clear
        simp only [Bool.or_eq_true, not_or, Bool.not_eq_true, Option.isSome_eq_false_iff,
          Option.isNone_iff_eq_none] at clear
        exact outside clear
      rw [if_pos busy]
      exact ⟨fun rest => ⟨fun inside => absurd inside outside, rest⟩, fun both => both.2⟩

theorem firstUnfenced_eq_none {body : JsString} :
    firstUnfencedThreadTextMarkerLike body = none ↔ Unmarked body :=
  firstUnfencedIn_eq_none (splitLines body) none

/-! ## Matches -/

theorem execMarkerAtLineStart_marker {key : JsString} (role : Option LeaderThreadTextRole)
    {ids : List JsString} (urgent : Bool) (canonical : CanonicalKey key)
    (valid : ∀ id ∈ ids, isCanonicalLeaderUserMessageId id = true) (rest : JsString) :
    ∃ marker, execMarkerAtLineStart
      (js "[thread:" ++ key ++ roleText role ids urgent ++ js "]" ++ rest) =
        some ⟨key, roleGroups role ids urgent, marker, rest⟩ := by
  have ends := endsKey_roleText role ids urgent rest
  have whole : js "[thread:" ++ key ++ roleText role ids urgent ++ js "]" ++ rest =
      js "[thread:" ++ (key ++ (roleText role ids urgent ++ (js "]" ++ rest))) := by
    simp only [List.append_assoc]
  unfold execMarkerAtLineStart
  rw [whole, afterLiteral_self _ _ rfl]
  simp only [Option.bind_eq_bind, Option.bind_some, canonical.matchThreadKey ends,
    matchRole_roleText role urgent valid rest, afterLiteral_self (js "]") rest rfl]
  exact ⟨_, rfl⟩

theorem execMarkerAtLineStart_eq_some {text : JsString} {found : MarkerMatch}
    (matched : execMarkerAtLineStart text = some found) :
    ∃ keyAndRest afterKey, afterLiteral (js "[thread:") text = some keyAndRest ∧
      matchThreadKey keyAndRest = some (found.threadKey, afterKey) ∧
      (matchRole afterKey).1 = found.suffix ∧
      afterLiteral (js "]") (matchRole afterKey).2 = some found.rest := by
  unfold execMarkerAtLineStart at matched
  simp only [Option.bind_eq_bind, Option.bind_eq_some_iff] at matched
  obtain ⟨keyAndRest, started, ⟨key, afterKey⟩, named, rest, ended, same⟩ := matched
  cases same
  exact ⟨keyAndRest, afterKey, started, named, rfl, ended⟩

/-- The marker of a text names a topic by fewer hex digits than a handle has. -/
def NamesShortTopic (text : JsString) : Prop :=
  ∃ rest, afterLiteral (js "[thread:topic:") (text.dropWhile isSpace) = some rest ∧
    ((rest.takeWhile isHandleUnit).filter isHexDigit).length < 8

theorem namesShortTopic_iff {text keyAndRest key after : JsString} {target : ThreadRouteTarget}
    (started : afterLiteral (js "[thread:") (text.dropWhile isSpace) = some keyAndRest)
    (whole : keyAndRest = key ++ after) (names : Names key target) (ends : EndsKey after) :
    NamesShortTopic text ↔ ShortTopic key := by
  have two : afterLiteral (js "[thread:topic:") (text.dropWhile isSpace) =
      afterLiteral (js "topic:") keyAndRest := by
    rw [show js "[thread:topic:" = js "[thread:" ++ js "topic:" from rfl, afterLiteral_append_eq,
      started, Option.bind_some]
  have run {handle : JsString} (all : ∀ c ∈ handle, isHandleUnit c = true) :
      (handle ++ after).takeWhile isHandleUnit = handle :=
    takeWhile_append_stop all fun c first => (ends.stops c first).2
  unfold NamesShortTopic
  rw [two, whole]
  constructor
  · rintro ⟨rest, found, few⟩
    obtain ⟨front, lead, same⟩ := afterLiteral_eq_some found
    obtain ⟨handle, rfl, rfl, all, -⟩ := names.of_topic same lead
    rw [run all] at few
    exact ⟨front, handle, rfl, lead, few⟩
  · rintro ⟨front, handle, rfl, lead, few⟩
    obtain ⟨handle', same, -, all, -⟩ := @Names.of_topic _ _ _ [] _ names (List.append_nil _) lead
    obtain rfl := List.append_cancel_left same
    refine ⟨handle ++ after, ?_, ?_⟩
    · rw [List.append_assoc]
      exact afterLiteral_append lead _
    · rw [run all]
      exact few

/-! ## What the parsers read -/

theorem separators_read {sep : JsString} (listed : sep ∈ separators) (body : JsString) :
    endsMarker (sep ++ body) = true ∧ removeSingleThreadMarkerSeparator (sep ++ body) = body := by
  simp only [separators, List.mem_cons, List.not_mem_nil, or_false] at listed
  rcases listed with rfl | rfl | rfl | rfl
  · exact ⟨rfl, rfl⟩
  · exact ⟨rfl, rfl⟩
  · exact ⟨rfl, rfl⟩
  · exact ⟨rfl, rfl⟩

/-- What the parsers give for a marker and a body. -/
def readAs (key : JsString) (role : Option LeaderThreadTextRole) (ids : List JsString)
    (urgent : Bool) (body : JsString) : ThreadRouteParseResult :=
  .ok ⟨key, if isQuestThreadKey key then some key else none⟩ role
    (if role = some .answer then some ids else none) (role = some .answer && urgent) body

theorem parseMarker_marker {exec : JsString → Option MarkerMatch} {candidate key : JsString}
    {role : Option LeaderThreadTextRole} {ids : List JsString} {urgent : Bool}
    {marker sep body : JsString} (text : JsString)
    (matched : exec candidate = some ⟨key, roleGroups role ids urgent, marker, sep ++ body⟩)
    (canonical : CanonicalKey key)
    (valid : ∀ id ∈ ids, isCanonicalLeaderUserMessageId id = true) (distinct : ids.Nodup)
    (listed : sep ∈ separators) (plain : Unmarked body) :
    parseMarker exec text candidate = readAs key role ids urgent body := by
  unfold parseMarker
  rw [matched]
  dsimp only
  rw [canonical.names.normalizeThreadTarget, (separators_read listed body).2,
    firstUnfenced_eq_none.mpr plain]
  rcases role with _ | _ | _
  · rfl
  · rfl
  · unfold readAs roleGroups
    dsimp only
    have ids_read : normalizeAnswerUserMessageIds (some (js "A"))
        (if ids = [] then none else some ((js ",").intercalate ids)) = some ids := by
      by_cases none : ids = []
      · rw [if_pos none, none]
        rfl
      · rw [if_neg none]
        unfold normalizeAnswerUserMessageIds
        dsimp only
        rw [(matchIds_intercalate none valid []).1, if_pos distinct]
    rw [ids_read, if_neg (fun both => by cases both.2)]
    cases urgent with
    | true => rfl
    | false => rfl

/-- A marker in front of a body is read back by both parsers. -/
theorem marker_read {key : JsString} (role : Option LeaderThreadTextRole) {ids : List JsString}
    (urgent : Bool) (canonical : CanonicalKey key)
    (valid : ∀ id ∈ ids, isCanonicalLeaderUserMessageId id = true) (distinct : ids.Nodup)
    {sep : JsString} (listed : sep ∈ separators) {body : JsString} (plain : Unmarked body) :
    parseThreadTextPrefix
        (js "[thread:" ++ key ++ roleText role ids urgent ++ js "]" ++ sep ++ body) =
      readAs key role ids urgent body ∧
    parseThreadTextLineStartMarker
        (js "[thread:" ++ key ++ roleText role ids urgent ++ js "]" ++ sep ++ body) =
      readAs key role ids urgent body := by
  obtain ⟨marker, matched⟩ :=
    execMarkerAtLineStart_marker role urgent canonical valid (sep ++ body)
  rw [← List.append_assoc] at matched
  refine ⟨?_, parseMarker_marker _ matched canonical valid distinct listed plain⟩
  have start : (js "[thread:" ++ key ++ roleText role ids urgent ++ js "]" ++ sep ++ body).findIdx?
      (!isSpace ·) = some 0 := by
    simp only [List.append_assoc]
    rfl
  unfold parseThreadTextPrefix
  rw [start]
  dsimp only
  rw [List.drop_zero]
  have matched' : execMarker
      (js "[thread:" ++ key ++ roleText role ids urgent ++ js "]" ++ sep ++ body) =
        some ⟨key, roleGroups role ids urgent, marker, sep ++ body⟩ := by
    unfold execMarker
    rw [matched]
    exact if_pos (separators_read listed body).1
  exact parseMarker_marker _ matched' canonical valid distinct listed plain

/-- What a parser has read when it succeeds. -/
theorem parseMarker_eq_ok {exec : JsString → Option MarkerMatch} {text candidate body : JsString}
    {target : ThreadRouteTarget} {role : Option LeaderThreadTextRole} {ids : Option (List JsString)}
    {urgent : Bool} (read : parseMarker exec text candidate = .ok target role ids urgent body) :
    ∃ found, exec candidate = some found ∧ normalizeThreadTarget found.threadKey = some target ∧
      Unmarked body ∧
      role = normalizeThreadTextRole found.suffix.commentary found.suffix.answer ∧
      ids = normalizeAnswerUserMessageIds found.suffix.answer found.suffix.ids ∧
      (found.suffix.ids.isSome → ids ≠ none) ∧ urgent = found.suffix.urgent.isSome := by
  unfold parseMarker at read
  split at read
  · split at read
    · cases read
    · cases read
  · rename_i found matched
    split at read
    · cases read
    · rename_i target' named
      dsimp only at read
      split at read
      · cases read
      · rename_i plain
        split at read
        · cases read
        · rename_i valid
          cases read
          exact ⟨found, matched, named, firstUnfenced_eq_none.mp plain, rfl, rfl,
            fun some none => valid ⟨some, none⟩, rfl⟩

/-- The ids and the urgency that can be written again. -/
def Writable (role : Option LeaderThreadTextRole) (ids : Option (List JsString)) (urgent : Bool) :
    Prop :=
  ∃ listed : List JsString, (∀ id ∈ listed, isCanonicalLeaderUserMessageId id = true) ∧
    listed.Nodup ∧ ids = (if role = some .answer then some listed else none) ∧
    urgent = (role = some .answer && urgent) ∧ ids.getD [] = listed

theorem writable_of_match {afterKey : JsString} {groups : MarkerSuffix}
    (same : (matchRole afterKey).1 = groups)
    (valid : groups.ids.isSome → normalizeAnswerUserMessageIds groups.answer groups.ids ≠ none) :
    Writable (normalizeThreadTextRole groups.commentary groups.answer)
      (normalizeAnswerUserMessageIds groups.answer groups.ids) groups.urgent.isSome := by
  subst same
  rcases matchRole_groups afterKey with ⟨answer, urgent, ids⟩ | ⟨answer, canonical⟩
  · have other : normalizeThreadTextRole (matchRole afterKey).1.commentary none ≠ some .answer := by
      unfold normalizeThreadTextRole
      rw [if_neg (by exact Bool.false_ne_true)]
      split
      · intro same
        cases same
      · intro same
        cases same
    rw [answer, urgent, ids]
    refine ⟨[], fun id none => (by cases none), List.nodup_nil, ?_, ?_, rfl⟩
    · rw [if_neg other]
      rfl
    · rw [decide_eq_false other]
      rfl
  · obtain ⟨mark, answer⟩ := Option.isSome_iff_exists.mp answer
    have role : normalizeThreadTextRole (matchRole afterKey).1.commentary (some mark) =
        some .answer := rfl
    rw [answer] at valid ⊢
    rw [role]
    cases listed : (matchRole afterKey).1.ids with
    | none =>
      exact ⟨[], fun id none => (by cases none), List.nodup_nil, rfl, rfl, rfl⟩
    | some value =>
      rw [listed] at valid
      unfold normalizeAnswerUserMessageIds at valid ⊢
      dsimp only at valid ⊢
      split at valid
      · rename_i distinct
        rw [if_pos distinct]
        exact ⟨_, canonical value listed, distinct, rfl, rfl, rfl⟩
      · exact absurd rfl (valid rfl)

theorem drop_findIdx {text : JsString} {start : Nat}
    (first : text.findIdx? (!isSpace ·) = some start) : text.drop start = text.dropWhile isSpace := by
  rw [List.dropWhile_eq_drop_findIdx_not, (List.findIdx?_eq_some_iff_findIdx_eq.mp first).2]

theorem parseThreadTextPrefix_eq_ok {text body : JsString} {target : ThreadRouteTarget}
    {role : Option LeaderThreadTextRole} {ids : Option (List JsString)} {urgent : Bool}
    (read : parseThreadTextPrefix text = .ok target role ids urgent body) :
    parseMarker execMarker text (text.dropWhile isSpace) = .ok target role ids urgent body := by
  unfold parseThreadTextPrefix at read
  split at read
  · cases read
  · rename_i start first
    rwa [drop_findIdx first] at read

theorem execMarker_eq_some {text : JsString} {found : MarkerMatch}
    (matched : execMarker text = some found) : execMarkerAtLineStart text = some found := by
  unfold execMarker at matched
  exact (Option.filter_eq_some_iff.mp matched).1

/-- The parsers read what was written; and what the parser of a whole text reads is read again from
the marker that it stands for, exactly when the marker does not name a topic by fewer digits than a
handle has. -/
theorem markers_round_trip (text : JsString) :
    (∀ key, CanonicalKey key → ∀ role ids urgent,
      (∀ id ∈ ids, isCanonicalLeaderUserMessageId id = true) → ids.Nodup →
      ∃ marker, formatThreadMarker key role ids urgent = .ok marker ∧
        ∀ sep ∈ separators, ∀ body, Unmarked body →
          parseThreadTextPrefix (marker ++ sep ++ body) = readAs key role ids urgent body ∧
          parseThreadTextLineStartMarker (marker ++ sep ++ body) =
            readAs key role ids urgent body) ∧
    ∀ target role ids urgent body,
      parseThreadTextPrefix text = .ok target role ids urgent body →
      ((∃ marker, formatThreadMarker target.threadKey role (ids.getD []) urgent = .ok marker ∧
          ∀ sep ∈ separators, parseThreadTextPrefix (marker ++ sep ++ body) =
            .ok target role ids urgent body) ↔ ¬ NamesShortTopic text) ∧
      (isThreadTextMarkerLikeAtLineStart text = true →
        parseThreadTextLineStartMarker text = .ok target role ids urgent body) := by
  constructor
  · intro key canonical role ids urgent valid distinct
    refine ⟨_, formatThreadMarker_eq key role urgent valid distinct, ?_⟩
    intro sep listed body plain
    exact marker_read role urgent canonical valid distinct listed plain
  intro target role ids urgent body read
  have read' := parseThreadTextPrefix_eq_ok read
  obtain ⟨found, matched, named, plain, role_eq, ids_eq, valid, urgent_eq⟩ := parseMarker_eq_ok read'
  have matched' := execMarker_eq_some matched
  obtain ⟨keyAndRest, afterKey, started, keyed, groups, ended⟩ :=
    execMarkerAtLineStart_eq_some matched'
  obtain ⟨whole, target', names⟩ := matchThreadKey_eq_some keyed
  obtain rfl : target' = target := Option.some.inj (names.normalizeThreadTarget.symm.trans named)
  have ends := endsKey_of_matchRole ended
  have short := namesShortTopic_iff started whole names ends
  rw [ids_eq] at valid
  obtain ⟨listed, canonical, distinct, ids', urgent', getD⟩ := writable_of_match groups valid
  rw [← role_eq, ← ids_eq] at ids'
  rw [← role_eq, ← urgent_eq] at urgent'
  rw [← ids_eq] at getD
  refine ⟨?_, ?_⟩
  · rw [short, getD]
    constructor
    · rintro ⟨marker, written, again⟩ few
      rw [formatThreadMarker_eq _ _ _ canonical distinct] at written
      cases written
      have again' := parseThreadTextPrefix_eq_ok (again (js " ") List.mem_cons_self)
      obtain ⟨other, matched'', -⟩ := parseMarker_eq_ok again'
      obtain ⟨tail, after, started', keyed', -⟩ :=
        execMarkerAtLineStart_eq_some (execMarker_eq_some matched'')
      have start : (js "[thread:" ++ target'.threadKey ++ roleText role listed urgent ++ js "]" ++
          js " " ++ body).dropWhile isSpace = js "[thread:" ++ (target'.threadKey ++
            (roleText role listed urgent ++ (js "]" ++ (js " " ++ body)))) := by
        simp only [List.append_assoc]
        rfl
      rw [start, afterLiteral_self _ _ rfl] at started'
      rw [← Option.some.inj started', names.short few (endsKey_roleText role listed urgent _)]
        at keyed'
      cases keyed'
    · intro long
      obtain ⟨key, quest⟩ := names.canonical long
      refine ⟨_, formatThreadMarker_eq _ role urgent canonical distinct, ?_⟩
      intro sep among
      rw [(marker_read role urgent key canonical distinct among plain).1]
      unfold readAs
      rw [← quest, ← ids', ← urgent']
  · intro marker
    have start : text.dropWhile isSpace = text := by
      obtain ⟨rest, literal⟩ := Option.isSome_iff_exists.mp marker
      have first := head_of_afterLiteral literal (Or.inl (by decide))
      cases text with
      | nil => rfl
      | cons c text =>
        rw [Option.some.inj first]
        rfl
    rw [start] at matched matched' read'
    unfold parseThreadTextLineStartMarker
    rw [← read']
    unfold parseMarker
    rw [matched, matched']

/-- A topic key with one hex digit is taken, but the marker of the key that is read is not. -/
theorem short_topic_lost :
    parseThreadTextPrefix (js "[thread:topic:a-------] Hi") =
      .ok ⟨js "topic:a", none⟩ none none false (js "Hi") ∧
    formatThreadMarker (js "topic:a") none [] false = .ok (js "[thread:topic:a]") ∧
    ∀ sep ∈ separators, parseThreadTextPrefix (js "[thread:topic:a]" ++ sep ++ js "Hi") =
      .failed .invalid (some (js "[thread:topic:a]")) (js "[thread:topic:a]" ++ sep ++ js "Hi") :=
  ⟨by decide +kernel, by decide +kernel, forall_mem_of_all (by decide +kernel)⟩

end Takode.ThreadRouting
