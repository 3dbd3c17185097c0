import Takode.Lib.Scanning

/-!
# Thread markers

The marker that begins a message of a leader (`[thread:q-7:A!:u3,u5]`): how it is written, and the
two parsers that read it.
-/

namespace Takode.ThreadRouting

open JsString

structure ThreadRouteTarget where
  threadKey : JsString
  questId : Option JsString
  deriving Repr, DecidableEq

inductive LeaderThreadTextRole
  | commentary
  | answer
  deriving Repr, DecidableEq

inductive FailureReason
  | missing
  | invalid
  | invalidRole
  deriving Repr, DecidableEq

inductive ThreadRouteParseResult
  | ok (target : ThreadRouteTarget) (role : Option LeaderThreadTextRole)
      (answerUserMessageIds : Option (List JsString)) (urgent : Bool) (body : JsString)
  | failed (reason : FailureReason) (marker : Option JsString) (body : JsString)
  deriving Repr, DecidableEq

/-! ## Thread keys -/

def isCanonicalLeaderUserMessageId : JsString → Bool
  | u :: first :: digits =>
    u == unit 'u' && isDigit first && first != unit '0' && digits.all isDigit
  | _ => false

def topicHandle (topicId : JsString) : JsString :=
  ((toLowerCase (trim topicId)).filter (· ≠ unit '-')).take 8

/-- `\w` or a dash. -/
def isWordOrDash (c : UInt16) : Bool :=
  isDigit c || (97 ≤ lower c && lower c ≤ 122) || c == unit '_' || c == unit '-'

def topicIdOfViewKey (viewKey : JsString) : Option JsString :=
  let key := toLowerCase (trim viewKey)
  if startsWith key (js "topic:") then
    let id := key.drop 6
    if id ≠ [] ∧ id.all isWordOrDash then
      if topicHandle id = [] then none else some (topicHandle id)
    else none
  else none

def normalizeTopicKey (key : JsString) : Option JsString :=
  (topicIdOfViewKey key).map (js "topic:" ++ ·)

def isQuestThreadKey (threadKey : JsString) : Bool :=
  startsWith threadKey (js "q-") && threadKey.drop 2 != [] && (threadKey.drop 2).all isDigit

def normalizeThreadTarget (raw : JsString) : Option ThreadRouteTarget :=
  let threadKey := toLowerCase (trim raw)
  if threadKey = js "main" then some ⟨threadKey, none⟩
  else if isQuestThreadKey threadKey then some ⟨threadKey, some threadKey⟩
  else (normalizeTopicKey threadKey).map fun topicKey => ⟨topicKey, none⟩

/-! ## The grammar of markers -/

/-- `[0-9a-f]`, in any letter case. -/
def isHexDigit (c : UInt16) : Bool := isDigit c || (97 ≤ lower c && lower c ≤ 102)

/-- `[0-9a-f-]`, in any letter case. -/
def isHandleUnit (c : UInt16) : Bool := isHexDigit c || c == unit '-'

/-- `THREAD_KEY_PATTERN`: the key that a text starts with, and the rest. What follows a key in every
pattern is none of its characters, so the longest run is the only one. -/
def matchThreadKey (text : JsString) : Option (JsString × JsString) :=
  if let some rest := afterLiteral (js "main") text then some (text.take 4, rest)
  else if let some rest := afterLiteral (js "q-") text then
    let digits := rest.takeWhile isDigit
    if digits = [] then none else some (text.take 2 ++ digits, rest.drop digits.length)
  else if let some rest := afterLiteral (js "topic:") text then
    let handle := (rest.takeWhile isHandleUnit).take 36
    if 8 ≤ handle.length ∧ handle.head?.any isHexDigit then
      some (text.take 6 ++ handle, rest.drop handle.length)
    else none
  else none

/-- The groups of `MARKER_SUFFIX`. -/
structure MarkerSuffix where
  commentary : Option JsString
  answer : Option JsString
  urgent : Option JsString
  ids : Option JsString
  deriving Repr, DecidableEq

/-- `u[1-9]\d*(?:,u[1-9]\d*)*`, which a bracket follows: the ids, and the rest. -/
def matchIds (text : JsString) : Option (JsString × JsString) :=
  let ids := text.takeWhile (· ≠ unit ']')
  if ((toLowerCase ids).splitOn (unit ',')).all isCanonicalLeaderUserMessageId then
    some (ids, text.drop ids.length)
  else none

/-- `(?::(C)|:(A)(!)?(?::(...))?)?`: the groups that match, and the rest. -/
def matchRole (text : JsString) : MarkerSuffix × JsString :=
  if let some rest := afterLiteral (js ":c") text then
    (⟨some ((text.drop 1).take 1), none, none, none⟩, rest)
  else if let some rest := afterLiteral (js ":a") text then
    let answer := some ((text.drop 1).take 1)
    let (urgent, rest) :=
      match afterLiteral (js "!") rest with
      | some rest => (some (js "!"), rest)
      | none => (none, rest)
    match (afterLiteral (js ":") rest).bind matchIds with
    | some (ids, rest) => (⟨none, answer, urgent, some ids⟩, rest)
    | none => (⟨none, answer, urgent, none⟩, rest)
  else (⟨none, none, none, none⟩, text)

/-- A match of one of the patterns of a marker. -/
structure MarkerMatch where
  threadKey : JsString
  suffix : MarkerSuffix
  marker : JsString
  rest : JsString
  deriving Repr, DecidableEq

/-- `TEXT_THREAD_MARKER_AT_LINE_START_RE.exec`. -/
def execMarkerAtLineStart (text : JsString) : Option MarkerMatch := do
  let rest ← afterLiteral (js "[thread:") text
  let (threadKey, rest) ← matchThreadKey rest
  let (suffix, rest) := matchRole rest
  let rest ← afterLiteral (js "]") rest
  some ⟨threadKey, suffix, text.take (text.length - rest.length), rest⟩

/-- `$|[ \t]|\r?\n`. -/
def endsMarker (rest : JsString) : Bool :=
  rest == [] || startsWith rest (js " ") || startsWith rest (js "\t") ||
    startsWith rest (js "\r\n") || startsWith rest (js "\n")

/-- `TEXT_THREAD_MARKER_RE.exec`. -/
def execMarker (text : JsString) : Option MarkerMatch :=
  (execMarkerAtLineStart text).filter (endsMarker ·.rest)

/-- `TEXT_THREAD_DESTINATION_PREFIX_RE.test`. -/
def hasDestinationPrefix (text : JsString) : Bool :=
  (do let rest ← afterLiteral (js "[thread:") text
      let (_, rest) ← matchThreadKey rest
      afterLiteral (js ":") rest).isSome

/-! ## Markers that are out of place -/

structure ThreadRoutingMarkdownFenceState where
  marker : UInt16
  length : Nat
  deriving Repr, DecidableEq

/-- `MARKDOWN_FENCE_RE`: the marks of a fence that a line starts with. -/
def fenceToken (line : JsString) : Option JsString :=
  let marks := line.dropWhile isSpace
  let backticks := marks.takeWhile (· = unit '\x60')
  let tildes := marks.takeWhile (· = unit '~')
  if 3 ≤ backticks.length then some backticks
  else if 3 ≤ tildes.length then some tildes
  else none

def advanceThreadRoutingMarkdownFence (fence : Option ThreadRoutingMarkdownFenceState)
    (line : JsString) : Option ThreadRoutingMarkdownFenceState × Bool :=
  match fenceToken line with
  | none => (fence, false)
  | some token =>
    match fence with
    | some opened =>
      (if token.head? = some opened.marker ∧ opened.length ≤ token.length then none else some opened,
        true)
    | none => (token.head?.map fun marker => ⟨marker, token.length⟩, true)

def isThreadTextMarkerLikeAtLineStart (text : JsString) : Bool :=
  (afterLiteral (js "[thread:") text).isSome

/-- Up to the next bracket, or the first line. -/
def extractThreadMarkerLike (text : JsString) : JsString :=
  if startsWith text (js "[thread:") ∧ unit ']' ∈ text then
    text.takeWhile (· ≠ unit ']') ++ [unit ']']
  else (splitLines text).headD text

/-- The loop of `firstUnfencedThreadTextMarkerLike`. -/
def firstUnfencedIn (fence : Option ThreadRoutingMarkdownFenceState) :
    List JsString → Option JsString
  | [] => none
  | line :: lines =>
    let (next, isFenceLine) := advanceThreadRoutingMarkdownFence fence line
    if fence.isSome || isFenceLine then firstUnfencedIn next lines
    else
      let candidate := line.dropWhile isSpace
      if isThreadTextMarkerLikeAtLineStart candidate then some (extractThreadMarkerLike candidate)
      else firstUnfencedIn next lines

def firstUnfencedThreadTextMarkerLike (text : JsString) : Option JsString :=
  firstUnfencedIn none (splitLines text)

/-! ## Writing and reading -/

def formatThreadMarker (threadKey : JsString) (role : Option LeaderThreadTextRole)
    (answerUserMessageIds : List JsString) (urgent : Bool) : Except JsString JsString :=
  match role with
  | some .answer =>
    if (answerUserMessageIds.any fun id => !isCanonicalLeaderUserMessageId id) ∨
        ¬ answerUserMessageIds.Nodup then
      .error (js "Answer thread markers accept only unique canonical user-message IDs.")
    else
      let answerRole := if urgent then js "A!" else js "A"
      .ok (if answerUserMessageIds = [] then
          js "[thread:" ++ threadKey ++ js ":" ++ answerRole ++ js "]"
        else js "[thread:" ++ threadKey ++ js ":" ++ answerRole ++ js ":" ++
          (js ",").intercalate answerUserMessageIds ++ js "]")
  | some .commentary => .ok (js "[thread:" ++ threadKey ++ js ":C" ++ js "]")
  | none => .ok (js "[thread:" ++ threadKey ++ js "]")

def removeSingleThreadMarkerSeparator (body : JsString) : JsString :=
  if startsWith body (js "\r\n") then body.drop 2
  else if startsWith body (js "\n") || startsWith body (js "\r") || startsWith body (js " ") ||
      startsWith body (js "\t") then body.drop 1
  else body

def normalizeThreadTextRole (commentaryMarker answerMarker : Option JsString) :
    Option LeaderThreadTextRole :=
  if answerMarker.isSome then some .answer
  else if commentaryMarker.map toLowerCase = some (js "c") then some .commentary
  else none

/-- The ids of an answer: none for an answer that names none. -/
def normalizeAnswerUserMessageIds (answerMarker value : Option JsString) : Option (List JsString) :=
  match answerMarker, value with
  | none, _ => none
  | some _, none => some []
  | some _, some value =>
    let ids := (toLowerCase value).splitOn (unit ',')
    if ids.Nodup then some ids else none

/-- What both parsers do, in a text that has its marker at `candidate`. -/
def parseMarker (exec : JsString → Option MarkerMatch) (text candidate : JsString) :
    ThreadRouteParseResult :=
  match exec candidate with
  | none =>
    if isThreadTextMarkerLikeAtLineStart candidate then
      .failed (if hasDestinationPrefix candidate then .invalidRole else .invalid)
        (some (extractThreadMarkerLike candidate)) text
    else .failed .missing none text
  | some found =>
    match normalizeThreadTarget found.threadKey with
    | none => .failed .invalid (some found.marker) text
    | some target =>
      let body := removeSingleThreadMarkerSeparator found.rest
      match firstUnfencedThreadTextMarkerLike body with
      | some conflictingMarker => .failed .invalidRole (some conflictingMarker) text
      | none =>
        let groups := found.suffix
        let answerUserMessageIds := normalizeAnswerUserMessageIds groups.answer groups.ids
        if groups.ids.isSome ∧ answerUserMessageIds = none then
          .failed .invalidRole (some (extractThreadMarkerLike candidate)) text
        else
          .ok target (normalizeThreadTextRole groups.commentary groups.answer) answerUserMessageIds
            groups.urgent.isSome body

def parseThreadTextPrefix (text : JsString) : ThreadRouteParseResult :=
  match text.findIdx? (!isSpace ·) with
  | none => .failed .missing none text
  | some markerStart => parseMarker execMarker text (text.drop markerStart)

def parseThreadTextLineStartMarker (text : JsString) : ThreadRouteParseResult :=
  parseMarker execMarkerAtLineStart text text

end Takode.ThreadRouting
