import Takode.SessionHistory.Digests
import Takode.Lib.Machine

/-!
# The session history journal

The history of a session stands in a file of lines, to which a save appends what changed
(`session-history-journal.ts`). The slices in which a scan or a save gives way to others, and the
checks of file names, are left out.
-/

namespace Takode.SessionHistory

open JsString JsonText

inductive RowKind
  | message
  | tool
deriving DecidableEq

def RowKind.text : RowKind → JsString
  | .message => js "message"
  | .tool => js "tool"

structure HistoryReference where
  generation : JsString
  bytes : Nat
  revision : Nat
  count : RowKind → Nat
  frozen : RowKind → Nat

structure StringRange where
  id : Nat
  length : Nat
  start : Nat
  stop : Nat

structure JournalCache where
  head : HistoryReference
  frozenStrings : JsMap JsString StringRange
  frozenStringBytes : Nat
  strings : JsMap JsString StringRange
  rows : RowKind → List RowRange
  nextId : Nat

structure CandidateRows where
  values : RowKind → List Value
  frozen : RowKind → Nat
  unchanged : RowKind → Nat

/-! ## Frames -/

def historyFrame (sessionId generation : JsString) : Frame :=
  [.string (js "history"), integer 1, .string sessionId, .string generation]

def historyCommitFrame (head : HistoryReference) : Frame :=
  [.string (js "commit"), integer head.revision, integer (head.count .message), integer (head.count .tool),
    integer (head.frozen .message), integer (head.frozen .tool)]

def rowFrames (idOf : JsString → Nat) (kind : RowKind) (index : Nat) (value : Value) (digest : JsString) :
    List Frame :=
  [.string kind.text, integer index, .string digest] ::
    ((valueTokens value).map (Token.frame idOf) ++ [[.string (js "endRow")]])

def frameBytes (frames : List Frame) : Bytes := frames.flatMap line

def lineFrame (line : Bytes) : Except JsString Frame :=
  match readLine line with
  | some frame => .ok frame
  | none => .error (js "Invalid history frame")

/-- The frames of an exact range of bytes; partial lines never count. -/
def historyFrames (file : Bytes) (bytes : Nat) : Except JsString (List Frame) :=
  let (lines, rest) := JsonText.splitLines (file.take bytes)
  if (rest :: lines).any (128 * 1024 < ·.length) then .error (js "Oversized history frame")
  else if rest ≠ [] ∨ file.length < bytes then .error (js "Incomplete committed history extent")
  else lines.mapM lineFrame

/-! ## Reading -/

/-- A row, decoded where its record ended; or its tokens. -/
structure DecodedRow where
  digest : JsString
  value : Option Value
  tokens : List Frame

/-- A record whose end was not read yet. -/
inductive OpenRecord
  | string (id length : Nat) (parts : List JsString)
  | row (kind : RowKind) (index : Nat) (digest : JsString) (tokens : List Frame)

structure JournalIndex where
  strings : JsMap Nat JsString
  rows : RowKind → JsMap Nat DecodedRow
  reading : Option OpenRecord

def JournalIndex.empty : JournalIndex := ⟨∅, fun _ => ∅, none⟩

def tokenKinds : List JsString := [js "null", js "bool", js "number", js "ref", js "array", js "object"]

/-- `/^[a-f0-9]{64}$/`. -/
def isDigest (text : JsString) : Bool :=
  text.length = 64 && text.all fun c => isDigit c || (97 ≤ c && c ≤ 102)

def decodeRow (sha : Sha256) (tokens : List Frame) (digest : JsString) (strings : JsMap Nat JsString) :
    DecodedRow :=
  match buildRowValue tokens strings.get? with
  | .ok value => if valueDigest sha value = digest then ⟨digest, some value, tokens⟩ else ⟨digest, none, tokens⟩
  | .error _ => ⟨digest, none, tokens⟩

/-- A commit drops the rows from a count on, and the others are all there. -/
def committedRows (rows : JsMap Nat DecodedRow) (count : Nat) : Except JsString (JsMap Nat DecodedRow) :=
  if rows.size < count then .error (js "Missing committed history rows")
  else
    let kept := rows.filter fun index _ => index < count
    if kept.size ≠ count then .error (js "Noncontiguous committed history rows") else .ok kept

def beginRecord (index : JournalIndex) : Frame → Except JsString JournalIndex
  | [.string kind, item, last] =>
    if kind = js "string" then
      match asInteger item, asInteger last with
      | some id, some length =>
        if index.strings.has id then .error (js "Unknown history record")
        else .ok { index with reading := some (.string id length []) }
      | _, _ => .error (js "Unknown history record")
    else
      match [RowKind.message, .tool].find? (·.text = kind), asInteger item, last with
      | some kind, some row, .string digest =>
        if isDigest digest then .ok { index with reading := some (.row kind row digest []) }
        else .error (js "Unknown history record")
      | _, _, _ => .error (js "Unknown history record")
  | [.string kind, revision, messages, tools, frozen, frozenTools] =>
    match asInteger messages, asInteger tools with
    | some messages, some tools =>
      if kind = js "commit" ∧ (asInteger revision).isSome ∧ (asInteger frozen).isSome ∧
          (asInteger frozenTools).isSome then do
        let keptMessages ← committedRows (index.rows .message) messages
        let keptTools ← committedRows (index.rows .tool) tools
        .ok { index with rows := fun
          | .message => keptMessages
          | .tool => keptTools }
      else .error (js "Unknown history record")
    | _, _ => .error (js "Unknown history record")
  | _ => .error (js "Unknown history record")

def indexFrame (sha : Sha256) (index : JournalIndex) (frame : Frame) : Except JsString JournalIndex :=
  match index.reading with
  | some (.string id length parts) =>
    match frame with
    | [.string kind, .string part] =>
      if kind = js "part" ∧ part.length ≤ HISTORY_STRING_CHARS then
        .ok { index with reading := some (.string id length (parts ++ [part])) }
      else .error (js "Invalid chunked history string")
    | [.string kind] =>
      if kind = js "endString" ∧ parts.flatten.length = length then
        .ok { index with strings := index.strings.set id parts.flatten, reading := none }
      else .error (js "Invalid chunked history string")
    | _ => .error (js "Invalid chunked history string")
  | some (.row kind row digest tokens) =>
    if frame = [.string (js "endRow")] then
      .ok { index with
        rows := Function.update index.rows kind
          ((index.rows kind).set row (decodeRow sha tokens digest index.strings))
        reading := none }
    else if frame.head? ∈ tokenKinds.map fun kind => some (.string kind) then
      .ok { index with reading := some (.row kind row digest (tokens ++ [frame])) }
    else .error (js "Invalid history value token")
  | none => beginRecord index frame

def validHistoryReference (head : HistoryReference) : Bool :=
  [head.bytes, head.revision, head.count .message, head.count .tool, head.frozen .message,
      head.frozen .tool].all (· < 2 ^ 53) &&
    head.bytes ≠ 0 && head.frozen .message ≤ head.count .message && head.frozen .tool ≤ head.count .tool

def indexJournal (sha : Sha256) (sessionId : JsString) (head : HistoryReference) (file : Bytes) :
    Except JsString JournalIndex :=
  if !validHistoryReference head then .error (js "Invalid committed history reference")
  else do
    let frames ← historyFrames file head.bytes
    if frames.head?.any (· ≠ historyFrame sessionId head.generation) then
      .error (js "History identity mismatch")
    else
      let index ← frames.tail.foldlM (indexFrame sha) .empty
      if index.reading.isSome ∨ frames.getLast? ≠ some (historyCommitFrame head) then
        .error (js "Committed history terminal record mismatch")
      else .ok index

def decodedRow (sha : Sha256) (index : JournalIndex) (kind : RowKind) (row : Nat) : Except JsString Value :=
  match (index.rows kind).get? row with
  | none => .error (js "Missing committed history rows")
  | some decoded =>
    match decoded.value with
    | some value => .ok value
    | none => do
      let value ← buildRowValue decoded.tokens index.strings.get?
      if valueDigest sha value ≠ decoded.digest then .error (js "History row content mismatch")
      else .ok value

/-- The messages and the tool rows that a head commits to. -/
def readSessionHistory (sha : Sha256) (sessionId : JsString) (head : HistoryReference)
    (disk : JsMap JsString Bytes) : Except JsString (List Value × List Value) :=
  match disk.get? head.generation with
  | none => .error (js "Cannot reconstruct committed history")
  | some file => do
    let index ← indexJournal sha sessionId head file
    let messages ← (List.range (head.count .message)).mapM (decodedRow sha index .message)
    let tools ← (List.range (head.count .tool)).mapM (decodedRow sha index .tool)
    .ok (messages, tools)

/-! ## Saving -/

/-- The strings that a save refers to; those with no end yet are not in the file. -/
structure References where
  frozenStrings : JsMap JsString StringRange
  strings : JsMap JsString StringRange
  unwritten : List (JsString × StringRange)
  newlyFrozen : List JsString
  nextId : Nat

def References.find? (references : References) (text : JsString) : Option StringRange :=
  (references.frozenStrings.get? text).or (references.strings.get? text)

def JournalCache.find? (cache : JournalCache) (text : JsString) : Option StringRange :=
  (cache.frozenStrings.get? text).or (cache.strings.get? text)

def reference (previous : Option JournalCache) (references : References) (use : JsString × Bool) :
    References :=
  let (text, frozen) := use
  if (references.find? text).isSome then references
  else
    let known := previous.bind (·.find? text)
    let range := known.getD ⟨references.nextId, text.length, 0, 0⟩
    let references := { references with
      nextId := if known.isSome then references.nextId else references.nextId + 1
      unwritten := if range.stop = 0 then references.unwritten ++ [(text, range)] else references.unwritten }
    if frozen then { references with
      frozenStrings := references.frozenStrings.set text range
      newlyFrozen := references.newlyFrozen ++ [text] }
    else { references with strings := references.strings.set text range }

/-- The committed frozen prefix is reused without a look at it. -/
def reuses (rows : CandidateRows) (previous : JournalCache) : Bool :=
  [RowKind.message, .tool].all fun kind =>
    previous.head.frozen kind ≤ rows.unchanged kind && previous.head.frozen kind ≤ rows.frozen kind &&
      previous.head.frozen kind ≤ (rows.values kind).length

def reused (rows : CandidateRows) (previous : Option JournalCache) : Option JournalCache :=
  previous.filter (reuses rows)

def trusted (rows : CandidateRows) (previous : Option JournalCache) (kind : RowKind) : Nat :=
  ((reused rows previous).map (·.head.frozen kind)).getD 0

/-- The rows that are looked at: the frozen ones that are not trusted, and those after the frozen ones. -/
def lookedAt (rows : CandidateRows) (previous : Option JournalCache) (frozen : Bool) (kind : RowKind) :
    List Value :=
  if frozen then ((rows.values kind).take (rows.frozen kind)).drop (trusted rows previous kind)
  else (rows.values kind).drop (rows.frozen kind)

/-- The strings of these rows, those of the frozen ones first. -/
def uses (rows : CandidateRows) (previous : Option JournalCache) : List (JsString × Bool) :=
  [true, false].flatMap fun frozen => [RowKind.message, .tool].flatMap fun kind =>
    ((lookedAt rows previous frozen kind).flatMap texts).map (·, frozen)

def references (rows : CandidateRows) (previous : Option JournalCache) : References :=
  (uses rows previous).foldl (reference previous)
    { frozenStrings := ((reused rows previous).map (·.frozenStrings)).getD ∅
      strings := ∅
      unwritten := []
      newlyFrozen := []
      nextId := (previous.map (·.nextId)).getD 0 }

/-- The strings that are written from a position on, with their ranges. -/
def writtenStrings : Nat → List (JsString × StringRange) → List (JsString × StringRange)
  | _, [] => []
  | position, (text, range) :: rest =>
    let stop := position + (frameBytes (stringFrames range.id text)).length
    (text, { range with start := position, stop }) :: writtenStrings stop rest

def savedFrames (idOf : JsString → Nat) (kind : RowKind) : Nat → List SavedRow → List Frame
  | _, [] => []
  | index, .kept _ :: rest => savedFrames idOf kind (index + 1) rest
  | index, .written value digest :: rest =>
    rowFrames idOf kind index value digest ++ savedFrames idOf kind (index + 1) rest

def savedRanges (idOf : JsString → Nat) (kind : RowKind) : Nat → Nat → List SavedRow → List RowRange
  | _, _, [] => []
  | position, index, .kept old :: rest => old :: savedRanges idOf kind position (index + 1) rest
  | position, index, .written value digest :: rest =>
    let stop := position + (frameBytes (rowFrames idOf kind index value digest)).length
    ⟨position, stop, digest⟩ :: savedRanges idOf kind stop (index + 1) rest

/-- A map of strings once their ranges are known. -/
def located (written : List (JsString × StringRange)) (strings : JsMap JsString StringRange) :
    JsMap JsString StringRange :=
  strings.map fun text range => ((written.find? (·.1 = text)).map (·.2)).getD range

def rangeBytes (ranges : List (Nat × Nat)) : Nat := (ranges.map fun range => range.2 - range.1).sum

def stringBytes (ranges : List StringRange) : Nat :=
  rangeBytes (ranges.map fun range => (range.start, range.stop))

def References.idOf (references : References) (text : JsString) : Nat :=
  ((references.find? text).map (·.id)).getD 0

/-- What a save appends to. -/
def appendedTo (sessionId generation : JsString) (file : Bytes) : Option JournalCache → Bytes
  | some previous => file.take previous.head.bytes
  | none => line (historyFrame sessionId generation)

/-- The rows of a save. -/
def savedOf (sha : Sha256) (rows : CandidateRows) (previous : Option JournalCache) (kind : RowKind) :
    List SavedRow :=
  savedRows sha ((previous.map (·.rows kind)).getD []) (trusted rows previous kind) (rows.values kind)

/-- The file with the strings, the rows and the commit of a save appended. -/
def append (sha : Sha256) (sessionId : JsString) (rows : CandidateRows) (previous : Option JournalCache)
    (generation : JsString) (file : Bytes) : Bytes × JournalCache :=
  let base := appendedTo sessionId generation file previous
  let references := references rows previous
  let saved := savedOf sha rows previous
  let strings := references.unwritten.flatMap fun entry => stringFrames entry.2.id entry.1
  let messages := savedFrames references.idOf .message 0 (saved .message)
  let tools := savedFrames references.idOf .tool 0 (saved .tool)
  let head : HistoryReference := {
    generation
    bytes := 0
    revision := (previous.map (·.head.revision)).getD 0 + 1
    count kind := (rows.values kind).length
    frozen := rows.frozen }
  let whole := base ++ frameBytes (strings ++ (messages ++ (tools ++ [historyCommitFrame head])))
  let written := writtenStrings base.length references.unwritten
  let frozenStrings := located written references.frozenStrings
  let position := base.length + (frameBytes strings).length
  (whole, {
    head := { head with bytes := whole.length }
    frozenStrings
    frozenStringBytes := ((reused rows previous).map (·.frozenStringBytes)).getD 0 +
      stringBytes (references.newlyFrozen.filterMap frozenStrings.get?)
    strings := located written references.strings
    rows := fun
      | .message => savedRanges references.idOf .message position 0 (saved .message)
      | .tool =>
        savedRanges references.idOf .tool (position + (frameBytes messages).length) 0 (saved .tool)
    nextId := references.nextId })

/-- The bytes that are still referred to. -/
def liveBytes (cache : JournalCache) : Nat :=
  cache.frozenStringBytes + stringBytes cache.strings.values +
    rangeBytes ((cache.rows .message).map fun row => (row.start, row.stop)) +
    rangeBytes ((cache.rows .tool).map fun row => (row.start, row.stop))

/-! ## The journal of a session -/

structure SessionHistoryJournal where
  cache : Option JournalCache
  disk : JsMap JsString Bytes

/-- A generation is cut back to what a head commits to. -/
def rollback (disk : JsMap JsString Bytes) (head : HistoryReference) : JsMap JsString Bytes :=
  disk.set head.generation (((disk.get? head.generation).getD []).take head.bytes)

section Saves

variable (sha : Sha256) (sessionId : JsString) (journal : SessionHistoryJournal) (rows : CandidateRows)

/-- A save that starts a generation. -/
def started (generation : JsString) : Bytes × JournalCache := append sha sessionId rows none generation []

/-- A save that is appended to a generation. -/
def continued (previous : JournalCache) : Bytes × JournalCache :=
  append sha sessionId rows (some previous) previous.head.generation
    ((journal.disk.get? previous.head.generation).getD [])

/-- The disk after a save was appended, with what was appended; where more than half of a generation is
obsolete, the save starts another one. -/
def candidate (generation : JsString) : JsMap JsString Bytes × JournalCache :=
  let (fresh, first) := started sha sessionId rows generation
  match journal.cache with
  | none => (journal.disk.set generation fresh, first)
  | some previous =>
    let (whole, cache) := continued sha sessionId journal rows previous
    let disk := journal.disk.set previous.head.generation whole
    if liveBytes cache < cache.head.bytes - liveBytes cache then
      ((rollback disk previous.head).set generation fresh, first)
    else (disk, cache)

/-- The generation of a retired head is removed. -/
def retire (disk : JsMap JsString Bytes) (retired : Option HistoryReference) (head : HistoryReference) :
    JsMap JsString Bytes :=
  match retired with
  | some old => if old.generation ≠ head.generation then disk.delete old.generation else disk
  | none => disk

/-- A save that failed: what is committed is cut back, and a new generation is removed. -/
def restore (disk : JsMap JsString Bytes) (previous : Option JournalCache) (head : HistoryReference)
    (generation : JsString) : JsMap JsString Bytes :=
  let disk := match previous with
    | some previous => rollback disk previous.head
    | none => disk
  if head.generation = generation then disk.delete generation else disk

/-- A save, with a name for a new generation, the head that was published before, and whether the new head
is published. -/
def SessionHistoryJournal.write (generation : JsString) (priorHead : Option HistoryReference)
    (published : Bool) : SessionHistoryJournal × Option HistoryReference :=
  let next := candidate sha sessionId journal rows generation
  if published then
    (⟨some next.2, retire next.1 ((journal.cache.map (·.head)).or priorHead) next.2.head⟩, some next.2.head)
  else (⟨journal.cache, restore next.1 journal.cache next.2.head generation⟩, none)

/-- Where a process ends during a save: after some of the bytes that it appends, after some of the
bytes of the generation that it starts instead, or before it removes the retired generation. -/
inductive Crash
  | appending (bytes : Nat)
  | restarting (bytes : Nat)
  | published

/-- A save that the end of the process breaks off. -/
def SessionHistoryJournal.crash (generation : JsString) (crash : Crash) :
    SessionHistoryJournal × Option HistoryReference :=
  let next := candidate sha sessionId journal rows generation
  let (fresh, _) := started sha sessionId rows generation
  match crash, journal.cache with
  | .published, _ => (⟨none, next.1⟩, some next.2.head)
  | .appending bytes, some previous =>
    let (whole, _) := continued sha sessionId journal rows previous
    (⟨none, journal.disk.set previous.head.generation (whole.take (previous.head.bytes + bytes))⟩, none)
  | .restarting bytes, some previous =>
    let (whole, _) := continued sha sessionId journal rows previous
    let disk := rollback (journal.disk.set previous.head.generation whole) previous.head
    (⟨none, disk.set generation (fresh.take bytes)⟩, none)
  | .appending bytes, none | .restarting bytes, none =>
    (⟨none, journal.disk.set generation (fresh.take bytes)⟩, none)

end Saves

def SessionHistoryJournal.release (journal : SessionHistoryJournal) : SessionHistoryJournal :=
  { journal with cache := none }

end Takode.SessionHistory
