import Takode.HistoryWindows.Selection

/-!
# The rows of a history window

Which messages of the history a window holds, and where they say that they are.
-/

namespace Takode.HistoryWindows

variable {α : Type*}

/-- The indices of a range whose messages are accepted. -/
def picked (accepts : HistoryMessage α → Nat → Bool) (history : List (HistoryMessage α))
    (start stop : Nat) : List Nat :=
  (List.range' start (stop - start)).filter fun index =>
    (history[index]?).any fun message => accepts message index

theorem mem_picked {accepts : HistoryMessage α → Nat → Bool} {history : List (HistoryMessage α)}
    {start stop index : Nat} : index ∈ picked accepts history start stop ↔
      start ≤ index ∧ index < stop ∧
        ∃ message, history[index]? = some message ∧ accepts message index = true := by
  unfold picked
  rw [List.mem_filter, List.mem_range'_1, Option.any_eq_true]
  constructor
  · rintro ⟨⟨low, high⟩, found⟩
    exact ⟨low, by omega, found⟩
  · rintro ⟨low, high, found⟩
    exact ⟨⟨low, by omega⟩, found⟩

theorem picked_append (accepts : HistoryMessage α → Nat → Bool) (history : List (HistoryMessage α))
    {start middle stop : Nat} (first : start ≤ middle) (second : middle ≤ stop) :
    picked accepts history start middle ++ picked accepts history middle stop =
      picked accepts history start stop := by
  unfold picked
  rw [← List.filter_append]
  have ranges : List.range' start (middle - start) ++ List.range' middle (stop - middle) =
      List.range' start (stop - start) := by
    have joined := List.range'_append_1 (s := start) (m := middle - start) (n := stop - middle)
    rw [Nat.add_sub_cancel' first] at joined
    rw [joined]
    congr 1
    omega
  rw [ranges]

theorem picked_self (accepts : HistoryMessage α → Nat → Bool) (history : List (HistoryMessage α))
    (start : Nat) : picked accepts history start start = [] := by
  unfold picked
  rw [Nat.sub_self]
  rfl

theorem picked_congr {accepts accepts' : HistoryMessage α → Nat → Bool}
    {history : List (HistoryMessage α)} {start stop : Nat}
    (agree : ∀ index message, start ≤ index → index < stop → history[index]? = some message →
      accepts message index = accepts' message index) :
    picked accepts history start stop = picked accepts' history start stop := by
  unfold picked
  refine List.filter_congr fun index inside => ?_
  obtain ⟨low, high⟩ := List.mem_range'_1.mp inside
  cases found : history[index]? with
  | none => rfl
  | some message => exact agree index message low (by omega) found

theorem picked_increasing (accepts : HistoryMessage α → Nat → Bool)
    (history : List (HistoryMessage α)) (start stop : Nat) :
    (picked accepts history start stop).Pairwise (· < ·) :=
  (List.pairwise_lt_range' (s := start)).filter _

/-- Rows, from an offset on, that show the messages at some indices. -/
inductive Rows (history : List (HistoryMessage α)) (startIdx : Int) :
    Nat → List (HistoryMessage α) → List Nat → Prop
  | nil {offset : Nat} : Rows history startIdx offset [] []
  | cons {offset index : Nat} {row source : HistoryMessage α} {rows : List (HistoryMessage α)}
      {indices : List Nat} : history[index]? = some source →
      (row = source ∧ source.historyIndex = none ∧ (index : Int) = startIdx + offset ∨
        row = source.placed index) →
      Rows history startIdx (offset + 1) rows indices →
      Rows history startIdx offset (row :: rows) (index :: indices)

variable {history : List (HistoryMessage α)} {startIdx : Int}

theorem Rows.append {offset : Nat} {rows rows' : List (HistoryMessage α)} {indices indices' : List Nat}
    (front : Rows history startIdx offset rows indices)
    (back : Rows history startIdx (offset + rows.length) rows' indices') :
    Rows history startIdx offset (rows ++ rows') (indices ++ indices') := by
  induction front with
  | nil => exact back
  | cons found shown _ ih =>
    refine .cons found shown (ih ?_)
    rw [List.length_cons] at back
    rwa [Nat.add_assoc, Nat.add_comm 1]

theorem Rows.length {offset : Nat} {rows : List (HistoryMessage α)} {indices : List Nat}
    (shown : Rows history startIdx offset rows indices) : rows.length = indices.length := by
  induction shown with
  | nil => rfl
  | cons _ _ _ ih => exact congrArg (· + 1) ih

/-- Rows that all say where they are fit anywhere. -/
theorem Rows.settle {offset : Nat} {rows : List (HistoryMessage α)} {indices : List Nat} {start : Nat}
    (shown : Rows history start offset rows indices) (startIdx' : Int) (offset' : Nat) :
    Rows history startIdx' offset'
      (rows.mapIdx fun position message => message.settled (start + (offset + position))) indices := by
  induction shown generalizing offset' with
  | nil => exact .nil
  | @cons offset index row source rows indices found same _ ih =>
    rw [List.mapIdx_cons]
    refine .cons found (.inr ?_) ?_
    · rcases same with ⟨rfl, unplaced, position⟩ | rfl
      · unfold HistoryMessage.settled
        rw [unplaced]
        have here : index = start + (offset + 0) := by omega
        rw [here]
        rfl
      · unfold HistoryMessage.settled HistoryMessage.placed
        simp
    · have later := ih (offset' + 1)
      have shift : ∀ position, offset + 1 + position = offset + (position + 1) := by omega
      simpa only [shift] using later

/-- The position that a row has in the history, as a reader of the window takes it. -/
def HistoryMessage.position (message : HistoryMessage α) (startIdx : Int) (offset : Nat) : Int :=
  message.historyIndex.getD (startIdx + offset)

theorem Rows.positions {offset : Nat} {rows : List (HistoryMessage α)} {indices : List Nat}
    (shown : Rows history startIdx offset rows indices) :
    (rows.mapIdx fun position message => message.position startIdx (offset + position)) =
      indices.map fun index : Nat => (index : Int) := by
  induction shown with
  | nil => rfl
  | @cons offset index row source rows indices found same _ ih =>
    rw [List.mapIdx_cons, List.map_cons]
    congr 1
    · rcases same with ⟨rfl, unplaced, position⟩ | rfl
      · unfold HistoryMessage.position
        rw [unplaced]
        exact position.symm
      · rfl
    · have shift : ∀ position, offset + 1 + position = offset + (position + 1) := by omega
      simpa only [shift] using ih

/-- A row is its message of the history, but for what it says of its position. -/
theorem Rows.source {offset : Nat} {rows : List (HistoryMessage α)} {indices : List Nat}
    (shown : Rows history startIdx offset rows indices) {position : Nat} {row : HistoryMessage α}
    (found : rows[position]? = some row) : ∃ (index : Nat) (source : HistoryMessage α), history[index]? = some source ∧
      row.position startIdx (offset + position) = index ∧
      { row with historyIndex := source.historyIndex } = source := by
  induction shown generalizing position with
  | nil => cases found
  | @cons offset index head source rows indices there same _ ih =>
    cases position with
    | zero =>
      cases found
      refine ⟨index, source, there, ?_, ?_⟩
      · rcases same with ⟨rfl, unplaced, position⟩ | rfl
        · unfold HistoryMessage.position
          rw [unplaced]
          exact position.symm
        · rfl
      · rcases same with ⟨rfl, -, -⟩ | rfl
        · rfl
        · rfl
    | succ position =>
      obtain ⟨index, source, there, position', same⟩ := ih found
      refine ⟨index, source, there, ?_, same⟩
      rwa [show offset + (position + 1) = offset + 1 + position by omega]

/-! ## The rows of the loops -/

theorem projectMessages_rows (input : WindowInput α) (startIndex : Nat) (indices : List Nat)
    {projected : List (HistoryMessage α)} {before : List Nat}
    (shown : Rows input.messageHistory startIndex 0 projected before) :
    Rows input.messageHistory startIndex 0 (input.projectMessages startIndex projected indices)
      (before ++ indices.filter fun index =>
        (input.messageHistory[index]?).any fun message => input.accepts message index) := by
  induction indices generalizing projected before with
  | nil =>
    rw [List.filter_nil, List.append_nil]
    exact shown
  | cons index rest ih =>
    unfold WindowInput.projectMessages
    cases found : input.messageHistory[index]? with
    | none =>
      rw [List.filter_cons_of_neg (by simp [found])]
      exact ih shown
    | some message =>
      dsimp only
      cases accepted : input.accepts message index with
      | false =>
        rw [List.filter_cons_of_neg (by simp [found, accepted])]
        exact ih shown
      | true =>
        have shift : ∀ after, before ++ index :: after = (before ++ [index]) ++ after :=
          fun after => List.append_cons before index after
        rw [List.filter_cons_of_pos (by simp [found, accepted]), shift, if_neg (by simp)]
        refine ih (shown.append (.cons found ?_ .nil))
        by_cases here : index = startIndex + projected.length ∧ message.historyIndex = none
        · rw [if_pos (by simp [here.1, here.2])]
          refine .inl ⟨rfl, here.2, ?_⟩
          omega
        · rw [if_neg (by simpa using here)]
          exact .inr rfl

theorem projectHistoryRange_rows (input : WindowInput α) (startIndex endIndex : Nat) :
    Rows input.messageHistory startIndex 0 (input.projectHistoryRange startIndex endIndex)
      (picked input.accepts input.messageHistory startIndex endIndex) :=
  projectMessages_rows input startIndex _ .nil

theorem outsideMessages_rows (input : WindowInput α) (startIndex endIndex : Nat) (startIdx : Int)
    (offset : Nat) : Rows input.messageHistory startIdx offset
      (input.outsideMessages startIndex endIndex)
      (picked input.acceptsOutside input.messageHistory startIndex endIndex) := by
  unfold WindowInput.outsideMessages picked
  generalize List.range' startIndex (endIndex - startIndex) = indices
  induction indices generalizing offset with
  | nil => exact .nil
  | cons index rest ih =>
    rw [List.filterMap_cons]
    cases found : input.messageHistory[index]? with
    | none =>
      rw [List.filter_cons_of_neg (by simp [found])]
      exact ih offset
    | some message =>
      cases accepted : input.acceptsOutside message index with
      | false =>
        rw [List.filter_cons_of_neg (by simp [found, accepted])]
        simpa [accepted] using ih offset
      | true =>
        rw [List.filter_cons_of_pos (by simp [found, accepted])]
        simpa [accepted] using Rows.cons found (.inr rfl) (ih (offset + 1))

/-- The indices of a window. -/
def WindowInput.indices (input : WindowInput α) : List Nat :=
  (if input.resolveHistoryWindowFromTurn = 0 then
    picked input.acceptsOutside input.messageHistory 0 input.turnStartIdx
  else []) ++
  (picked input.accepts input.messageHistory input.turnStartIdx input.baseEndExclusive ++
  if input.closedTurn.isSome then
    picked input.acceptsOutside input.messageHistory input.baseEndExclusive
      input.trailingEndExclusive
  else [])

theorem leadingMessages_rows (input : WindowInput α) (startIdx : Int) :
    Rows input.messageHistory startIdx 0 input.leadingMessages
      (if input.resolveHistoryWindowFromTurn = 0 then
        picked input.acceptsOutside input.messageHistory 0 input.turnStartIdx
      else []) := by
  unfold WindowInput.leadingMessages
  by_cases first : input.resolveHistoryWindowFromTurn = 0
  · rw [if_pos first]
    by_cases later : 0 < input.turnStartIdx
    · rw [if_pos (by simp [first, later])]
      exact outsideMessages_rows input _ _ _ _
    · rw [if_neg (by simp [later])]
      obtain zero : input.turnStartIdx = 0 := by omega
      rw [zero, picked_self]
      exact .nil
  · rw [if_neg first, if_neg (by simp [first])]
    exact .nil

theorem trailingMessages_rows (input : WindowInput α) (startIdx : Int) (offset : Nat) :
    Rows input.messageHistory startIdx offset input.trailingMessages
      (if input.closedTurn.isSome then
        picked input.acceptsOutside input.messageHistory input.baseEndExclusive
          input.trailingEndExclusive
      else []) := by
  unfold WindowInput.trailingMessages
  split
  · exact outsideMessages_rows input _ _ _ _
  · exact .nil

theorem selectHistoryWindowRange_rows (input : WindowInput α) :
    Rows input.messageHistory (selectHistoryWindowRange input).startIdx 0
      (selectHistoryWindowRange input).messages input.indices := by
  have leading := leadingMessages_rows input (selectHistoryWindowRange input).startIdx
  have base := projectHistoryRange_rows input input.turnStartIdx input.baseEndExclusive
  unfold WindowInput.indices
  rw [← List.append_assoc]
  refine Rows.append ?_ (trailingMessages_rows input _ _)
  by_cases none : input.leadingMessages = []
  · have start : (selectHistoryWindowRange input).startIdx = input.turnStartIdx := by
      unfold selectHistoryWindowRange
      dsimp only
      rw [none]
      rfl
    rw [if_pos none, start]
    have empty := leading.length
    rw [none, List.length_nil] at empty
    rw [List.length_eq_zero_iff.mp empty.symm, List.nil_append]
    exact base
  · rw [if_neg none]
    refine leading.append ?_
    have settled := base.settle (selectHistoryWindowRange input).startIdx
      (0 + input.leadingMessages.length)
    simpa only [Nat.zero_add] using settled

end Takode.HistoryWindows
