import Takode.HistoryWindows.Rows

/-!
# What history windows cover

A window holds the message that it was asked for, and windows side by side hold what one window of
all turns does.
-/

namespace Takode.HistoryWindows

open JsString

variable {α : Type*}

/-! ## Turns in order -/

/-- Turns of a history, one after the other; only the last may be open. -/
structure InOrder (turns : List TurnBoundary) (length : Nat) : Prop where
  inside : ∀ (k : Nat) (turn : TurnBoundary), turns[k]? = some turn →
    turn.startIdx < length ∧ turn.endIdx < length
  ends : ∀ (k : Nat) (turn : TurnBoundary), turns[k]? = some turn → 0 ≤ turn.endIdx →
    turn.startIdx ≤ turn.endIdx
  apart : ∀ (k : Nat) (turn next : TurnBoundary), turns[k]? = some turn → turns[k + 1]? = some next →
    0 ≤ turn.endIdx ∧ turn.endIdx < next.startIdx

def InTurn (turns : List TurnBoundary) (index : Nat) : Prop :=
  ∃ turn ∈ turns, turn.startIdx ≤ index ∧ (turn.endIdx < 0 ∨ (index : Int) ≤ turn.endIdx)

theorem InOrder.apart_of_lt {turns : List TurnBoundary} {length : Nat} (ordered : InOrder turns length)
    {j k : Nat} {turn later : TurnBoundary} (less : j < k) (found : turns[j]? = some turn)
    (found' : turns[k]? = some later) : 0 ≤ turn.endIdx ∧ turn.endIdx < later.startIdx := by
  induction k generalizing later with
  | zero => omega
  | succ k ih =>
    by_cases next : j = k
    · subst next
      exact ordered.apart j turn later found found'
    · have below := (List.getElem?_eq_some_iff.mp found').1
      have there : turns[k]? = some turns[k] := List.getElem?_eq_getElem (by omega)
      have before := ih (by omega) there
      have closed := ordered.apart k _ later there found'
      have ends := ordered.ends k _ there closed.1
      omega

theorem InOrder.startIdx_le {turns : List TurnBoundary} {length : Nat} (ordered : InOrder turns length)
    {j k : Nat} {turn later : TurnBoundary} (less : j ≤ k) (found : turns[j]? = some turn)
    (found' : turns[k]? = some later) : turn.startIdx ≤ later.startIdx := by
  rcases Nat.eq_or_lt_of_le less with rfl | less
  · rw [found] at found'
    cases found'
    exact Nat.le_refl _
  · have apart := ordered.apart_of_lt less found found'
    have ends := ordered.ends j turn found apart.1
    omega

theorem InOrder.not_inTurn_before {turns : List TurnBoundary} {length index : Nat}
    (ordered : InOrder turns length) {first : TurnBoundary} (found : turns[0]? = some first)
    (before : index < first.startIdx) : ¬ InTurn turns index := by
  rintro ⟨turn, listed, low, -⟩
  obtain ⟨k, found'⟩ := List.mem_iff_getElem?.mp listed
  rcases Nat.eq_zero_or_pos k with rfl | later
  · rw [found] at found'
    cases found'
    omega
  · have apart := ordered.apart_of_lt later found found'
    have ends := ordered.ends 0 first found apart.1
    omega

theorem InOrder.not_inTurn_between {turns : List TurnBoundary} {length index k : Nat}
    (ordered : InOrder turns length) {turn : TurnBoundary} (found : turns[k]? = some turn)
    (closed : 0 ≤ turn.endIdx) (after : turn.endIdx < index)
    (before : ∀ next, turns[k + 1]? = some next → index < next.startIdx) :
    ¬ InTurn turns index := by
  rintro ⟨other, listed, low, high⟩
  obtain ⟨j, found'⟩ := List.mem_iff_getElem?.mp listed
  rcases Nat.lt_trichotomy j k with less | rfl | more
  · have apart := ordered.apart_of_lt less found' found
    have ends := ordered.ends k turn found closed
    omega
  · rw [found] at found'
    cases found'
    omega
  · have below := (List.getElem?_eq_some_iff.mp found').1
    have there : turns[k + 1]? = some turns[k + 1] := List.getElem?_eq_getElem (by omega)
    have early := before _ there
    rcases Nat.eq_or_lt_of_le more with rfl | later
    · rw [found'] at there
      have same := Option.some.inj there
      rw [← same] at early
      omega
    · have apart := ordered.apart_of_lt later there found'
      have ends := ordered.ends (k + 1) _ there apart.1
      omega

/-! ## Bounds of windows -/

namespace WindowInput

/-- Where the window ends that ends before a turn, and where the next one starts. -/
def bound (input : WindowInput α) (turn : Nat) : Nat :=
  if turn = 0 then 0
  else ((input.turns[turn]?).map (·.startIdx)).getD input.messageHistory.length

theorem bound_mono {input : WindowInput α}
    (ordered : InOrder input.turns input.messageHistory.length) {a b : Nat} (less : a ≤ b) :
    input.bound a ≤ input.bound b := by
  unfold bound
  by_cases zero : a = 0
  · rw [if_pos zero]
    exact Nat.zero_le _
  rw [if_neg zero, if_neg (by omega)]
  cases later : input.turns[b]? with
  | none =>
    cases found : input.turns[a]? with
    | none => exact Nat.le_refl _
    | some turn => exact Nat.le_of_lt (ordered.inside a turn found).1
  | some turn =>
    rcases Nat.eq_or_lt_of_le less with rfl | less
    · rw [later]
    · have below := (List.getElem?_eq_some_iff.mp later).1
      have there : input.turns[a]? = some input.turns[a] := List.getElem?_eq_getElem (by omega)
      rw [there]
      have apart := ordered.apart_of_lt less there later
      have ends := ordered.ends a _ there apart.1
      simp only [Option.map_some, Option.getD_some]
      omega

/-- The filters accept the same messages outside turns. -/
def FiltersAgree (input : WindowInput α) : Prop :=
  ∀ index message, input.messageHistory[index]? = some message → ¬ InTurn input.turns index →
    input.accepts message index = input.acceptsOutside message index

theorem closedTurn_of_last {input : WindowInput α} {last : TurnBoundary}
    (nonzero : input.endTurnExclusive ≠ 0)
    (found : input.turns[input.endTurnExclusive - 1]? = some last) :
    input.closedTurn = if 0 ≤ last.endIdx then some last else none := by
  unfold closedTurn
  rw [if_neg nonzero, found, Option.filter_some]
  simp only [decide_eq_true_eq]

theorem indices_eq_picked {input : WindowInput α}
    (ordered : InOrder input.turns input.messageHistory.length) (agree : input.FiltersAgree)
    (from' : input.resolveHistoryWindowFromTurn < input.turns.length) (positive : 0 < input.turnCount) :
    input.indices = picked input.accepts input.messageHistory
      (input.bound input.resolveHistoryWindowFromTurn) (input.bound input.endTurnExclusive) := by
  obtain ⟨first, found⟩ : ∃ first, input.turns[input.resolveHistoryWindowFromTurn]? = some first :=
    ⟨_, List.getElem?_eq_getElem from'⟩
  have start : input.turnStartIdx = first.startIdx := by
    unfold turnStartIdx
    rw [found]
    rfl
  have more : input.resolveHistoryWindowFromTurn < input.endTurnExclusive ∧
      input.endTurnExclusive ≤ input.turns.length := by
    unfold endTurnExclusive
    omega
  obtain ⟨last, found'⟩ : ∃ last, input.turns[input.endTurnExclusive - 1]? = some last :=
    ⟨_, List.getElem?_eq_getElem (by omega)⟩
  have order := ordered.startIdx_le (Nat.le_sub_one_of_lt more.1) found found'
  have stop : input.bound input.endTurnExclusive = input.trailingEndExclusive := by
    unfold bound
    rw [if_neg (by omega)]
    rfl
  -- what comes before the turns is outside them
  have leading : (if input.resolveHistoryWindowFromTurn = 0 then
      picked input.acceptsOutside input.messageHistory 0 input.turnStartIdx else []) =
      picked input.accepts input.messageHistory (input.bound input.resolveHistoryWindowFromTurn)
        input.turnStartIdx := by
    by_cases zero : input.resolveHistoryWindowFromTurn = 0
    · rw [if_pos zero, zero]
      rw [zero] at found
      refine picked_congr fun index message _ before there => ?_
      rw [start] at before
      exact (agree index message there (ordered.not_inTurn_before found before)).symm
    · rw [if_neg zero]
      unfold bound
      rw [if_neg zero, found, start]
      exact (picked_self _ _ _).symm
  have low : input.bound input.resolveHistoryWindowFromTurn ≤ input.turnStartIdx := by
    unfold bound
    split
    · exact Nat.zero_le _
    · rw [found, start]
      exact Nat.le_refl _
  have trailing : picked input.accepts input.messageHistory input.turnStartIdx
      input.baseEndExclusive ++ (if input.closedTurn.isSome then
        picked input.acceptsOutside input.messageHistory input.baseEndExclusive
          input.trailingEndExclusive else []) =
      picked input.accepts input.messageHistory input.turnStartIdx input.trailingEndExclusive ∧
      input.turnStartIdx ≤ input.trailingEndExclusive := by
    have nonzero : input.endTurnExclusive ≠ 0 := by omega
    have next : input.endTurnExclusive - 1 + 1 = input.endTurnExclusive := by omega
    by_cases closed : 0 ≤ last.endIdx
    · have isClosed : input.closedTurn = some last := by
        rw [closedTurn_of_last nonzero found', if_pos closed]
      have base : input.baseEndExclusive = last.endIdx.toNat + 1 := by
        unfold baseEndExclusive
        rw [isClosed]
        rfl
      have ends := ordered.ends _ last found' closed
      have room : last.endIdx.toNat + 1 ≤ input.trailingEndExclusive := by
        unfold trailingEndExclusive
        cases later : input.turns[input.endTurnExclusive]? with
        | none =>
          have inside := ordered.inside _ last found'
          simp only [Option.map_none, Option.getD_none]
          omega
        | some turn =>
          have apart := ordered.apart _ last turn found' (by rw [next]; exact later)
          simp only [Option.map_some, Option.getD_some]
          omega
      have outside : picked input.acceptsOutside input.messageHistory input.baseEndExclusive
          input.trailingEndExclusive = picked input.accepts input.messageHistory
            input.baseEndExclusive input.trailingEndExclusive := by
        refine picked_congr fun index message after before there => ?_
        refine (agree index message there (ordered.not_inTurn_between found' closed ?_ ?_)).symm
        · omega
        · intro turn later
          rw [next] at later
          unfold trailingEndExclusive at before
          rw [later] at before
          exact before
      rw [isClosed, if_pos Option.isSome_some, outside, picked_append _ _ (by omega) (by omega)]
      exact ⟨rfl, by omega⟩
    · have isOpen : input.closedTurn = none := by
        rw [closedTurn_of_last nonzero found', if_neg closed]
      have base : input.baseEndExclusive = input.trailingEndExclusive := by
        unfold baseEndExclusive
        rw [isOpen]
        rfl
      rw [isOpen, base]
      refine ⟨List.append_nil _, ?_⟩
      unfold trailingEndExclusive
      cases later : input.turns[input.endTurnExclusive]? with
      | none =>
        have inside := ordered.inside _ last found'
        simp only [Option.map_none, Option.getD_none]
        omega
      | some turn =>
        have apart := ordered.apart _ last turn found' (by rw [next]; exact later)
        exact absurd apart.1 closed
  unfold indices
  rw [leading, trailing.1, picked_append _ _ low trailing.2, stop]

/-! ## Windows side by side -/

/-- The request for some turns from one on, with no target. -/
def ofTurns (input : WindowInput α) (requestedFromTurn turnCount : Nat) : WindowInput α :=
  { input with
    requestedFromTurn, turnCount
    targetMessageId := none
    targetHistoryIndex := none }

theorem ofTurns_from (input : WindowInput α) {start : Nat} (count : Nat)
    (below : start < input.turns.length) :
    (input.ofTurns start count).resolveHistoryWindowFromTurn = start := by
  unfold resolveHistoryWindowFromTurn
  have untargeted : (input.ofTurns start count).resolveTargetHistoryIndex = none := rfl
  have turns : (input.ofTurns start count).turns = input.turns := rfl
  have requested : (input.ofTurns start count).requestedFromTurn = start := rfl
  dsimp only
  rw [untargeted, turns, requested, if_neg (by omega)]
  dsimp only [Option.bind_none]
  rw [if_neg (by omega)]
  omega

theorem ofTurns_indices {input : WindowInput α}
    (ordered : InOrder input.turns input.messageHistory.length) (agree : input.FiltersAgree)
    {start count : Nat} (below : start < input.turns.length) (positive : 0 < count) :
    (input.ofTurns start count).indices = picked input.accepts input.messageHistory
      (input.bound start) (input.bound (min input.turns.length (start + count))) := by
  have from' := input.ofTurns_from count below
  have window : (input.ofTurns start count).indices =
      picked input.accepts input.messageHistory
        (input.bound (input.ofTurns start count).resolveHistoryWindowFromTurn)
        (input.bound (input.ofTurns start count).endTurnExclusive) :=
    indices_eq_picked ordered agree (by rw [from']; exact below) positive
  rw [from'] at window
  have stop : (input.ofTurns start count).endTurnExclusive =
      min input.turns.length (start + count) := by
    unfold endTurnExclusive
    rw [from']
    rfl
  rw [stop] at window
  exact window

theorem indices_of_no_turns {input : WindowInput α} (empty : input.turns = []) :
    input.indices = picked input.accepts input.messageHistory 0 input.messageHistory.length := by
  have from' : input.resolveHistoryWindowFromTurn = 0 := by
    unfold resolveHistoryWindowFromTurn
    dsimp only
    rw [if_pos (by rw [empty]; rfl)]
  have start : input.turnStartIdx = 0 := by
    unfold turnStartIdx
    rw [empty]
    rfl
  have stop : input.endTurnExclusive = 0 := by
    unfold endTurnExclusive
    rw [empty]
    exact Nat.zero_min _
  have open' : input.closedTurn = none := by
    unfold closedTurn
    rw [if_pos stop]
    rfl
  have trailing : input.trailingEndExclusive = input.messageHistory.length := by
    unfold trailingEndExclusive
    rw [empty]
    rfl
  have base : input.baseEndExclusive = input.messageHistory.length := by
    unfold baseEndExclusive
    rw [open', trailing]
    rfl
  unfold indices
  rw [if_pos from', start, picked_self, base, open', List.nil_append]
  exact List.append_nil _

end WindowInput

/-- The turns 0, `count`, twice `count` and so on. -/
def windowStarts (totalTurns count : Nat) : List Nat :=
  (List.range (max 1 ((totalTurns + count - 1) / count))).map (· * count)

theorem windows_indices {input : WindowInput α}
    (ordered : InOrder input.turns input.messageHistory.length) (agree : input.FiltersAgree)
    {count : Nat} (positive : 0 < count) {windows : Nat}
    (below : ∀ k < windows, k * count < input.turns.length) :
    ((List.range windows).map (· * count)).flatMap (fun start => (input.ofTurns start count).indices) =
      picked input.accepts input.messageHistory 0
        (input.bound (min input.turns.length (windows * count))) := by
  induction windows with
  | zero =>
    rw [Nat.zero_mul, Nat.min_zero]
    exact (picked_self _ _ _).symm
  | succ windows ih =>
    have last := below windows (Nat.lt_succ_self _)
    rw [List.range_succ, List.map_append, List.flatMap_append,
      ih fun k less => below k (Nat.lt_succ_of_lt less), List.map_singleton, List.flatMap_singleton,
      WindowInput.ofTurns_indices ordered agree last positive, Nat.min_eq_right (Nat.le_of_lt last),
      picked_append _ _ (Nat.zero_le _) (WindowInput.bound_mono ordered (by omega)), Nat.succ_mul]

theorem windows_cover {input : WindowInput α}
    (ordered : InOrder input.turns input.messageHistory.length) (agree : input.FiltersAgree)
    {count all : Nat} (positive : 0 < count) (all' : input.turns.length ≤ all) (positive' : 0 < all) :
    (windowStarts input.turns.length count).flatMap
      (fun start => (input.ofTurns start count).indices) = (input.ofTurns 0 all).indices := by
  by_cases empty : input.turns = []
  · have starts : windowStarts input.turns.length count = [0] := by
      unfold windowStarts
      have zero : (input.turns.length + count - 1) / count = 0 := by
        rw [empty, List.length_nil]
        exact Nat.div_eq_of_lt (by omega)
      rw [zero]
      simp
    have part : (input.ofTurns 0 count).indices = _ := WindowInput.indices_of_no_turns empty
    have whole : (input.ofTurns 0 all).indices = _ := WindowInput.indices_of_no_turns empty
    rw [starts, List.flatMap_singleton, part, whole]
    rfl
  · have filled : 0 < input.turns.length := List.length_pos_of_ne_nil empty
    have many : 1 ≤ (input.turns.length + count - 1) / count :=
      Nat.div_pos (by omega) positive
    have divided := Nat.div_add_mod (input.turns.length + count - 1) count
    have rest := Nat.mod_lt (input.turns.length + count - 1) positive
    unfold windowStarts
    rw [Nat.max_eq_right many]
    generalize (input.turns.length + count - 1) / count = windows at many divided ⊢
    rw [Nat.mul_comm] at divided
    rw [windows_indices ordered agree positive, WindowInput.ofTurns_indices ordered agree filled positive',
      Nat.min_eq_left (by omega), Nat.min_eq_left (by omega)]
    · rfl
    · intro k less
      have step : (k + 1) * count ≤ windows * count := Nat.mul_le_mul_right count less
      rw [Nat.succ_mul] at step
      omega

/-! ## The target -/

namespace WindowInput

theorem findOwningTurn_cases {input : WindowInput α} {target turn : Nat}
    (owned : input.findOwningTurn target = some turn) :
    ∃ message, input.messageHistory[target]? = some message ∧ input.accepts message target = true ∧
      ((∃ first, input.turns[0]? = some first ∧ target < first.startIdx ∧ turn = 0 ∧
          input.acceptsOutside message target = true) ∨
        ∃ owner, input.turns[turn]? = some owner ∧
          input.ownsMessage target message owner turn = true) := by
  unfold findOwningTurn at owned
  cases found : input.messageHistory[target]? with
  | none =>
    rw [found] at owned
    cases owned
  | some message =>
    rw [found] at owned
    dsimp only at owned
    cases accepted : input.accepts message target with
    | false =>
      rw [accepted] at owned
      cases owned
    | true =>
      rw [accepted] at owned
      refine ⟨message, rfl, accepted, ?_⟩
      by_cases early : (input.turns.head?.any fun first => target < first.startIdx) = true
      · rw [if_neg (by decide), if_pos early] at owned
        obtain ⟨first, head, before⟩ := (Option.any_eq_true ..).mp early
        by_cases outside : input.acceptsOutside message target = true
        · rw [if_pos outside] at owned
          refine .inl ⟨first, ?_, of_decide_eq_true before, (Option.some.inj owned).symm, outside⟩
          rw [← List.head?_eq_getElem?]
          exact head
        · rw [if_neg outside] at owned
          cases owned
      · rw [if_neg (by decide), if_neg early] at owned
        obtain ⟨⟨owner, index⟩, first, rfl⟩ := Option.map_eq_some_iff.mp owned
        have owns := List.find?_some first
        exact .inr ⟨owner, List.mem_zipIdx_iff_getElem?.mp (List.mem_of_find?_eq_some first), owns⟩

theorem isSome_findOwningTurn {input : WindowInput α} (filled : input.turns ≠ [])
    {target : Nat} {message : HistoryMessage α}
    (ordered : InOrder input.turns input.messageHistory.length)
    (found : input.messageHistory[target]? = some message)
    (accepted : input.accepts message target = true)
    (placed : InTurn input.turns target ∨ input.acceptsOutside message target = true) :
    (input.findOwningTurn target).isSome = true := by
  unfold findOwningTurn
  rw [found]
  dsimp only
  rw [accepted, if_neg (by decide)]
  obtain ⟨first, there⟩ : ∃ first, input.turns[0]? = some first :=
    ⟨_, List.getElem?_eq_getElem (List.length_pos_of_ne_nil filled)⟩
  rw [List.head?_eq_getElem?, there]
  by_cases early : target < first.startIdx
  · rw [if_pos (by simpa using early)]
    rcases placed with inside | outside
    · exact absurd inside (ordered.not_inTurn_before there early)
    · rw [if_pos outside]
      rfl
  · rw [if_neg (by simpa using early), Option.isSome_map, List.find?_isSome]
    -- the last turn that does not start later
    have below := (List.getElem?_eq_some_iff.mp found).1
    have last : ∃ (turn : Nat) (owner : TurnBoundary), input.turns[turn]? = some owner ∧ owner.startIdx ≤ target ∧
        target < input.nextStart turn := by
      have search : ∀ k : Nat,
          (∃ owner : TurnBoundary, input.turns[k]? = some owner ∧ owner.startIdx ≤ target) →
          ∃ (turn : Nat) (owner : TurnBoundary), input.turns[turn]? = some owner ∧ owner.startIdx ≤ target ∧
            target < input.nextStart turn := by
        intro k
        induction left : input.turns.length - k generalizing k with
        | zero =>
          rintro ⟨owner, there, -⟩
          have short := (List.getElem?_eq_some_iff.mp there).1
          omega
        | succ left ih =>
          rintro ⟨owner, there, before⟩
          by_cases next : target < input.nextStart k
          · exact ⟨k, owner, there, before, next⟩
          · refine ih (k + 1) (by omega) ?_
            unfold nextStart at next
            cases later : input.turns[k + 1]? with
            | none =>
              rw [later] at next
              exact absurd below next
            | some turn =>
              rw [later] at next
              exact ⟨turn, rfl, Nat.le_of_not_lt next⟩
      exact search 0 ⟨first, there, Nat.le_of_not_lt early⟩
    obtain ⟨turn, owner, there', low, high⟩ := last
    refine ⟨(owner, turn), List.mem_zipIdx_iff_getElem?.mpr there', ?_⟩
    unfold ownsMessage
    rw [if_neg (by simp only [Bool.or_eq_true, decide_eq_true_eq]; omega)]
    by_cases inside : owner.endIdx < 0 ∨ (target : Int) ≤ owner.endIdx
    · rw [if_pos (by simpa using inside)]
    · rw [if_neg (by simpa using inside)]
      rcases placed with inTurn | outside
      · refine absurd inTurn (ordered.not_inTurn_between there' (by omega) (by omega) ?_)
        intro next later
        unfold nextStart at high
        rw [later] at high
        exact high
      · exact outside

theorem startIdx_lt_baseEnd {input : WindowInput α}
    (ordered : InOrder input.turns input.messageHistory.length) {last : TurnBoundary}
    (nonzero : input.endTurnExclusive ≠ 0)
    (found : input.turns[input.endTurnExclusive - 1]? = some last) :
    last.startIdx < input.baseEndExclusive := by
  unfold baseEndExclusive
  rw [closedTurn_of_last nonzero found]
  by_cases closed : 0 ≤ last.endIdx
  · rw [if_pos closed]
    have ends := ordered.ends _ last found closed
    simp only [Option.map_some, Option.getD_some]
    omega
  · rw [if_neg closed]
    unfold trailingEndExclusive
    cases later : input.turns[input.endTurnExclusive]? with
    | none => exact (ordered.inside _ last found).1
    | some next =>
      have same : input.endTurnExclusive - 1 + 1 = input.endTurnExclusive := by omega
      have apart := ordered.apart _ last next found (by rw [same]; exact later)
      exact absurd apart.1 closed

theorem mem_indices_of_owned {input : WindowInput α}
    (ordered : InOrder input.turns input.messageHistory.length) {target turn : Nat}
    (owned : input.findOwningTurn target = some turn)
    (low : input.resolveHistoryWindowFromTurn ≤ turn) (high : turn < input.endTurnExclusive) :
    target ∈ input.indices := by
  obtain ⟨message, found, accepted, ⟨first, there, before, rfl, outside⟩ | ⟨owner, there, owns⟩⟩ :=
    findOwningTurn_cases owned
  · have zero : input.resolveHistoryWindowFromTurn = 0 := Nat.le_zero.mp low
    have start : input.turnStartIdx = first.startIdx := by
      unfold turnStartIdx
      rw [zero, there]
      rfl
    refine List.mem_append_left _ ?_
    rw [if_pos zero, start]
    exact mem_picked.mpr ⟨Nat.zero_le _, before, message, found, outside⟩
  · unfold ownsMessage at owns
    have bounds : owner.startIdx ≤ target ∧ target < input.nextStart turn := by
      by_contra beyond
      rw [if_pos (by simp only [Bool.or_eq_true, decide_eq_true_eq]; omega)] at owns
      cases owns
    rw [if_neg (by simp only [Bool.or_eq_true, decide_eq_true_eq]; omega)] at owns
    have stop : input.endTurnExclusive ≤ input.turns.length := by
      unfold endTurnExclusive
      omega
    obtain ⟨first, there'⟩ : ∃ first,
        input.turns[input.resolveHistoryWindowFromTurn]? = some first :=
      ⟨_, List.getElem?_eq_getElem (by omega)⟩
    have start : input.turnStartIdx ≤ target := by
      unfold turnStartIdx
      rw [there']
      exact Nat.le_trans (ordered.startIdx_le low there' there) bounds.1
    have nonzero : input.endTurnExclusive ≠ 0 := by omega
    obtain ⟨last, there''⟩ : ∃ last, input.turns[input.endTurnExclusive - 1]? = some last :=
      ⟨_, List.getElem?_eq_getElem (by omega)⟩
    refine List.mem_append_right _ ?_
    by_cases base : target < input.baseEndExclusive
    · exact List.mem_append_left _ (mem_picked.mpr ⟨start, base, message, found, accepted⟩)
    -- the message is after the last turn of the window, which then is its owner
    have isLast : turn = input.endTurnExclusive - 1 := by
      by_contra other
      obtain ⟨next, follower⟩ : ∃ next, input.turns[turn + 1]? = some next :=
        ⟨_, List.getElem?_eq_getElem (by omega)⟩
      have early := bounds.2
      unfold nextStart at early
      rw [follower] at early
      have order := ordered.startIdx_le (by omega) follower there''
      have room := startIdx_lt_baseEnd ordered nonzero there''
      exact base (Nat.lt_trans (Nat.lt_of_lt_of_le early order) room)
    obtain rfl : owner = last := by
      rw [← isLast, there] at there''
      exact Option.some.inj there''
    have trailing : target < input.trailingEndExclusive := by
      have early := bounds.2
      unfold nextStart at early
      rwa [isLast, Nat.sub_add_cancel (by omega)] at early
    by_cases closed : 0 ≤ owner.endIdx
    · have isClosed := closedTurn_of_last nonzero there''
      rw [if_pos closed] at isClosed
      have stop : input.baseEndExclusive = owner.endIdx.toNat + 1 := by
        unfold baseEndExclusive
        rw [isClosed]
        rfl
      rw [if_neg (by simp only [Bool.or_eq_true, decide_eq_true_eq]; omega)] at owns
      rw [isClosed, if_pos Option.isSome_some]
      exact List.mem_append_right _
        (mem_picked.mpr ⟨Nat.le_of_not_lt base, trailing, message, found, owns⟩)
    · have isOpen := closedTurn_of_last nonzero there''
      rw [if_neg closed] at isOpen
      unfold baseEndExclusive at base
      rw [isOpen] at base
      exact absurd trailing base

theorem mem_indices_of_target {input : WindowInput α}
    (ordered : InOrder input.turns input.messageHistory.length) (positive : 0 < input.turnCount)
    {target : Nat} {message : HistoryMessage α}
    (named : input.resolveTargetHistoryIndex = some target)
    (found : input.messageHistory[target]? = some message)
    (accepted : input.accepts message target = true)
    (placed : InTurn input.turns target ∨ input.acceptsOutside message target = true) :
    target ∈ input.indices := by
  by_cases empty : input.turns = []
  · rw [indices_of_no_turns empty]
    exact mem_picked.mpr ⟨Nat.zero_le _, (List.getElem?_eq_some_iff.mp found).1, message, found, accepted⟩
  obtain ⟨turn, owned⟩ :=
    Option.isSome_iff_exists.mp (isSome_findOwningTurn empty ordered found accepted placed)
  have filled : 0 < input.turns.length := List.length_pos_of_ne_nil empty
  have below : turn < input.turns.length := by
    obtain ⟨-, -, -, ⟨-, -, -, rfl, -⟩ | ⟨owner, there, -⟩⟩ := findOwningTurn_cases owned
    · exact filled
    · exact (List.getElem?_eq_some_iff.mp there).1
  have from' : input.resolveHistoryWindowFromTurn =
      (max 0 (min ((turn : Int) - (input.turnCount / 2 : Nat))
        ((input.turns.length : Int) - input.turnCount))).toNat := by
    unfold resolveHistoryWindowFromTurn
    dsimp only
    rw [if_neg (by omega), named, Option.bind_some, owned]
  have half := Nat.div_le_self input.turnCount 2
  refine mem_indices_of_owned ordered owned ?_ ?_
  · omega
  · unfold endTurnExclusive
    omega

end WindowInput

/-! ## Windows -/

/-- Where the messages of a window are, as a reader of the window takes it. -/
def HistoryWindow.positions (window : HistoryWindow α) : List Int :=
  window.messages.mapIdx fun offset message => message.position window.startIdx offset

theorem positions_eq (input : WindowInput α) :
    (selectHistoryWindowRange input).positions = input.indices.map fun index : Nat => (index : Int) := by
  have shown := (selectHistoryWindowRange_rows input).positions
  simp only [Nat.zero_add] at shown
  exact shown

theorem from_lt_length {input : WindowInput α} (filled : input.turns ≠ [])
    (positive : 0 < input.turnCount) :
    input.resolveHistoryWindowFromTurn < input.turns.length := by
  have length := List.length_pos_of_ne_nil filled
  unfold WindowInput.resolveHistoryWindowFromTurn
  dsimp only
  rw [if_neg (by omega)]
  split
  · omega
  · split <;> omega

theorem turnStartIdx_le_baseEnd {input : WindowInput α}
    (ordered : InOrder input.turns input.messageHistory.length) (positive : 0 < input.turnCount) :
    input.turnStartIdx ≤ input.baseEndExclusive := by
  by_cases empty : input.turns = []
  · unfold WindowInput.turnStartIdx
    rw [empty]
    exact Nat.zero_le _
  · have from' := from_lt_length empty positive
    have more : input.resolveHistoryWindowFromTurn < input.endTurnExclusive ∧
        input.endTurnExclusive ≤ input.turns.length := by
      unfold WindowInput.endTurnExclusive
      omega
    obtain ⟨first, found⟩ : ∃ first,
        input.turns[input.resolveHistoryWindowFromTurn]? = some first :=
      ⟨_, List.getElem?_eq_getElem from'⟩
    obtain ⟨last, found'⟩ : ∃ last, input.turns[input.endTurnExclusive - 1]? = some last :=
      ⟨_, List.getElem?_eq_getElem (by omega)⟩
    unfold WindowInput.turnStartIdx
    rw [found]
    exact Nat.le_trans (ordered.startIdx_le (Nat.le_sub_one_of_lt more.1) found found')
      (Nat.le_of_lt (WindowInput.startIdx_lt_baseEnd ordered (by omega) found'))

theorem indices_increasing {input : WindowInput α}
    (ordered : InOrder input.turns input.messageHistory.length) (positive : 0 < input.turnCount) :
    input.indices.Pairwise (· < ·) := by
  have order := turnStartIdx_le_baseEnd ordered positive
  unfold WindowInput.indices
  rw [List.pairwise_append, List.pairwise_append]
  have before : ∀ a ∈ (if input.resolveHistoryWindowFromTurn = 0 then
      picked input.acceptsOutside input.messageHistory 0 input.turnStartIdx else []),
      a < input.turnStartIdx := by
    intro a listed
    split at listed
    · exact (mem_picked.mp listed).2.1
    · cases listed
  have after : ∀ b ∈ (if input.closedTurn.isSome = true then
      picked input.acceptsOutside input.messageHistory input.baseEndExclusive
        input.trailingEndExclusive else []), input.baseEndExclusive ≤ b := by
    intro b listed
    split at listed
    · exact (mem_picked.mp listed).1
    · cases listed
  refine ⟨?_, ⟨picked_increasing _ _ _ _, ?_, fun a base b trailing => ?_⟩, fun a leading b later => ?_⟩
  · split
    · exact picked_increasing _ _ _ _
    · exact .nil
  · split
    · exact picked_increasing _ _ _ _
    · exact .nil
  · exact Nat.lt_of_lt_of_le (mem_picked.mp base).2.1 (after b trailing)
  · have early := before a leading
    rcases List.mem_append.mp later with base | trailing
    · exact Nat.lt_of_lt_of_le early (mem_picked.mp base).1
    · have late := after b trailing
      omega

/-- A window is a faithful slice of the history: it shows messages of the history at increasing
positions, the one that it was asked for among them, and windows side by side show what one window
of all turns shows. -/
theorem history_windows_faithful (input : WindowInput α)
    (ordered : InOrder input.turns input.messageHistory.length) (positive : 0 < input.turnCount) :
    (selectHistoryWindowRange input).positions.Pairwise (· < ·) ∧
    (∀ (offset : Nat) (row : HistoryMessage α), (selectHistoryWindowRange input).messages[offset]? = some row →
      ∃ (index : Nat) (source : HistoryMessage α), input.messageHistory[index]? = some source ∧
        row.position (selectHistoryWindowRange input).startIdx offset = index ∧
        { row with historyIndex := source.historyIndex } = source) ∧
    (∀ target message, input.resolveTargetHistoryIndex = some target →
      input.messageHistory[target]? = some message → input.accepts message target = true →
      (InTurn input.turns target ∨ input.acceptsOutside message target = true) →
      (target : Int) ∈ (selectHistoryWindowRange input).positions) ∧
    (input.FiltersAgree → ∀ all, input.turns.length ≤ all → 0 < all →
      (windowStarts input.turns.length input.turnCount).flatMap (fun start =>
          (selectHistoryWindowRange (input.ofTurns start input.turnCount)).positions) =
        (selectHistoryWindowRange (input.ofTurns 0 all)).positions) := by
  refine ⟨?_, fun offset row there => ?_, fun target message named found accepted placed => ?_,
    fun agree all many some => ?_⟩
  · rw [positions_eq, List.pairwise_map]
    exact (indices_increasing ordered positive).imp fun less => Int.ofNat_lt.mpr less
  · have source := (selectHistoryWindowRange_rows input).source there
    simpa only [Nat.zero_add] using source
  · rw [positions_eq]
    exact List.mem_map_of_mem
      (WindowInput.mem_indices_of_target ordered positive named found accepted placed)
  · simp only [positions_eq]
    rw [← windows_cover ordered agree positive many some, List.map_flatMap]

/-- A question with its result, and an open turn after it. -/
def twoTurns : WindowInput Unit where
  messageHistory := [⟨js "user_message", none, none, none, ()⟩, ⟨js "result", none, none, none, ()⟩,
    ⟨js "user_message", none, none, none, ()⟩]
  turns := [⟨0, 1⟩, ⟨2, -1⟩]
  requestedFromTurn := 0
  turnCount := 1
  targetMessageId := none
  targetHistoryIndex := some 2
  includeMessage := none
  includeOutsideTurnMessage := none

theorem history_windows_faithful_two :
    InOrder twoTurns.turns twoTurns.messageHistory.length ∧
      (2 : Int) ∈ (selectHistoryWindowRange twoTurns).positions := by
  have ordered : InOrder twoTurns.turns twoTurns.messageHistory.length := by
    refine ⟨fun k turn found => ?_, fun k turn found => ?_, fun k turn next found later => ?_⟩
    · match k with
      | 0 | 1 =>
        cases found
        decide
    · match k with
      | 0 | 1 =>
        cases found
        decide
    · match k with
      | 0 =>
        cases found
        cases later
        decide
  have faithful := history_windows_faithful twoTurns ordered (by decide)
  refine ⟨ordered, faithful.2.2.1 2 _ (by decide +kernel) rfl rfl (.inl ?_)⟩
  exact ⟨⟨2, -1⟩, by decide, by decide, by decide⟩

end Takode.HistoryWindows
