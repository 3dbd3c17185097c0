import Takode.Lib.JsString
import Takode.Lib.Subsequences

/-!
# How a post's parts changed

`comparePostParts` of `web/shared/draft-posts.ts`: a table of the lengths of longest common
subsequences, filled from the last parts to the first, and the walk over both versions that reads
it. An array is a list, a place of it that nothing was written to is `none`.
-/

namespace Takode.DraftPosts

/-- What the comparison says of one part of the new version. -/
inductive PartChange where
  | same
  | edited
  | new
  deriving DecidableEq, Repr

/-- How one post's parts changed from its previous version. -/
structure PostPartChanges where
  /-- Per part of the new version. -/
  parts : List (Option PartChange)
  /-- Parts of the previous version that are gone. -/
  removed : List Nat
  deriving DecidableEq, Repr

/-! ## The table -/

/-- One row of the table, from its last place to its first. -/
def lcsRow (part : JsString) : List JsString → List Nat → List Nat
  | [], _ => [0]
  | other :: rest, below =>
    let right := lcsRow part rest below.tail
    (if part = other then below.tail.headD 0 + 1 else max (below.headD 0) (right.headD 0)) :: right

/-- The table `lcs`, from its last row to its first. -/
def lcsTable : List JsString → List JsString → List (List Nat)
  | [], next => [List.replicate (next.length + 1) 0]
  | part :: rest, next =>
    let below := lcsTable rest next
    lcsRow part next (below.headD []) :: below

/-- `lcs[i][j]`. -/
def lcsAt (lcs : List (List Nat)) (i j : Nat) : Nat := (lcs.getD i []).getD j 0

/-! ## The walk -/

/-- `array[index] = value`: the places between the end and the index stay empty. -/
def writeAt (parts : List (Option PartChange)) (index : Nat) (value : PartChange) :
    List (Option PartChange) :=
  if index < parts.length then parts.set index (some value)
  else parts ++ List.replicate (index - parts.length) none ++ [some value]

/-- The variables of the walk. -/
structure Walk where
  i : Nat
  j : Nat
  parts : List (Option PartChange)
  removed : List Nat
  gapOld : List Nat
  gapNew : List Nat
  deriving DecidableEq, Repr

def Walk.start : Walk := ⟨0, 0, [], [], [], []⟩

/-- `gapNew.forEach((index, position) => …)` from a position on. -/
def labelGap (gapOld : List Nat) : Nat → List Nat → List (Option PartChange) →
    List (Option PartChange)
  | _, [], parts => parts
  | position, index :: rest, parts =>
    labelGap gapOld (position + 1) rest
      (writeAt parts index (if position < gapOld.length then .edited else .new))

def closeGap (w : Walk) : Walk :=
  { w with
    parts := labelGap w.gapOld 0 w.gapNew w.parts
    removed := w.removed ++ w.gapOld.drop w.gapNew.length
    gapOld := []
    gapNew := [] }

section

variable (previous next : List JsString)

/-- One turn of the loop. -/
def walkStep (lcs : List (List Nat)) (w : Walk) : Walk :=
  if w.i < previous.length ∧ w.j < next.length ∧ previous[w.i]? = next[w.j]? then
    let closed := closeGap w
    { closed with parts := writeAt closed.parts w.j .same, i := w.i + 1, j := w.j + 1 }
  else if w.j < next.length ∧
      (previous.length ≤ w.i ∨ lcsAt lcs (w.i + 1) w.j ≤ lcsAt lcs w.i (w.j + 1)) then
    { w with gapNew := w.gapNew ++ [w.j], j := w.j + 1 }
  else { w with gapOld := w.gapOld ++ [w.i], i := w.i + 1 }

/-- `while (i < rows || j < cols)`, for as many turns as there are parts. -/
def walkLoop (lcs : List (List Nat)) : Nat → Walk → Walk
  | 0, w => w
  | turns + 1, w =>
    if w.i < previous.length ∨ w.j < next.length then
      walkLoop lcs turns (walkStep previous next lcs w)
    else w

def comparePostParts : PostPartChanges :=
  let w := closeGap
    (walkLoop previous next (lcsTable previous next) (previous.length + next.length) Walk.start)
  ⟨w.parts, w.removed⟩

example : comparePostParts [js "a", js "b", js "c"] [js "x", js "b", js "d", js "e"] =
    ⟨[some .edited, some .same, some .edited, some .new], []⟩ := by decide

end

/-! ## The table holds the lengths of common subsequences -/

theorem lcsRow_eq {part : JsString} {rest next : List JsString} {below : List Nat}
    (filled : ∀ j, j ≤ next.length → below.getD j 0 = commonLength rest (next.drop j)) :
    ∀ j, j ≤ next.length →
      (lcsRow part next below).getD j 0 = commonLength (part :: rest) (next.drop j) := by
  induction next generalizing below with
  | nil =>
    intro j inside
    have first : j = 0 := by simpa using inside
    subst first
    simp [lcsRow]
  | cons other tail ih =>
    have shifted : ∀ j, j ≤ tail.length →
        below.tail.getD j 0 = commonLength rest (tail.drop j) := by
      intro j inside
      have filled := filled (j + 1) (by simpa using inside)
      rw [List.drop_succ_cons] at filled
      rw [← filled]
      cases below <;> simp
    have right := ih shifted
    intro j inside
    cases j with
    | succ j =>
      have inside : j ≤ tail.length := by simpa using inside
      simpa [lcsRow] using right j inside
    | zero =>
      have head (row : List Nat) : row.headD 0 = row.getD 0 0 := by cases row <;> rfl
      simp only [lcsRow, head, List.getD_cons_zero, List.drop_zero]
      rw [right 0 (Nat.zero_le _), shifted 0 (Nat.zero_le _), filled 0 (Nat.zero_le _)]
      rw [commonLength_cons]
      simp

/-- What the walk reads is the length of a longest common subsequence of what is left. -/
theorem lcsAt_eq {previous next : List JsString} {i j : Nat} (inOld : i ≤ previous.length)
    (inNew : j ≤ next.length) :
    lcsAt (lcsTable previous next) i j = commonLength (previous.drop i) (next.drop j) := by
  induction previous generalizing i j with
  | nil =>
    have first : i = 0 := by simpa using inOld
    subst first
    have inside : j < next.length + 1 := by omega
    simp [lcsAt, lcsTable, List.getD_eq_getElem?_getD, inside]
  | cons part rest ih =>
    cases i with
    | succ i =>
      have inOld : i ≤ rest.length := by simpa using inOld
      simpa [lcsAt, lcsTable] using ih inOld inNew
    | zero =>
      have filled : ∀ j, j ≤ next.length →
          ((lcsTable rest next).headD []).getD j 0 = commonLength rest (next.drop j) := by
        intro j inNew
        have below := ih (Nat.zero_le _) inNew
        have head (table : List (List Nat)) : table.headD [] = table.getD 0 [] := by
          cases table <;> rfl
        rw [head]
        simpa [lcsAt] using below
      simpa [lcsAt, lcsTable] using lcsRow_eq filled j inNew

/-! ## What the walk keeps -/

theorem writeAt_length (parts : List (Option PartChange)) (value : PartChange) :
    writeAt parts parts.length value = parts ++ [some value] := by
  simp [writeAt]

/-- A gap of new parts at the end of what is labelled: as many are edited as parts of the previous
version stand opposite, the others are new. -/
theorem labelGap_range (gapOld : List Nat) (position many : Nat)
    (parts : List (Option PartChange)) :
    labelGap gapOld position (List.range' parts.length many) parts =
      parts ++ List.replicate (min many (gapOld.length - position)) (some .edited) ++
        List.replicate (many - (gapOld.length - position)) (some .new) := by
  induction many generalizing position parts with
  | zero => simp [labelGap]
  | succ many ih =>
    rw [List.range'_succ, labelGap, writeAt_length]
    have later := ih (position + 1)
      (parts ++ [some (if position < gapOld.length then .edited else .new)])
    rw [List.length_append, List.length_singleton] at later
    rw [later]
    by_cases opposite : position < gapOld.length
    · have fewer : min (many + 1) (gapOld.length - position) =
          min many (gapOld.length - (position + 1)) + 1 := by omega
      have others : many + 1 - (gapOld.length - position) =
          many - (gapOld.length - (position + 1)) := by omega
      rw [fewer, others, if_pos opposite, List.replicate_succ]
      simp
    · have none : gapOld.length - position = 0 := by omega
      have noneLater : gapOld.length - (position + 1) = 0 := by omega
      rw [none, noneLater, if_neg opposite]
      simp [List.replicate_succ]

/-- How many parts have a label. -/
def labelled (parts : List (Option PartChange)) (change : PartChange) : Nat :=
  parts.count (some change)

/-- The walk after some turns, with the unchanged pairs it has passed. -/
structure Aligned (previous next : List JsString) (pairs : List (Nat × Nat)) (w : Walk) :
    Prop where
  inOld : w.i ≤ previous.length
  inNew : w.j ≤ next.length
  gapNew : w.gapNew = List.range' w.parts.length w.gapNew.length
  passedNew : w.parts.length + w.gapNew.length = w.j
  filled : ∀ part ∈ w.parts, part ≠ none
  same : ∀ j, w.parts[j]? = some (some .same) ↔ j ∈ pairs.map Prod.snd
  counted : labelled w.parts .same = pairs.length
  passedOld : pairs.length + labelled w.parts .edited + w.removed.length + w.gapOld.length = w.i
  equal : ∀ pair ∈ pairs, ∃ part, previous[pair.1]? = some part ∧ next[pair.2]? = some part
  increasing : pairs.Pairwise fun earlier later => earlier.1 < later.1 ∧ earlier.2 < later.2
  passed : ∀ pair ∈ pairs, pair.1 < w.i ∧ pair.2 < w.parts.length
  unmatched : (w.removed ++ w.gapOld).Pairwise (· < ·)
  gone : ∀ i ∈ w.removed ++ w.gapOld, i < w.i ∧ i ∉ pairs.map Prod.fst
  remaining : pairs.length + commonLength (previous.drop w.i) (next.drop w.j) =
    commonLength previous next

variable {previous next : List JsString} {pairs : List (Nat × Nat)} {w : Walk}

theorem aligned_start : Aligned previous next [] Walk.start := by
  constructor <;> simp [Walk.start, labelled]

theorem closeGap_parts (aligned : Aligned previous next pairs w) :
    (closeGap w).parts = w.parts ++
      List.replicate (min w.gapNew.length w.gapOld.length) (some .edited) ++
        List.replicate (w.gapNew.length - w.gapOld.length) (some .new) := by
  have labels := labelGap_range w.gapOld 0 w.gapNew.length w.parts
  rw [← aligned.gapNew] at labels
  exact labels

theorem closeGap_parts_length (aligned : Aligned previous next pairs w) :
    (closeGap w).parts.length = w.j := by
  have passedNew := aligned.passedNew
  rw [closeGap_parts aligned]
  simp only [List.length_append, List.length_replicate]
  omega

theorem closeGap_aligned (aligned : Aligned previous next pairs w) :
    Aligned previous next pairs (closeGap w) := by
  have parts := closeGap_parts aligned
  have length := closeGap_parts_length aligned
  constructor
  case inOld => exact aligned.inOld
  case inNew => exact aligned.inNew
  case gapNew => simp [closeGap]
  case passedNew => simpa [closeGap] using length
  case filled =>
    intro part inside
    rw [parts] at inside
    simp only [List.mem_append, List.mem_replicate] at inside
    obtain (inside | ⟨-, rfl⟩) | ⟨-, rfl⟩ := inside
    · exact aligned.filled part inside
    · simp
    · simp
  case same =>
    intro j
    rw [← aligned.same j, parts, List.append_assoc]
    by_cases old : j < w.parts.length
    · rw [List.getElem?_append_left old]
    · have beyond : w.parts[j]? = none := List.getElem?_eq_none (by omega)
      rw [List.getElem?_append_right (by omega), beyond]
      simp [List.getElem?_append, List.getElem?_replicate]
      grind
  case counted =>
    rw [labelled, parts]
    simpa [List.count_append, List.count_replicate, labelled] using aligned.counted
  case passedOld =>
    have passedOld := aligned.passedOld
    rw [labelled, parts]
    simp only [labelled] at passedOld
    simp [closeGap, List.count_append, List.count_replicate]
    omega
  case equal => exact aligned.equal
  case increasing => exact aligned.increasing
  case passed =>
    intro pair inside
    obtain ⟨inOld, inNew⟩ := aligned.passed pair inside
    have passedNew := aligned.passedNew
    exact ⟨inOld, by omega⟩
  case unmatched =>
    have kept : (w.removed ++ w.gapOld.drop w.gapNew.length).Sublist (w.removed ++ w.gapOld) :=
      (List.drop_sublist _ _).append_left _
    simpa [closeGap] using aligned.unmatched.sublist kept
  case gone =>
    intro i inside
    have inside : i ∈ w.removed ++ w.gapOld.drop w.gapNew.length := by
      simpa [closeGap] using inside
    have kept : (w.removed ++ w.gapOld.drop w.gapNew.length).Sublist (w.removed ++ w.gapOld) :=
      (List.drop_sublist _ _).append_left _
    exact aligned.gone i (kept.subset inside)
  case remaining => exact aligned.remaining

theorem drop_eq_cons {parts : List JsString} {i : Nat} (inside : i < parts.length) :
    ∃ part, parts[i]? = some part ∧ parts.drop i = part :: parts.drop (i + 1) :=
  ⟨parts[i], List.getElem?_eq_getElem inside, List.drop_eq_getElem_cons inside⟩

theorem same_aligned (aligned : Aligned previous next pairs w) (inOld : w.i < previous.length)
    (inNew : w.j < next.length) (equal : previous[w.i]? = next[w.j]?) :
    Aligned previous next (pairs ++ [(w.i, w.j)])
      { closeGap w with
        parts := writeAt (closeGap w).parts w.j .same, i := w.i + 1, j := w.j + 1 } := by
  have closed := closeGap_aligned aligned
  have length := closeGap_parts_length aligned
  have written : writeAt (closeGap w).parts w.j .same = (closeGap w).parts ++ [some .same] := by
    rw [← length]
    exact writeAt_length _ _
  have beside : w.parts.length ≤ w.j := by
    have passedNew := aligned.passedNew
    omega
  obtain ⟨part, atOld, restOld⟩ := drop_eq_cons inOld
  obtain ⟨other, atNew, restNew⟩ := drop_eq_cons inNew
  obtain rfl : part = other := by
    rw [atOld, atNew] at equal
    exact Option.some.inj equal
  rw [written]
  constructor
  case inOld => exact inOld
  case inNew => exact inNew
  case gapNew => simp [closeGap]
  case passedNew =>
    rw [List.length_append, List.length_singleton, length]
    rfl
  case filled =>
    intro part inside
    obtain inside | inside := List.mem_append.mp inside
    · exact closed.filled part inside
    · simp [List.mem_singleton.mp inside]
  case same =>
    intro j
    have earlier := closed.same j
    by_cases last : j = w.j
    · subst last
      rw [← length]
      simp
    · rw [List.map_append, List.mem_append, ← earlier]
      by_cases before : j < w.j
      · rw [List.getElem?_append_left (by omega)]
        simp [last]
      · have beyond : (closeGap w).parts[j]? = none := List.getElem?_eq_none (by omega)
        have outside : ((closeGap w).parts ++ [some PartChange.same])[j]? = none := by
          apply List.getElem?_eq_none
          rw [List.length_append, List.length_singleton]
          omega
        simp [beyond, outside, last]
  case counted =>
    have counted := closed.counted
    rw [labelled] at counted ⊢
    simp [counted]
  case passedOld =>
    have passedOld := closed.passedOld
    have stays : (closeGap w).i = w.i := rfl
    have unedited : [some PartChange.same].count (some .edited) = 0 := rfl
    rw [labelled] at passedOld ⊢
    rw [List.length_append, List.length_singleton, List.count_append, unedited]
    dsimp only
    omega
  case equal =>
    intro pair inside
    obtain inside | inside := List.mem_append.mp inside
    · exact aligned.equal pair inside
    · obtain rfl := List.mem_singleton.mp inside
      exact ⟨part, atOld, atNew⟩
  case increasing =>
    rw [List.pairwise_append]
    refine ⟨aligned.increasing, List.pairwise_singleton _ _, ?_⟩
    intro earlier inside later last
    obtain rfl := List.mem_singleton.mp last
    obtain ⟨old, new⟩ := aligned.passed earlier inside
    exact ⟨old, by omega⟩
  case passed =>
    intro pair inside
    rw [List.length_append, List.length_singleton, length]
    obtain inside | inside := List.mem_append.mp inside
    · obtain ⟨old, new⟩ := aligned.passed pair inside
      exact ⟨Nat.lt_succ_of_lt old, by omega⟩
    · obtain rfl := List.mem_singleton.mp inside
      exact ⟨Nat.lt_succ_self _, Nat.lt_succ_self _⟩
  case unmatched => exact closed.unmatched
  case gone =>
    intro i inside
    obtain ⟨before, alone⟩ := closed.gone i inside
    have before : i < w.i := before
    refine ⟨Nat.lt_succ_of_lt before, ?_⟩
    rw [List.map_append, List.mem_append, not_or]
    refine ⟨alone, ?_⟩
    simp only [List.map_cons, List.map_nil, List.mem_singleton]
    omega
  case remaining =>
    have remaining := aligned.remaining
    rw [restOld, restNew, commonLength_cons_self] at remaining
    rw [List.length_append, List.length_singleton]
    dsimp only
    omega

theorem gapNew_aligned (aligned : Aligned previous next pairs w) (inNew : w.j < next.length)
    (keeps : commonLength (previous.drop w.i) (next.drop (w.j + 1)) =
      commonLength (previous.drop w.i) (next.drop w.j)) :
    Aligned previous next pairs { w with gapNew := w.gapNew ++ [w.j], j := w.j + 1 } := by
  have passedNew := aligned.passedNew
  refine { aligned with inNew := inNew, gapNew := ?_, passedNew := ?_, remaining := ?_ }
  · rw [List.length_append, List.length_singleton, List.range'_concat, ← aligned.gapNew, Nat.one_mul,
      passedNew]
  · simp only [List.length_append, List.length_singleton]
    omega
  · dsimp only
    rw [keeps]
    exact aligned.remaining

theorem gapOld_aligned (aligned : Aligned previous next pairs w) (inOld : w.i < previous.length)
    (keeps : commonLength (previous.drop (w.i + 1)) (next.drop w.j) =
      commonLength (previous.drop w.i) (next.drop w.j)) :
    Aligned previous next pairs { w with gapOld := w.gapOld ++ [w.i], i := w.i + 1 } := by
  refine { aligned with
    inOld := inOld, passedOld := ?_, passed := ?_, unmatched := ?_, gone := ?_, remaining := ?_ }
  · have passedOld := aligned.passedOld
    simp only [List.length_append, List.length_singleton]
    omega
  · intro pair inside
    obtain ⟨old, new⟩ := aligned.passed pair inside
    exact ⟨Nat.lt_succ_of_lt old, new⟩
  · dsimp only
    rw [← List.append_assoc, List.pairwise_append]
    refine ⟨aligned.unmatched, List.pairwise_singleton _ _, ?_⟩
    intro earlier inside later last
    obtain rfl := List.mem_singleton.mp last
    exact (aligned.gone earlier inside).1
  · intro i inside
    rw [← List.append_assoc] at inside
    obtain inside | inside := List.mem_append.mp inside
    · obtain ⟨before, alone⟩ := aligned.gone i inside
      exact ⟨Nat.lt_succ_of_lt before, alone⟩
    · obtain rfl := List.mem_singleton.mp inside
      refine ⟨Nat.lt_succ_self _, ?_⟩
      intro matched
      obtain ⟨pair, passed, same⟩ := List.mem_map.mp matched
      have before := (aligned.passed pair passed).1
      omega
  · dsimp only
    rw [keeps]
    exact aligned.remaining

theorem walkStep_aligned (aligned : Aligned previous next pairs w)
    (going : w.i < previous.length ∨ w.j < next.length) :
    ∃ pairs, Aligned previous next pairs
      (walkStep previous next (lcsTable previous next) w) := by
  unfold walkStep
  split
  · rename_i equal
    obtain ⟨inOld, inNew, equal⟩ := equal
    exact ⟨_, same_aligned aligned inOld inNew equal⟩
  · rename_i different
    split
    · rename_i ahead
      obtain ⟨inNew, side⟩ := ahead
      refine ⟨pairs, gapNew_aligned aligned inNew ?_⟩
      obtain done | longer := side
      · simp [List.drop_eq_nil_of_le done]
      · by_cases inOld : w.i < previous.length
        · rw [lcsAt_eq (i := w.i + 1) inOld aligned.inNew,
            lcsAt_eq (j := w.j + 1) aligned.inOld inNew] at longer
          obtain ⟨part, atOld, restOld⟩ := drop_eq_cons inOld
          obtain ⟨other, atNew, restNew⟩ := drop_eq_cons inNew
          have unequal : part ≠ other := by
            rintro rfl
            exact different ⟨inOld, inNew, atOld.trans atNew.symm⟩
          rw [restOld, restNew, commonLength_cons_of_ne unequal, ← restOld, ← restNew]
          omega
        · simp [List.drop_eq_nil_of_le (Nat.le_of_not_lt inOld)]
    · rename_i behind
      have inOld : w.i < previous.length := by
        by_contra done
        obtain inOld | inNew := going
        · exact done inOld
        · exact behind ⟨inNew, Or.inl (Nat.le_of_not_lt done)⟩
      refine ⟨pairs, gapOld_aligned aligned inOld ?_⟩
      by_cases inNew : w.j < next.length
      · have shorter : lcsAt (lcsTable previous next) w.i (w.j + 1) <
            lcsAt (lcsTable previous next) (w.i + 1) w.j := by
          by_contra longer
          exact behind ⟨inNew, Or.inr (Nat.le_of_not_lt longer)⟩
        rw [lcsAt_eq (i := w.i + 1) inOld aligned.inNew,
          lcsAt_eq (j := w.j + 1) aligned.inOld inNew] at shorter
        obtain ⟨part, atOld, restOld⟩ := drop_eq_cons inOld
        obtain ⟨other, atNew, restNew⟩ := drop_eq_cons inNew
        have unequal : part ≠ other := by
          rintro rfl
          exact different ⟨inOld, inNew, atOld.trans atNew.symm⟩
        rw [restOld, restNew, commonLength_cons_of_ne unequal, ← restOld, ← restNew]
        omega
      · simp [List.drop_eq_nil_of_le (Nat.le_of_not_lt inNew)]

theorem walkStep_passes (lcs : List (List Nat)) (w : Walk) :
    w.i + w.j + 1 ≤ (walkStep previous next lcs w).i + (walkStep previous next lcs w).j := by
  unfold walkStep
  split
  · dsimp only
    omega
  · split
    · dsimp only
      omega
    · dsimp only
      omega

theorem walkLoop_aligned (turns : Nat) (aligned : Aligned previous next pairs w)
    (enough : previous.length + next.length ≤ w.i + w.j + turns) :
    ∃ pairs, let done := walkLoop previous next (lcsTable previous next) turns w
      Aligned previous next pairs done ∧ done.i = previous.length ∧ done.j = next.length := by
  induction turns generalizing pairs w with
  | zero =>
    have inOld := aligned.inOld
    have inNew := aligned.inNew
    exact ⟨pairs, aligned, by simp only [walkLoop]; omega, by simp only [walkLoop]; omega⟩
  | succ turns ih =>
    rw [walkLoop]
    by_cases going : w.i < previous.length ∨ w.j < next.length
    · rw [if_pos going]
      obtain ⟨pairs, stepped⟩ := walkStep_aligned aligned going
      have passes := @walkStep_passes previous next
        (lcsTable previous next) w
      exact ih stepped (by omega)
    · rw [if_neg going]
      have inOld := aligned.inOld
      have inNew := aligned.inNew
      exact ⟨pairs, aligned, by omega, by omega⟩

theorem labelled_total {parts : List (Option PartChange)} (filled : ∀ part ∈ parts, part ≠ none) :
    labelled parts .same + labelled parts .edited + labelled parts .new = parts.length := by
  induction parts with
  | nil => rfl
  | cons part rest ih =>
    have total := ih fun part inside => filled part (List.mem_cons_of_mem _ inside)
    simp only [labelled] at total
    simp only [labelled, List.count_cons, List.length_cons]
    cases part with
    | none => exact absurd rfl (filled none List.mem_cons_self)
    | some change => cases change <;> simp <;> omega

/-- The comparison is a minimal alignment: every part of the new version has one label, the
unchanged pairs match equal parts in order and are as many as a longest common subsequence has, and
the labels and the removed parts count both versions. -/
theorem comparePostParts_minimal (previous next : List JsString) :
    let changes := comparePostParts previous next
    (changes.parts.length = next.length ∧ ∀ part ∈ changes.parts, part ≠ none) ∧
    (∃ pairs : List (Nat × Nat),
      (pairs.Pairwise fun earlier later => earlier.1 < later.1 ∧ earlier.2 < later.2) ∧
      (∀ pair ∈ pairs, ∃ part, previous[pair.1]? = some part ∧ next[pair.2]? = some part) ∧
      (∀ j, changes.parts[j]? = some (some .same) ↔ j ∈ pairs.map Prod.snd) ∧
      (∀ i ∈ changes.removed, i < previous.length ∧ i ∉ pairs.map Prod.fst) ∧
      pairs.length = labelled changes.parts .same ∧
      IsGreatest {n | ∃ common : List JsString,
        common.Sublist previous ∧ common.Sublist next ∧ common.length = n} pairs.length) ∧
    changes.removed.Pairwise (· < ·) ∧
    labelled changes.parts .same + labelled changes.parts .edited + labelled changes.parts .new =
      next.length ∧
    labelled changes.parts .same + labelled changes.parts .edited + changes.removed.length =
      previous.length := by
  obtain ⟨pairs, aligned, doneOld, doneNew⟩ :=
    walkLoop_aligned (previous.length + next.length) (@aligned_start previous next) (Nat.le_add_left _ _)
  have closed := closeGap_aligned aligned
  have length := closeGap_parts_length aligned
  have total := labelled_total closed.filled
  have greatest := closed.remaining
  have counted := closed.counted
  have passedOld := closed.passedOld
  dsimp only [comparePostParts]
  set done := walkLoop previous next (lcsTable previous next) (previous.length + next.length)
    Walk.start
  have stays : (closeGap done).i = previous.length := doneOld
  have noGap : (closeGap done).gapOld = [] := rfl
  rw [noGap, List.length_nil] at passedOld
  rw [stays, List.drop_length, commonLength_nil_left, Nat.add_zero] at greatest
  refine ⟨⟨by omega, closed.filled⟩, ⟨pairs, closed.increasing, closed.equal, closed.same, ?_,
    counted.symm, ?_⟩, ?_, by omega, by omega⟩
  · intro i inside
    obtain ⟨before, alone⟩ := closed.gone i (List.mem_append_left _ inside)
    exact ⟨by omega, alone⟩
  · rw [greatest]
    exact isGreatest_commonLength previous next
  · exact (List.pairwise_append.mp closed.unmatched).1

end Takode.DraftPosts
