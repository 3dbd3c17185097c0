import Takode.HistorySync.Entries
import Takode.Lib.JsValue

/-!
# Prefix hashes

The hash of a history and the hash of a prefix of it, given by a number of rendered entries.
-/

namespace Takode.HistorySync

open JsString JsonText

/-! ## Hashes -/

/-- A JSON text as a string. -/
def ofChars (text : List Char) : JsString := text.flatMap units

/-- The texts with commas between them. -/
def joinComma (texts : List JsString) : JsString := (texts.intersperse (js ",")).flatten

mutual

/-- `stableStringify`; `localeCompare` depends on the locale. -/
def stableStringify (localeCompare : JsString → JsString → Ordering) : Value → JsString
  | .null => js "null"
  | .boolean value => if value then js "true" else js "false"
  | .number value => ofChars value.text
  | .string value => ofChars (quote value)
  | .array items => js "[" ++ joinComma (itemTexts localeCompare items) ++ js "]"
  | .object members =>
    let sorted := (memberTexts localeCompare members).mergeSort fun left right =>
      localeCompare left.1 right.1 ≠ .gt
    js "\x7b" ++ joinComma (sorted.map fun (key, text) => ofChars (quote key) ++ js ":" ++ text) ++ js "\x7d"

def itemTexts (localeCompare : JsString → JsString → Ordering) : List Value → List JsString
  | [] => []
  | item :: items => stableStringify localeCompare item :: itemTexts localeCompare items

def memberTexts (localeCompare : JsString → JsString → Ordering) :
    List (JsString × Value) → List (JsString × JsString)
  | [] => []
  | (key, value) :: members => (key, stableStringify localeCompare value) :: memberTexts localeCompare members

end

/-- `toString(16).padStart(8, "0")`. -/
def hex8 (hash : UInt32) : JsString :=
  [7, 6, 5, 4, 3, 2, 1, 0].flatMap fun i => units (hexDigit (hash.toNat / 16 ^ i % 16))

def mixChar (hash : UInt32) (c : UInt16) : UInt32 := (hash ^^^ c.toUInt32) * 0x01000193

def hashString (input : JsString) : JsString := hex8 (input.foldl mixChar 0x811c9dc5)

def mixHash (state : UInt32) (token : JsString) : UInt32 :=
  token.foldl mixChar ((state ^^^ 0x1f) * 0x01000193)

def foldFingerprints (fingerprints : List JsString) : JsString := hex8 (fingerprints.foldl mixHash 0x811c9dc5)

section

variable (localeCompare : JsString → JsString → Ordering)

def fingerprintComparableEntry (entry : ComparableHistoryEntry) : JsString :=
  if entry.id ≠ [] && !entry.mutable then js "id:" ++ entry.id
  else hashString (stableStringify localeCompare entry.toValue)

structure SyncHash where
  hash : JsString
  renderedCount : Nat
deriving DecidableEq

variable {Rest : Type}

def computeHistoryMessagesSyncHash (historyMessages : List (Option (BrowserIncomingMessage Rest)))
    (startIndex : ℤ) (options : HistorySyncHashOptions Rest) : SyncHash :=
  let (renderedCount, fingerprints) := forEachComparableHistoryEntry
    (fun fingerprints entry _ _ => fingerprints ++ [fingerprintComparableEntry localeCompare entry])
    options startIndex historyMessages 0 0 []
  { hash := foldFingerprints fingerprints, renderedCount }

/-- A number as a count: it may be negative, fractional, infinite or not a number. -/
inductive Count
  | finite (value : ℚ)
  | infinity
  | negativeInfinity
  | nan
deriving DecidableEq

namespace Count

/-- `Math.max(0, Math.floor(count))`. -/
def normalized : Count → Count
  | .finite value => .finite (max 0 ⌊value⌋ : ℤ)
  | .infinity => .infinity
  | .negativeInfinity => .finite 0
  | .nan => .nan

/-- `n < count`. -/
def above (n : Nat) : Count → Bool
  | .finite value => n < value
  | .infinity => true
  | .negativeInfinity => false
  | .nan => false

/-- `Math.min(count, n)`. -/
def atMost (n : Nat) : Count → Count
  | .finite value => .finite (min value n)
  | .infinity => .finite n
  | .negativeInfinity => .negativeInfinity
  | .nan => .nan

end Count

structure PrefixSyncHash where
  hash : JsString
  renderedCount : Count
  totalRenderedCount : Nat
  sourceCount : Nat
deriving DecidableEq

def computeHistoryPrefixSyncHash (historyMessages : List (Option (BrowserIncomingMessage Rest)))
    (renderedCount : Count) (startIndex : ℤ) (options : HistorySyncHashOptions Rest) : PrefixSyncHash :=
  let normalizedRenderedCount := renderedCount.normalized
  let (totalRenderedCount, fingerprints, sourceCount) := forEachComparableHistoryEntry
    (fun (fingerprints, sourceCount) entry renderedIndex sourceIndex =>
      if normalizedRenderedCount.above renderedIndex then
        (fingerprints ++ [fingerprintComparableEntry localeCompare entry], sourceIndex + 1)
      else (fingerprints, sourceCount))
    options startIndex historyMessages 0 0 ([], 0)
  { hash := foldFingerprints fingerprints
    renderedCount := normalizedRenderedCount.atMost totalRenderedCount
    totalRenderedCount
    sourceCount }

end

/-! ## Rendered entries -/

section

variable {Rest σ : Type} (options : HistorySyncHashOptions Rest) (startIndex : ℤ)

/-- The entry of a message at its place. -/
def entryAt (i : Nat) (message : Option (BrowserIncomingMessage Rest)) : Option ComparableHistoryEntry :=
  (message.filter fun message => options.includeMessage.all (· message (startIndex + i))).bind fun message =>
    comparableEntry options.suppressRootThinkingOnlyAssistant (startIndex + i) message.content

/-- The rendered entries from a place on, with the indices of their messages. -/
def rendered : List (Option (BrowserIncomingMessage Rest)) → Nat → List (ComparableHistoryEntry × Nat)
  | [], _ => []
  | message :: rest, i => ((entryAt options startIndex i message).map (·, i)).toList ++ rendered rest (i + 1)

theorem forEach_eq (visitor : σ → ComparableHistoryEntry → Nat → Nat → σ)
    (history : List (Option (BrowserIncomingMessage Rest))) (i renderedIndex : Nat) (s : σ) :
    forEachComparableHistoryEntry visitor options startIndex history i renderedIndex s =
      (renderedIndex + (rendered options startIndex history i).length,
        ((rendered options startIndex history i).zipIdx renderedIndex).foldl
          (fun s visit => visitor s visit.1.1 visit.2 visit.1.2) s) := by
  induction history generalizing i renderedIndex s with
  | nil => rfl
  | cons message rest ih =>
    rw [forEachComparableHistoryEntry, rendered]
    have entry : (message.filter fun message => options.includeMessage.all (· message (startIndex + i))).bind
        (fun message => comparableEntry options.suppressRootThinkingOnlyAssistant (startIndex + i) message.content) =
        entryAt options startIndex i message := rfl
    rw [entry]
    cases entryAt options startIndex i message with
    | none => exact ih (i + 1) renderedIndex s
    | some entry =>
      simp only [Option.map_some, Option.toList_some, List.singleton_append, List.length_cons, List.zipIdx_cons,
        List.foldl_cons]
      rw [ih, Nat.add_assoc, Nat.add_comm 1]

theorem rendered_append (history more : List (Option (BrowserIncomingMessage Rest))) (i : Nat) :
    rendered options startIndex (history ++ more) i =
      rendered options startIndex history i ++ rendered options startIndex more (i + history.length) := by
  induction history generalizing i with
  | nil => rfl
  | cons message rest ih =>
    rw [List.cons_append, rendered, ih, rendered, List.append_assoc, List.length_cons]
    rw [Nat.add_assoc, Nat.add_comm 1]

/-- The end of the last message of visits, or an earlier place. -/
def sourceEnd {α : Type} (visits : List (α × Nat)) (i : Nat) : Nat := visits.foldl (fun _ visit => visit.2 + 1) i

theorem sourceEnd_of_ne_nil {α : Type} {visits : List (α × Nat)} (some : visits ≠ []) (i j : Nat) :
    sourceEnd visits i = sourceEnd visits j := by
  cases visits with
  | nil => exact absurd rfl some
  | cons visit rest => rfl

theorem rendered_take_sourceEnd {history : List (Option (BrowserIncomingMessage Rest))} {i m : Nat}
    (enough : m ≤ (rendered options startIndex history i).length) :
    ∃ n, sourceEnd ((rendered options startIndex history i).take m) i = i + n ∧ n ≤ history.length ∧
      rendered options startIndex (history.take n) i = (rendered options startIndex history i).take m ∧
      ∀ k < n, (rendered options startIndex (history.take k) i).length < m := by
  induction history generalizing i m with
  | nil =>
    have zero : m = 0 := Nat.le_zero.mp enough
    subst zero
    exact ⟨0, rfl, Nat.le_refl 0, rfl, nofun⟩
  | cons message rest ih =>
    cases m with
    | zero => exact ⟨0, rfl, Nat.zero_le _, rfl, nofun⟩
    | succ m =>
      rw [rendered] at enough ⊢
      cases entry : entryAt options startIndex i message with
      | none =>
        rw [entry] at enough
        obtain ⟨n, ends, inside, same, fewer⟩ := ih (i := i + 1) (m := m + 1) enough
        have nonempty : (rendered options startIndex rest (i + 1)).take (m + 1) ≠ [] := by
          rw [← List.length_pos_iff, List.length_take]
          exact Nat.lt_min.mpr ⟨Nat.succ_pos m, Nat.lt_of_lt_of_le (Nat.succ_pos m) enough⟩
        refine ⟨n + 1, ?_, Nat.succ_le_succ inside, ?_, ?_⟩
        · show sourceEnd ((rendered options startIndex rest (i + 1)).take (m + 1)) i = _
          rw [sourceEnd_of_ne_nil nonempty i (i + 1), ends]
          omega
        · rw [List.take_succ_cons, rendered, entry]
          exact same
        · intro k less
          cases k with
          | zero => exact Nat.succ_pos m
          | succ k =>
            rw [List.take_succ_cons, rendered, entry]
            exact fewer k (Nat.lt_of_succ_lt_succ less)
      | some entry' =>
        rw [entry] at enough
        obtain ⟨n, ends, inside, same, fewer⟩ := ih (i := i + 1) (m := m) (Nat.le_of_succ_le_succ enough)
        refine ⟨n + 1, ?_, Nat.succ_le_succ inside, ?_, ?_⟩
        · show sourceEnd ((rendered options startIndex rest (i + 1)).take m) (i + 1) = _
          rw [ends]
          omega
        · rw [List.take_succ_cons, rendered, entry, same]
          rfl
        · intro k less
          cases k with
          | zero => exact Nat.succ_pos m
          | succ k =>
            rw [List.take_succ_cons, rendered, entry]
            exact Nat.succ_lt_succ (fewer k (Nat.lt_of_succ_lt_succ less))

end

/-! ## Counts -/

theorem Count.exists_limit {count : Count} (number : count ≠ .nan) (total : Nat) :
    ∃ m ≤ total, (∀ k < total, count.normalized.above k = decide (k < m)) ∧
      count.normalized.atMost total = .finite m := by
  cases count with
  | finite value =>
    have whole : ((max 0 ⌊value⌋ : ℤ) : ℚ) = ((max 0 ⌊value⌋).toNat : ℚ) := by
      have positive : ((max 0 ⌊value⌋).toNat : ℤ) = max 0 ⌊value⌋ := Int.toNat_of_nonneg (le_max_left _ _)
      exact_mod_cast positive.symm
    refine ⟨min (max 0 ⌊value⌋).toNat total, Nat.min_le_right _ _, ?_, ?_⟩
    · intro k inside
      rw [normalized, whole, above]
      simp only [Nat.cast_lt, Nat.lt_min, inside, and_true]
    · rw [normalized, whole, atMost, Nat.cast_min]
  | infinity => exact ⟨total, Nat.le_refl _, fun k inside => by simp [normalized, above, inside], rfl⟩
  | negativeInfinity =>
    refine ⟨0, Nat.zero_le _, fun k _ => ?_, ?_⟩
    · simp [normalized, above]
    · simp [normalized, atMost]
  | nan => exact absurd rfl number


section

variable {Rest : Type} (localeCompare : JsString → JsString → Ordering) (startIndex : ℤ)
  (options : HistorySyncHashOptions Rest)

theorem computeHistoryMessagesSyncHash_eq (history : List (Option (BrowserIncomingMessage Rest))) :
    computeHistoryMessagesSyncHash localeCompare history startIndex options =
      { hash := foldFingerprints ((rendered options startIndex history 0).map fun visit =>
          fingerprintComparableEntry localeCompare visit.1)
        renderedCount := (rendered options startIndex history 0).length } := by
  have pushes : ∀ (visits : List ((ComparableHistoryEntry × Nat) × Nat)) (fingerprints : List JsString),
      visits.foldl (fun s visit => s ++ [fingerprintComparableEntry localeCompare visit.1.1]) fingerprints =
        fingerprints ++ visits.map fun visit => fingerprintComparableEntry localeCompare visit.1.1 := by
    intro visits
    induction visits with
    | nil => simp
    | cons visit rest ih => simp [ih]
  rw [computeHistoryMessagesSyncHash, forEach_eq]
  simp only [pushes, List.nil_append, Nat.zero_add]
  have fingerprints := List.map_map (f := Prod.fst) (l := (rendered options startIndex history 0).zipIdx)
    (g := fun visit : ComparableHistoryEntry × Nat => fingerprintComparableEntry localeCompare visit.1)
  rw [List.zipIdx_map_fst] at fingerprints
  rw [fingerprints]
  rfl

theorem foldl_above {limit : Count} {m : Nat} (visits : List (ComparableHistoryEntry × Nat)) (r : Nat)
    (fingerprints : List JsString) (sourceCount : Nat)
    (above : ∀ k < r + visits.length, limit.above k = decide (k < m)) :
    (visits.zipIdx r).foldl (fun s visit =>
        if limit.above visit.2 then
          (s.1 ++ [fingerprintComparableEntry localeCompare visit.1.1], visit.1.2 + 1)
        else (s.1, s.2)) (fingerprints, sourceCount) =
      (fingerprints ++ (visits.take (m - r)).map (fun visit => fingerprintComparableEntry localeCompare visit.1),
        sourceEnd (visits.take (m - r)) sourceCount) := by
  induction visits generalizing r fingerprints sourceCount with
  | nil => simp [sourceEnd]
  | cons visit rest ih =>
    rw [List.length_cons] at above
    have here := above r (by omega)
    have later : ∀ k < r + 1 + rest.length, limit.above k = decide (k < m) :=
      fun k inside => above k (by omega)
    rw [List.zipIdx_cons, List.foldl_cons]
    by_cases before : r < m
    · have more : m - r = (m - (r + 1)) + 1 := by omega
      simp only [here, before, decide_true, if_true]
      rw [ih (r + 1) _ _ later, more, List.take_succ_cons, List.map_cons, List.append_assoc, List.singleton_append]
      rfl
    · have none : m - r = 0 := by omega
      have noMore : m - (r + 1) = 0 := by omega
      simp only [here, before, decide_false, Bool.false_eq_true, if_false]
      rw [ih (r + 1) _ _ later, none, noMore]
      rfl

theorem computeHistoryPrefixSyncHash_eq {history : List (Option (BrowserIncomingMessage Rest))} {requested : Count}
    {m : Nat} (limit : ∀ k < (rendered options startIndex history 0).length,
      requested.normalized.above k = decide (k < m)) :
    computeHistoryPrefixSyncHash localeCompare history requested startIndex options =
      { hash := foldFingerprints (((rendered options startIndex history 0).take m).map fun visit =>
          fingerprintComparableEntry localeCompare visit.1)
        renderedCount := requested.normalized.atMost (rendered options startIndex history 0).length
        totalRenderedCount := (rendered options startIndex history 0).length
        sourceCount := sourceEnd ((rendered options startIndex history 0).take m) 0 } := by
  have above : ∀ k < 0 + (rendered options startIndex history 0).length,
      requested.normalized.above k = decide (k < m) := by
    intro k inside
    exact limit k (by omega)
  have visited := foldl_above localeCompare (rendered options startIndex history 0) 0 [] 0 above
  rw [computeHistoryPrefixSyncHash, forEach_eq]
  simp only [visited, List.nil_append, Nat.sub_zero, Nat.zero_add]

/-- The hash of a prefix is the hash of the messages up to its end, which are as few as render that many
entries; and it does not depend on what is appended to the history. -/
theorem prefixHash_agrees (history : List (Option (BrowserIncomingMessage Rest))) (requested : Count)
    (number : requested ≠ .nan) :
    let hashed := fun messages => computeHistoryMessagesSyncHash localeCompare messages startIndex options
    let cut := computeHistoryPrefixSyncHash localeCompare history requested startIndex options
    cut.sourceCount ≤ history.length ∧
    cut.hash = (hashed (history.take cut.sourceCount)).hash ∧
    cut.renderedCount = .finite (hashed (history.take cut.sourceCount)).renderedCount ∧
    cut.renderedCount = requested.normalized.atMost (hashed history).renderedCount ∧
    (∀ n < cut.sourceCount,
      (hashed (history.take n)).renderedCount < (hashed (history.take cut.sourceCount)).renderedCount) ∧
    cut.totalRenderedCount = (hashed history).renderedCount ∧
    ∀ more, (computeHistoryPrefixSyncHash localeCompare (history ++ more)
      (.finite (hashed history).renderedCount) startIndex options).hash = (hashed history).hash := by
  obtain ⟨m, inside, above, limit⟩ := Count.exists_limit number (rendered options startIndex history 0).length
  obtain ⟨n, ends, short, same, fewer⟩ := rendered_take_sourceEnd options startIndex (i := 0) inside
  rw [Nat.zero_add] at ends
  have length : ((rendered options startIndex history 0).take m).length = m := by
    rw [List.length_take, Nat.min_eq_left inside]
  simp only [computeHistoryPrefixSyncHash_eq localeCompare startIndex options above,
    computeHistoryMessagesSyncHash_eq, ends, same, length]
  refine ⟨short, trivial, limit, trivial, fewer, trivial, fun more => ?_⟩
  have whole : ∀ k < (rendered options startIndex (history ++ more) 0).length,
      (Count.finite ((rendered options startIndex history 0).length : ℚ)).normalized.above k =
        decide (k < (rendered options startIndex history 0).length) := by
    intro k _
    simp [Count.normalized, Count.above]
  rw [computeHistoryPrefixSyncHash_eq localeCompare startIndex options whole, rendered_append, List.take_left]

end

/-- A row that a Codex session does not show, and two that it shows. -/
def codexRows : List (Option (BrowserIncomingMessage Unit)) :=
  [some ⟨.assistant (js "root-thinking") (js "provider-model") [⟨[(js "type", .string (js "thinking"))]⟩] none none
      none none none, ()⟩,
    some ⟨.user_message (some (js "u1")) (js "cached visible row") none none none (.ofNat 1000), ()⟩,
    some ⟨.user_message (some (js "u2")) (js "new visible row") none none none (.ofNat 2000), ()⟩]

theorem codexRows_prefixHash :
    let cut := computeHistoryPrefixSyncHash (fun _ _ => .eq) codexRows (.finite 1) 0 ⟨true, none⟩
    cut.sourceCount = 2 ∧
      cut.hash = (computeHistoryMessagesSyncHash (fun _ _ => .eq) (codexRows.take cut.sourceCount) 0
        ⟨true, none⟩).hash := by
  have agrees := prefixHash_agrees (fun _ _ => .eq) 0 ⟨true, none⟩ codexRows (.finite 1) nofun
  exact ⟨by decide +kernel, agrees.2.1⟩

/-- Of a count that is not a number the answer is none either. -/
theorem nan_prefixHash_uncounted :
    let cut := computeHistoryPrefixSyncHash (fun _ _ => .eq) codexRows .nan 0 ⟨true, none⟩
    cut.renderedCount ≠ .finite (computeHistoryMessagesSyncHash (fun _ _ => .eq)
      (codexRows.take cut.sourceCount) 0 ⟨true, none⟩).renderedCount := by
  decide +kernel

end Takode.HistorySync
