import Takode.Lib.Json
import Takode.Lib.LowerCase

/-!
# Thread keys

The keys of a leader's threads (`thread-window.ts`, `topic-thread-key.ts`), and the lists of
those that are open (`leader-open-thread-tabs.ts`).
-/

namespace Takode.LeaderTabs

open JsString

def MAIN_THREAD_KEY : JsString := js "main"
def ALL_THREADS_KEY : JsString := js "all"
def MAX_LEADER_OPEN_THREAD_TABS : Nat := 50

/-- `topic:`. -/
def PREFIX : JsString := js "topic:"
def HANDLE_LENGTH : Nat := 8

/-- `/[\w-]/`. -/
def isHandleChar (c : UInt16) : Bool :=
  isDigit c || (65 ≤ c && c ≤ 90) || (97 ≤ c && c ≤ 122) || c = 95 || c = 45

section

variable (lc : LowerCase)

def topicHandle (topicId : JsString) : JsString :=
  ((lc.toLowerCase (trim topicId)).filter (· ≠ 45)).take HANDLE_LENGTH

def topicIdOfViewKey (viewKey : JsString) : Option JsString :=
  let key := lc.toLowerCase (trim viewKey)
  if !startsWith key PREFIX then none
  else
    let id := key.drop PREFIX.length
    if id ≠ [] && id.all isHandleChar then some (topicHandle lc id) |>.filter (· ≠ []) else none

def normalizeTopicKey (key : JsString) : Option JsString := (topicIdOfViewKey lc key).map (PREFIX ++ ·)

/-- `normalizeLeaderThreadKey`. -/
def normalizeSelectedFeedThreadKey (threadKey : JsString) : JsString :=
  let normalized := lc.toLowerCase (trim threadKey)
  (normalizeTopicKey lc normalized).getD (if normalized = [] then MAIN_THREAD_KEY else normalized)

/-- The tab of the thread can be opened and closed. -/
def shouldPersistLeaderThreadTab (threadKey : JsString) : Bool :=
  let normalized := normalizeSelectedFeedThreadKey lc threadKey
  normalized ≠ MAIN_THREAD_KEY && normalized ≠ ALL_THREADS_KEY

end

/-! ## Normalized keys -/

section

variable {lc : LowerCase}

theorem isHandleChar_cases {c : UInt16} (handle : isHandleChar c = true) :
    c < 128 ∧ isSpace c = false ∧ (lower c = c ∨ 65 ≤ c.toNat ∧ c.toNat ≤ 90) := by
  have bound : c.toNat < 128 := by
    simp only [isHandleChar, isDigit, Bool.or_eq_true, Bool.and_eq_true, decide_eq_true_eq,
      UInt16.le_iff_toNat_le, ← UInt16.toNat_inj] at handle
    have numerals : (57 : UInt16).toNat = 57 ∧ (90 : UInt16).toNat = 90 ∧ (122 : UInt16).toNat = 122 ∧
        (95 : UInt16).toNat = 95 ∧ (45 : UInt16).toNat = 45 := by decide
    omega
  have all : ∀ n : Fin 128, isHandleChar (UInt16.ofNat n) = true → UInt16.ofNat n < 128 ∧
      isSpace (UInt16.ofNat n) = false ∧ (lower (UInt16.ofNat n) = UInt16.ofNat n ∨
        65 ≤ (UInt16.ofNat n).toNat ∧ (UInt16.ofNat n).toNat ≤ 90) := by decide
  have own := all ⟨c.toNat, bound⟩
  simp only [UInt16.ofNat_toNat] at own
  exact own handle

theorem plain_key {key : JsString} (plain : ∀ c ∈ key, isSpace c = false ∧ c < 128 ∧ lower c = c) :
    lc.toLowerCase (trim key) = key := by
  rw [trim_of_not_space fun c inside => (plain c inside).1]
  exact lc.plain key fun c inside => (plain c inside).2

theorem plain_prefix : ∀ c ∈ PREFIX, isSpace c = false ∧ c < 128 ∧ lower c = c :=
  forall_mem_of_all (by decide)

theorem topicIdOfViewKey_prefix {handle : JsString} (filled : handle ≠ []) (short : handle.length ≤ HANDLE_LENGTH)
    (plain : ∀ c ∈ handle, isHandleChar c = true ∧ lower c = c ∧ c ≠ 45) :
    topicIdOfViewKey lc (PREFIX ++ handle) = some handle := by
  have letters : ∀ c ∈ handle, isSpace c = false ∧ c < 128 ∧ lower c = c := fun c inside =>
    ⟨(isHandleChar_cases (plain c inside).1).2.1, (isHandleChar_cases (plain c inside).1).1, (plain c inside).2.1⟩
  have whole : lc.toLowerCase (trim (PREFIX ++ handle)) = PREFIX ++ handle := by
    apply plain_key
    intro c inside
    obtain first | second := List.mem_append.mp inside
    · exact plain_prefix c first
    · exact letters c second
  have starts : startsWith (PREFIX ++ handle) PREFIX = true := by
    rw [startsWith, List.take_left]
    exact beq_self_eq_true _
  have handles : handle.all isHandleChar = true := List.all_eq_true.mpr fun c inside => (plain c inside).1
  have undashed : handle.filter (· ≠ 45) = handle := by
    rw [List.filter_eq_self]
    exact fun c inside => decide_eq_true (plain c inside).2.2
  have own : topicHandle lc handle = handle := by
    rw [topicHandle, plain_key letters, undashed, List.take_of_length_le short]
  simp only [topicIdOfViewKey, whole, starts, Bool.not_true, Bool.false_eq_true, if_false, List.drop_left, handles,
    own, filled, ne_eq, not_false_eq_true, decide_true, Bool.and_self, if_true, Option.filter_some]

theorem topicIdOfViewKey_plain {key handle : JsString} (named : topicIdOfViewKey lc key = some handle) :
    handle ≠ [] ∧ handle.length ≤ HANDLE_LENGTH ∧
      ∀ c ∈ handle, isHandleChar c = true ∧ lower c = c ∧ c ≠ 45 := by
  simp only [topicIdOfViewKey] at named
  split at named
  · cases named
  · split at named
    · next word =>
      rw [Option.filter_some] at named
      split at named
      · next filled =>
        cases named
        refine ⟨by simpa using filled, List.length_take_le _ _, fun c inside => ?_⟩
        generalize small : lc.toLowerCase (trim key) = text at word inside
        simp only [Bool.and_eq_true, List.all_eq_true] at word
        have letters : ∀ c ∈ text.drop PREFIX.length, isSpace c = false ∧ c < 128 ∧ lower c = c := by
          intro c inside
          have handle := isHandleChar_cases (word.2 c inside)
          exact ⟨handle.2.1, handle.1, lc.noCapital (trim key) c (small ▸ List.mem_of_mem_drop inside)⟩
        rw [topicHandle, plain_key letters] at inside
        obtain ⟨inside, undashed⟩ := List.mem_filter.mp (List.mem_of_mem_take inside)
        exact ⟨word.2 c inside, (letters c inside).2.2, by simpa using undashed⟩
      · cases named
    · cases named

theorem normalizeSelectedFeedThreadKey_cases (threadKey : JsString) :
    (∃ handle, topicIdOfViewKey lc (lc.toLowerCase (trim threadKey)) = some handle ∧
      normalizeSelectedFeedThreadKey lc threadKey = PREFIX ++ handle) ∨
    (topicIdOfViewKey lc (lc.toLowerCase (trim threadKey)) = none ∧
      normalizeSelectedFeedThreadKey lc threadKey = if lc.toLowerCase (trim threadKey) = [] then MAIN_THREAD_KEY
        else lc.toLowerCase (trim threadKey)) := by
  cases named : topicIdOfViewKey lc (lc.toLowerCase (trim threadKey)) with
  | some handle =>
    refine .inl ⟨handle, rfl, ?_⟩
    rw [normalizeSelectedFeedThreadKey, normalizeTopicKey, named]
    rfl
  | none =>
    refine .inr ⟨rfl, ?_⟩
    rw [normalizeSelectedFeedThreadKey, normalizeTopicKey, named]
    rfl

theorem normalize_ne_nil (threadKey : JsString) : normalizeSelectedFeedThreadKey lc threadKey ≠ [] := by
  obtain ⟨handle, -, same⟩ | ⟨-, same⟩ := normalizeSelectedFeedThreadKey_cases threadKey
  · rw [same]
    exact List.append_ne_nil_of_left_ne_nil (by decide) handle
  · rw [same]
    split
    · decide
    · assumption

theorem normalize_main : normalizeSelectedFeedThreadKey lc MAIN_THREAD_KEY = MAIN_THREAD_KEY := by
  have plain : lc.toLowerCase (trim MAIN_THREAD_KEY) = MAIN_THREAD_KEY := 
    plain_key (forall_mem_of_all (by decide))
  have other : startsWith MAIN_THREAD_KEY PREFIX = false := by decide
  have none : topicIdOfViewKey lc MAIN_THREAD_KEY = none := by
    simp only [topicIdOfViewKey, plain, other, Bool.not_false, if_true]
  rw [normalizeSelectedFeedThreadKey, plain, normalizeTopicKey, none]
  rfl

theorem normalize_normalize (threadKey : JsString) :
    normalizeSelectedFeedThreadKey lc (normalizeSelectedFeedThreadKey lc threadKey) =
      normalizeSelectedFeedThreadKey lc threadKey := by
  obtain ⟨handle, named, same⟩ | ⟨none, same⟩ := normalizeSelectedFeedThreadKey_cases threadKey
  · obtain ⟨filled, short, plain⟩ := topicIdOfViewKey_plain named
    have whole : lc.toLowerCase (trim (PREFIX ++ handle)) = PREFIX ++ handle := by
      apply plain_key
      intro c inside
      obtain first | second := List.mem_append.mp inside
      · exact plain_prefix c first
      · have word := isHandleChar_cases (plain c second).1
        exact ⟨word.2.1, word.1, (plain c second).2.1⟩
    rw [same, normalizeSelectedFeedThreadKey, whole, normalizeTopicKey, topicIdOfViewKey_prefix filled short plain]
    rfl
  · rw [same]
    split
    · exact normalize_main
    · next filled =>
      have whole : lc.toLowerCase (trim (lc.toLowerCase (trim threadKey))) = lc.toLowerCase (trim threadKey) := by
        rw [lc.trimmed _ (trim_trim threadKey), lc.idempotent]
      rw [normalizeSelectedFeedThreadKey, whole, normalizeTopicKey, none, if_neg filled]
      rfl

end

/-! ## Open keys -/

/-- The key that a value of a list names. -/
def rawThreadKey (value : JsonValue) : Option JsString :=
  match value with
  | .string key => some key
  | _ => ((value.get (js "threadKey")).bind JsonValue.asString).or ((value.get (js "questId")).bind JsonValue.asString)

section

variable (lc : LowerCase)

/-- The keys of the values that are not among the result yet, until it is full. -/
def collectThreadKeys : List JsonValue → List JsString → List JsString
  | [], result => result
  | value :: rest, result =>
    match rawThreadKey value with
    | none => collectThreadKeys rest result
    | some rawKey =>
      let key := normalizeSelectedFeedThreadKey lc rawKey
      if rawKey = [] || !shouldPersistLeaderThreadTab lc key || key ∈ result then collectThreadKeys rest result
      else if (result ++ [key]).length = MAX_LEADER_OPEN_THREAD_TABS then result ++ [key]
      else collectThreadKeys rest (result ++ [key])

def normalizeLeaderOpenThreadKeys (threadKeys : List JsonValue) : List JsString := collectThreadKeys lc threadKeys []

/-- A list of strings. -/
def normalizeKeys (threadKeys : List JsString) : List JsString :=
  normalizeLeaderOpenThreadKeys lc (threadKeys.map .string)

inductive Placement
  | first
  | last
  | before
deriving DecidableEq

structure PlacementParts where
  key : JsString
  keys : List JsString
  index : Option Nat
  withoutTarget : List JsString

def placementParts (existingThreadKeys : List JsString) (threadKey : JsString) : PlacementParts :=
  let key := normalizeSelectedFeedThreadKey lc threadKey
  let keys := normalizeKeys lc existingThreadKeys
  { key, keys, index := keys.findIdx? (· = key), withoutTarget := keys.filter (· ≠ key) }

/-- At the first place or, otherwise, at the last. -/
def placeLeaderOpenThreadTabKey (existingThreadKeys : List JsString) (threadKey : JsString) (first : Bool) :
    List JsString :=
  let parts := placementParts lc existingThreadKeys threadKey
  if !shouldPersistLeaderThreadTab lc parts.key ||
      (!first && parts.index.isNone && MAX_LEADER_OPEN_THREAD_TABS ≤ parts.keys.length) then
    parts.keys
  else normalizeKeys lc (if first then parts.key :: parts.withoutTarget else parts.withoutTarget ++ [parts.key])

def placeLeaderOpenThreadTabBeforeKeys (existingThreadKeys : List JsString) (threadKey : JsString)
    (beforeThreadKeys : JsSet JsString) : List JsString :=
  let parts := placementParts lc existingThreadKeys threadKey
  if !shouldPersistLeaderThreadTab lc parts.key then parts.keys
  else
    let fallbackIndex := parts.index.getD parts.withoutTarget.length
    let insertionIndex := ((parts.withoutTarget.findIdx? beforeThreadKeys.has).map (min fallbackIndex ·)).getD
      fallbackIndex
    normalizeKeys lc
      (parts.withoutTarget.take insertionIndex ++ parts.key :: parts.withoutTarget.drop insertionIndex)

def reorderLeaderOpenThreadKeys (existingThreadKeys : List JsString) (requestedOrder : List JsonValue) :
    List JsString :=
  let existing := normalizeKeys lc existingThreadKeys
  let requested := (normalizeLeaderOpenThreadKeys lc requestedOrder).filter (· ∈ existing)
  requested ++ existing.filter (· ∉ requested)

/-- Keys as they are normalized. -/
structure Tab (key : JsString) : Prop where
  normalized : normalizeSelectedFeedThreadKey lc key = key
  main : key ≠ MAIN_THREAD_KEY
  all : key ≠ ALL_THREADS_KEY

/-- Lists of open keys. -/
structure Tabs (keys : List JsString) : Prop where
  tabs : ∀ key ∈ keys, Tab lc key
  distinct : keys.Nodup
  few : keys.length ≤ MAX_LEADER_OPEN_THREAD_TABS

end

section

variable {lc : LowerCase} {keys : List JsString} {key : JsString}

theorem Tab.persists (tab : Tab lc key) : shouldPersistLeaderThreadTab lc key = true := by
  simp [shouldPersistLeaderThreadTab, tab.normalized, tab.main, tab.all]

theorem Tab.ne_nil (tab : Tab lc key) : key ≠ [] := tab.normalized ▸ normalize_ne_nil key

theorem tab_of_persists {threadKey : JsString}
    (persists : shouldPersistLeaderThreadTab lc (normalizeSelectedFeedThreadKey lc threadKey) = true) :
    Tab lc (normalizeSelectedFeedThreadKey lc threadKey) := by
  simp only [shouldPersistLeaderThreadTab, normalize_normalize, Bool.and_eq_true, decide_eq_true_eq] at persists
  exact ⟨normalize_normalize threadKey, persists.1, persists.2⟩

theorem Tabs.append (tabs : Tabs lc keys) (tab : Tab lc key) (new : key ∉ keys)
    (room : keys.length < MAX_LEADER_OPEN_THREAD_TABS) : Tabs lc (keys ++ [key]) where
  tabs other inside := by
    obtain before | own := List.mem_append.mp inside
    · exact tabs.tabs other before
    · rw [List.mem_singleton.mp own]
      exact tab
  distinct := List.nodup_append.mpr ⟨tabs.distinct, List.nodup_singleton key, by
    rintro other before own same rfl
    exact new (List.mem_singleton.mp same ▸ before)⟩
  few := by
    rw [List.length_append, List.length_singleton]
    exact room

theorem Tabs.sublist {keys' : List JsString} (tabs : Tabs lc keys) (part : keys'.Sublist keys) : Tabs lc keys' where
  tabs key inside := tabs.tabs key (part.subset inside)
  distinct := part.nodup tabs.distinct
  few := Nat.le_trans part.length_le tabs.few

theorem collectThreadKeys_tabs (values : List JsonValue) {result : List JsString} (tabs : Tabs lc result)
    (room : result.length < MAX_LEADER_OPEN_THREAD_TABS) : Tabs lc (collectThreadKeys lc values result) := by
  induction values generalizing result with
  | nil => exact tabs
  | cons value rest ih =>
    rw [collectThreadKeys]
    split
    · exact ih tabs room
    · next rawKey _ =>
      dsimp only
      split
      · exact ih tabs room
      · next fresh =>
        simp only [Bool.or_eq_true, Bool.not_eq_true', decide_eq_true_eq, not_or, Bool.not_eq_false] at fresh
        have more := tabs.append (tab_of_persists fresh.1.2) fresh.2 room
        split
        · exact more
        · next room' => exact ih more (Nat.lt_of_le_of_ne more.few room')

theorem normalizeLeaderOpenThreadKeys_tabs (values : List JsonValue) :
    Tabs lc (normalizeLeaderOpenThreadKeys lc values) :=
  collectThreadKeys_tabs values ⟨nofun, List.nodup_nil, Nat.zero_le _⟩ (by decide)

theorem collectThreadKeys_of_tabs {keys result : List JsString} (tabs : ∀ key ∈ keys, Tab lc key)
    (distinct : (result ++ keys).Nodup) (room : result.length < MAX_LEADER_OPEN_THREAD_TABS) :
    collectThreadKeys lc (keys.map .string) result = (result ++ keys).take MAX_LEADER_OPEN_THREAD_TABS := by
  induction keys generalizing result with
  | nil =>
    rw [List.append_nil, List.take_of_length_le (Nat.le_of_lt room)]
    rfl
  | cons key rest ih =>
    have tab := tabs key List.mem_cons_self
    have new : key ∉ result := by
      intro before
      exact (List.nodup_append.mp distinct).2.2 key before key List.mem_cons_self rfl
    rw [List.map_cons, collectThreadKeys]
    simp only [rawThreadKey, tab.normalized, tab.persists, tab.ne_nil, new, decide_false, Bool.not_true, Bool.or_self,
      Bool.false_eq_true, if_false]
    split
    · next full =>
      have front : result ++ key :: rest = (result ++ [key]) ++ rest := by
        rw [List.append_assoc, List.singleton_append]
      rw [front, List.take_append_of_le_length (Nat.le_of_eq full.symm), ← full, List.take_length]
    · next room' =>
      have more : (result ++ [key]).length < MAX_LEADER_OPEN_THREAD_TABS := by
        rw [List.length_append, List.length_singleton] at room' ⊢
        omega
      rw [ih (fun other inside => tabs other (List.mem_cons_of_mem key inside)) (by simpa using distinct) more,
        List.append_assoc, List.singleton_append]

theorem normalizeKeys_of_tabs (tabs : ∀ key ∈ keys, Tab lc key) (distinct : keys.Nodup) :
    normalizeKeys lc keys = keys.take MAX_LEADER_OPEN_THREAD_TABS :=
  collectThreadKeys_of_tabs tabs distinct (by decide)

theorem Tabs.normalizeKeys (tabs : Tabs lc keys) : normalizeKeys lc keys = keys := by
  rw [normalizeKeys_of_tabs tabs.tabs tabs.distinct, List.take_of_length_le tabs.few]

/-! ## Placing keys -/

/-- A key is put among others at a place, and the first fifty are kept. -/
def insertedAt (others : List JsString) (key : JsString) (i : Nat) : List JsString :=
  (others.take i ++ key :: others.drop i).take MAX_LEADER_OPEN_THREAD_TABS

theorem insertedAt_eq {others : List JsString} {i : Nat} (inside : i ≤ others.length)
    (room : i < MAX_LEADER_OPEN_THREAD_TABS) :
    insertedAt others key i = others.take i ++ key :: (others.drop i).take (MAX_LEADER_OPEN_THREAD_TABS - 1 - i) := by
  have left : MAX_LEADER_OPEN_THREAD_TABS - i = (MAX_LEADER_OPEN_THREAD_TABS - 1 - i) + 1 := by omega
  rw [insertedAt, List.take_append, List.take_take, List.length_take, Nat.min_eq_left inside,
    Nat.min_eq_right (Nat.le_of_lt room), left, List.take_succ_cons]

theorem insertedAt_again {others : List JsString} {i : Nat} (new : key ∉ others) (inside : i ≤ others.length)
    (room : i < MAX_LEADER_OPEN_THREAD_TABS) :
    (insertedAt others key i).findIdx? (· = key) = some i ∧
    (insertedAt others key i).filter (· ≠ key) = others.take (MAX_LEADER_OPEN_THREAD_TABS - 1) ∧
    insertedAt (others.take (MAX_LEADER_OPEN_THREAD_TABS - 1)) key i = insertedAt others key i := by
  have kept : ∀ part : List JsString, part.Sublist others → part.filter (· ≠ key) = part := by
    intro part sublist
    rw [List.filter_eq_self]
    exact fun other here => decide_eq_true fun same => new (same ▸ sublist.subset here)
  rw [insertedAt_eq inside room]
  refine ⟨?_, ?_, ?_⟩
  · have before : (others.take i).findIdx? (· = key) = none := by
      rw [List.findIdx?_eq_none_iff]
      exact fun other here => decide_eq_false fun same => new (same ▸ List.mem_of_mem_take here)
    rw [List.findIdx?_append, before, List.findIdx?_cons]
    simp [Nat.min_eq_left inside]
  · have whole : others.take (MAX_LEADER_OPEN_THREAD_TABS - 1) =
        others.take i ++ (others.drop i).take (MAX_LEADER_OPEN_THREAD_TABS - 1 - i) := by
      have sum : MAX_LEADER_OPEN_THREAD_TABS - 1 = i + (MAX_LEADER_OPEN_THREAD_TABS - 1 - i) := by omega
      conv => lhs; rw [sum, List.take_add]
    rw [List.filter_append, kept _ (List.take_sublist i others), List.filter_cons_of_neg (by simp),
      kept _ ((List.take_sublist _ _).trans (List.drop_sublist i others)), whole]
  · have short : i ≤ (others.take (MAX_LEADER_OPEN_THREAD_TABS - 1)).length := by
      rw [List.length_take]
      omega
    rw [insertedAt_eq short room, List.take_take, Nat.min_eq_left (by omega), List.drop_take, List.take_take,
      Nat.min_self]

/-- What `placement` says. -/
def place (lc : LowerCase) (placement : Placement) (beforeThreadKeys : JsSet JsString) (keys : List JsString)
    (key : JsString) : List JsString :=
  match placement with
  | .before => placeLeaderOpenThreadTabBeforeKeys lc keys key beforeThreadKeys
  | .first => placeLeaderOpenThreadTabKey lc keys key true
  | .last => placeLeaderOpenThreadTabKey lc keys key false

/-- The place among the other keys. -/
def position (placement : Placement) (beforeThreadKeys : JsSet JsString) (others : List JsString)
    (index : Option Nat) : Nat :=
  match placement with
  | .first => 0
  | .last => others.length
  | .before => ((others.findIdx? beforeThreadKeys.has).map (min (index.getD others.length) ·)).getD
      (index.getD others.length)

theorem place_tabs (placement : Placement) (beforeThreadKeys : JsSet JsString) (keys : List JsString)
    (key : JsString) : Tabs lc (place lc placement beforeThreadKeys keys key) := by
  cases placement <;> simp only [place, placeLeaderOpenThreadTabKey, placeLeaderOpenThreadTabBeforeKeys] <;> split <;>
    exact normalizeLeaderOpenThreadKeys_tabs _

theorem others_tabs (tabs : Tabs lc keys) (tab : Tab lc key) (i : Nat) :
    normalizeKeys lc ((keys.filter (· ≠ key)).take i ++ key :: (keys.filter (· ≠ key)).drop i) =
      insertedAt (keys.filter (· ≠ key)) key i := by
  have perm : ((keys.filter (· ≠ key)).take i ++ key :: (keys.filter (· ≠ key)).drop i).Perm
      (key :: keys.filter (· ≠ key)) := by
    refine List.perm_middle.trans (.cons key ?_)
    rw [List.take_append_drop]
  have new : key ∉ keys.filter (· ≠ key) := by simp
  apply normalizeKeys_of_tabs
  · intro other inside
    obtain rfl | other := List.mem_cons.mp (perm.mem_iff.mp inside)
    · exact tab
    · exact tabs.tabs _ (List.mem_of_mem_filter other)
  · exact perm.nodup_iff.mpr (List.nodup_cons.mpr ⟨new, tabs.distinct.filter _⟩)

theorem place_eq (tabs : Tabs lc keys) (tab : Tab lc key) (placement : Placement)
    (beforeThreadKeys : JsSet JsString) :
    place lc placement beforeThreadKeys keys key =
      if placement = .last ∧ keys.findIdx? (· = key) = none ∧ MAX_LEADER_OPEN_THREAD_TABS ≤ keys.length then keys
      else insertedAt (keys.filter (· ≠ key)) key
        (position placement beforeThreadKeys (keys.filter (· ≠ key)) (keys.findIdx? (· = key))) := by
  have inserts := others_tabs tabs tab
  cases placement <;>
    simp only [place, placeLeaderOpenThreadTabKey, placeLeaderOpenThreadTabBeforeKeys, placementParts,
      tabs.normalizeKeys, tab.normalized, tab.persists, position] <;>
    generalize keys.filter (· ≠ key) = others at inserts ⊢
  · have first := inserts 0
    rw [List.take_zero, List.drop_zero, List.nil_append] at first
    simp [first]
  · have last := inserts others.length
    rw [List.take_length, List.drop_length] at last
    simp [last]
  · simp [inserts]

theorem position_le {index : Option Nat} (inside : ∀ i, index = some i → i ≤ keys.length) (placement : Placement)
    (beforeThreadKeys : JsSet JsString) : position placement beforeThreadKeys keys index ≤ keys.length := by
  have fallback : index.getD keys.length ≤ keys.length := by
    cases index with
    | none => exact Nat.le_refl _
    | some i => exact inside i rfl
  cases placement with
  | first => exact Nat.zero_le _
  | last => exact Nat.le_refl _
  | before =>
    rw [position]
    cases keys.findIdx? beforeThreadKeys.has with
    | none => exact fallback
    | some b => exact Nat.le_trans (Nat.min_le_left _ _) fallback

theorem length_others (tabs : Tabs lc keys) (inside : key ∈ keys) :
    (keys.filter (· ≠ key)).length + 1 = keys.length := by
  have erased : keys.erase key = keys.filter (· ≠ key) := by
    rw [tabs.distinct.erase_eq_filter]
    exact List.filter_congr fun other _ => Bool.eq_iff_iff.mpr (by simp)
  rw [← erased, List.length_erase_of_mem inside]
  have positive := List.length_pos_of_mem inside
  omega

theorem findIdx?_le_others (tabs : Tabs lc keys) {i : Nat} (found : keys.findIdx? (· = key) = some i) :
    i ≤ (keys.filter (· ≠ key)).length := by
  obtain ⟨inside, own, -⟩ := List.findIdx?_eq_some_iff_getElem.mp found
  have open' : key ∈ keys := by
    rw [← of_decide_eq_true own]
    exact List.getElem_mem inside
  have length := length_others tabs open'
  omega

theorem position_again {others : List JsString} {index : Option Nat} {placement : Placement}
    {beforeThreadKeys : JsSet JsString} (inside : position placement beforeThreadKeys others index ≤ others.length)
    (room : position placement beforeThreadKeys others index < MAX_LEADER_OPEN_THREAD_TABS) :
    position placement beforeThreadKeys (others.take (MAX_LEADER_OPEN_THREAD_TABS - 1))
      (some (position placement beforeThreadKeys others index)) = position placement beforeThreadKeys others index := by
  cases placement with
  | first => rfl
  | last =>
    simp only [position] at room ⊢
    rw [List.length_take]
    omega
  | before =>
    generalize put : position .before beforeThreadKeys others index = i at inside room ⊢
    rw [position, Option.getD_some]
    cases found : (others.take (MAX_LEADER_OPEN_THREAD_TABS - 1)).findIdx? beforeThreadKeys.has with
    | none => rfl
    | some b =>
      -- The first key that it goes before is the same one.
      have same : others.findIdx? beforeThreadKeys.has = some b := by
        rw [← List.take_append_drop (MAX_LEADER_OPEN_THREAD_TABS - 1) others, List.findIdx?_append, found]
        rfl
      have before : i ≤ b := by
        rw [← put, position, same, Option.map_some, Option.getD_some]
        exact Nat.min_le_right _ _
      rw [Option.map_some, Option.getD_some, Nat.min_eq_left before]

theorem place_place (tabs : Tabs lc keys) (tab : Tab lc key) (placement : Placement)
    (beforeThreadKeys : JsSet JsString) :
    place lc placement beforeThreadKeys (place lc placement beforeThreadKeys keys key) key =
      place lc placement beforeThreadKeys keys key := by
  have placed := place_eq tabs tab placement beforeThreadKeys
  split at placed
  · rw [placed, placed]
  · have inside := @position_le (keys.filter (· ≠ key)) (keys.findIdx? (· = key))
      (fun i found => findIdx?_le_others tabs found) placement beforeThreadKeys
    by_cases room : position placement beforeThreadKeys (keys.filter (· ≠ key)) (keys.findIdx? (· = key)) <
        MAX_LEADER_OPEN_THREAD_TABS
    · have again := position_again inside room
      generalize position placement beforeThreadKeys (keys.filter (· ≠ key)) (keys.findIdx? (· = key)) = i
        at placed inside room again
      obtain ⟨found, others, same⟩ := insertedAt_again (show key ∉ keys.filter (· ≠ key) by simp)
        inside room
      have tabs' : Tabs lc (place lc placement beforeThreadKeys keys key) :=
        place_tabs placement beforeThreadKeys keys key
      rw [placed] at tabs' ⊢
      rw [place_eq tabs' tab, found, others, if_neg (by simp), again, same]
    · -- The key went behind fifty others, and was dropped.
      have whole : keys.filter (· ≠ key) = keys := by
        apply List.filter_sublist.eq_of_length_le
        have few := tabs.few
        omega
      have unchanged : place lc placement beforeThreadKeys keys key = keys := by
        have few := tabs.few
        rw [whole] at placed inside room
        rw [placed, insertedAt, List.take_append_of_le_length, List.take_take, List.take_of_length_le]
        · omega
        · rw [List.length_take]
          omega
      rw [unchanged, unchanged]

theorem place_last (tabs : Tabs lc keys) (tab : Tab lc key) (closed : key ∉ keys)
    (beforeThreadKeys : JsSet JsString) :
    place lc .last beforeThreadKeys keys key = keys ∨ place lc .last beforeThreadKeys keys key = keys ++ [key] := by
  have whole : keys.filter (· ≠ key) = keys := by
    rw [List.filter_eq_self]
    exact fun other inside => decide_eq_true fun same => closed (same ▸ inside)
  have none : keys.findIdx? (· = key) = none := by
    rw [List.findIdx?_eq_none_iff]
    exact fun other inside => decide_eq_false fun same => closed (same ▸ inside)
  rw [place_eq tabs tab, whole, none]
  split
  · exact .inl rfl
  · next room =>
    simp only [true_and, Nat.not_le] at room
    right
    rw [insertedAt, position, List.take_length, List.drop_length, List.take_of_length_le]
    rw [List.length_append, List.length_singleton]
    exact room

theorem reorder_tabs (tabs : Tabs lc keys) (requestedOrder : List JsonValue) :
    Tabs lc (reorderLeaderOpenThreadKeys lc keys requestedOrder) := by
  have requested : Tabs lc (normalizeLeaderOpenThreadKeys lc requestedOrder) :=
    normalizeLeaderOpenThreadKeys_tabs requestedOrder
  rw [reorderLeaderOpenThreadKeys, tabs.normalizeKeys]
  generalize normalizeLeaderOpenThreadKeys lc requestedOrder = order at requested
  have distinct : (order.filter (· ∈ keys) ++ keys.filter (· ∉ order.filter (· ∈ keys))).Nodup := by
    rw [List.nodup_append]
    refine ⟨requested.distinct.filter _, tabs.distinct.filter _, ?_⟩
    rintro other first _ second rfl
    exact of_decide_eq_true (List.mem_filter.mp second).2 first
  have inside : order.filter (· ∈ keys) ++ keys.filter (· ∉ order.filter (· ∈ keys)) ⊆ keys := by
    intro other listed
    obtain first | second := List.mem_append.mp listed
    · exact of_decide_eq_true (List.mem_filter.mp first).2
    · exact List.mem_of_mem_filter second
  exact ⟨fun other listed => tabs.tabs other (inside listed), distinct,
    Nat.le_trans (distinct.subperm inside).length_le tabs.few⟩

end

end Takode.LeaderTabs
