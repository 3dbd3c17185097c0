import Takode.Lib.JsonLayout
import Takode.Lib.Machine

/-!
# The quest store file

How the file of the live quest store is written (`quest-store-file.ts`): from the bytes that are
kept for each quest that is frozen, between the texts before and after the list of quests.
-/

namespace Takode.Quests

open JsString JsonText

/-- A quest that is an object in memory. -/
structure QuestObject where
  value : Value
  frozen : Bool

/-- The quests that were made, by number, and the bytes that are kept for them. -/
structure QuestMemory where
  objects : List QuestObject
  questBytes : Nat → Option Bytes

/-- The store that is written: its fields before and after the quests, in order. -/
structure QuestStoreFile where
  before : List (JsString × Value)
  quests : List Nat
  after : List (JsString × Value)

/-- The members of the store, with what stands for its quests. -/
def QuestStoreFile.members (store : QuestStoreFile) (quests : Value) : List (JsString × Value) :=
  store.before ++ (js "quests", quests) :: store.after

namespace QuestMemory

def value (memory : QuestMemory) (quest : Nat) : Value :=
  ((memory.objects[quest]?).map (·.value)).getD .null

/-- `Object.isFrozen`. -/
def isFrozen (memory : QuestMemory) (quest : Nat) : Bool :=
  (memory.objects[quest]?).any (·.frozen)

end QuestMemory

def QUEST_INDENT : List Char := words "    "
def QUEST_SEPARATOR : Bytes := utf8 (words ",\n" ++ QUEST_INDENT)

def serializedQuest (memory : QuestMemory) (quest : Nat) : QuestMemory × Bytes :=
  match memory.questBytes quest with
  | some cached => (memory, cached)
  | none =>
    let bytes := utf8 (reindent QUEST_INDENT (layout [] (memory.value quest)))
    (if memory.isFrozen quest then
      { memory with questBytes := Function.update memory.questBytes quest (some bytes) }
    else memory, bytes)

/-- The loop that pushes the quests, from an index on. -/
def pushQuests (memory : QuestMemory) : Nat → List Nat → QuestMemory × List Bytes
  | _, [] => (memory, [])
  | index, quest :: quests =>
    let serialized := serializedQuest memory quest
    let rest := pushQuests serialized.1 (index + 1) quests
    (rest.1, (if 0 < index then [QUEST_SEPARATOR] else []) ++ serialized.2 :: rest.2)

theorem quote_ne_nil (s : JsString) : quote s ≠ [] := List.cons_ne_nil _ _

/-- The chunks of the file; `none` if the stand-in is not found. -/
def questStoreFileChunks (memory : QuestMemory) (store : QuestStoreFile) (uuid : JsString) :
    Option (QuestMemory × List Bytes) :=
  if store.quests = [] then
    some (memory, [utf8 (layout [] (.object (store.members (.array []))))])
  else
    let placeholder := js "quests-" ++ uuid
    let text := layout [] (.object (store.members (.array [.string placeholder])))
    match splitText (quote placeholder) (quote_ne_nil placeholder) text with
    | head :: tail :: _ =>
      let pushed := pushQuests memory 0 store.quests
      some (pushed.1, utf8 head :: pushed.2 ++ [utf8 tail])
    | _ => none

/-! ## Runs -/

inductive QuestFileEvent
  | create (value : Value) (frozen : Bool)
  | change (quest : Nat) (value : Value)
  | freeze (quest : Nat)
  | write (store : QuestStoreFile) (uuid : JsString)

/-- A frozen quest does not change. -/
def QuestMemory.step (memory : QuestMemory) : QuestFileEvent → Option QuestMemory
  | .create value frozen => some { memory with objects := memory.objects ++ [⟨value, frozen⟩] }
  | .change quest value =>
    if memory.isFrozen quest then none
    else some { memory with
      objects := memory.objects.modify quest fun object => { object with value } }
  | .freeze quest => some { memory with
      objects := memory.objects.modify quest fun object => { object with frozen := true } }
  | .write store uuid => (questStoreFileChunks memory store uuid).map (·.1)

def questFile : Machine QuestMemory QuestFileEvent where
  start := ⟨[], fun _ => none⟩
  step := QuestMemory.step

/-! ## The bytes that are kept -/

/-- The bytes of a quest in the list of quests. -/
def questText (value : Value) : Bytes := utf8 (layout QUEST_INDENT value)

theorem serialized_text (value : Value) :
    utf8 (reindent QUEST_INDENT (layout [] value)) = questText value := by
  rw [reindent_layout QUEST_INDENT [] (List.not_mem_nil) value, List.append_nil]
  rfl

/-- What is kept for a quest is what it is, and the quest is frozen. -/
def Kept (memory : QuestMemory) : Prop :=
  ∀ quest bytes, memory.questBytes quest = some bytes →
    memory.isFrozen quest = true ∧ bytes = questText (memory.value quest)

theorem serializedQuest_spec {memory : QuestMemory} (kept : Kept memory) (quest : Nat) :
    (serializedQuest memory quest).1.objects = memory.objects ∧
      Kept (serializedQuest memory quest).1 ∧
      (serializedQuest memory quest).2 = questText (memory.value quest) := by
  unfold serializedQuest
  cases cached : memory.questBytes quest with
  | some bytes => exact ⟨rfl, kept, (kept quest bytes cached).2⟩
  | none =>
    dsimp only
    rw [serialized_text]
    cases frozen : memory.isFrozen quest with
    | false => exact ⟨rfl, kept, rfl⟩
    | true =>
      refine ⟨rfl, ?_, rfl⟩
      intro other bytes found
      rw [if_pos rfl] at found ⊢
      by_cases same : other = quest
      · subst same
        dsimp only at found
        rw [Function.update_self] at found
        exact ⟨frozen, (Option.some.inj found).symm⟩
      · dsimp only at found
        rw [Function.update_of_ne same] at found
        exact kept other bytes found

theorem value_congr {memory memory' : QuestMemory} (same : memory'.objects = memory.objects) :
    memory'.value = memory.value := by
  unfold QuestMemory.value
  rw [same]

theorem pushQuests_spec {memory : QuestMemory} (kept : Kept memory) (index : Nat)
    (quests : List Nat) : (pushQuests memory index quests).1.objects = memory.objects ∧
      Kept (pushQuests memory index quests).1 ∧
      (pushQuests memory index quests).2.flatten =
        (if 0 < index ∧ quests ≠ [] then QUEST_SEPARATOR else []) ++
          utf8 ((words ",\n" ++ QUEST_INDENT).intercalate
            (quests.map fun quest => layout QUEST_INDENT (memory.value quest))) := by
  induction quests generalizing memory index with
  | nil =>
    refine ⟨rfl, kept, ?_⟩
    rw [if_neg (fun both => both.2 rfl)]
    rfl
  | cons quest quests ih =>
    obtain ⟨objects, kept', bytes⟩ := serializedQuest_spec kept quest
    obtain ⟨objects', kept'', flat⟩ := ih kept' (index + 1)
    refine ⟨objects'.trans objects, kept'', ?_⟩
    unfold pushQuests
    dsimp only
    rw [List.flatten_append, List.flatten_cons, flat, bytes, value_congr objects]
    have first : (if 0 < index then [QUEST_SEPARATOR] else []).flatten =
        if 0 < index ∧ quest :: quests ≠ [] then QUEST_SEPARATOR else [] := by
      by_cases later : 0 < index
      · simp [later]
      · simp [later]
    rw [first]
    congr 1
    cases quests with
    | nil => simp [questText, utf8]
    | cons next quests =>
      rw [if_pos ⟨Nat.succ_pos index, List.cons_ne_nil _ _⟩]
      simp only [List.map_cons, List.intercalate_cons_cons, utf8_append, questText, QUEST_SEPARATOR,
        List.append_assoc]

theorem Kept.of_step {memory memory' : QuestMemory} {event : QuestFileEvent} (kept : Kept memory)
    (taken : memory.step event = some memory') : Kept memory' := by
  cases event with
  | create value frozen =>
    cases taken
    intro quest bytes found
    obtain ⟨frozen', rfl⟩ := kept quest bytes found
    have inside : quest < memory.objects.length := by
      by_contra beyond
      unfold QuestMemory.isFrozen at frozen'
      rw [List.getElem?_eq_none (by omega)] at frozen'
      cases frozen'
    unfold QuestMemory.isFrozen QuestMemory.value at *
    dsimp only
    rw [List.getElem?_append_left inside]
    exact ⟨frozen', rfl⟩
  | change quest value =>
    unfold QuestMemory.step at taken
    dsimp only at taken
    split at taken
    · cases taken
    · rename_i thawed
      cases taken
      intro other bytes found
      obtain ⟨frozen, rfl⟩ := kept other bytes found
      have different : quest ≠ other := by
        rintro rfl
        exact thawed frozen
      unfold QuestMemory.isFrozen QuestMemory.value at *
      dsimp only
      rw [List.getElem?_modify_ne _ _ different]
      exact ⟨frozen, rfl⟩
  | freeze quest =>
    cases taken
    intro other bytes found
    obtain ⟨frozen, rfl⟩ := kept other bytes found
    unfold QuestMemory.isFrozen QuestMemory.value at *
    dsimp only
    rw [List.getElem?_modify]
    cases there : memory.objects[other]? with
    | none =>
      rw [there] at frozen
      cases frozen
    | some object =>
      rw [there] at frozen
      by_cases same : quest = other
      · simp [same]
      · simpa [same] using frozen
  | write store uuid =>
    obtain ⟨written, done, rfl⟩ := Option.map_eq_some_iff.mp taken
    unfold questStoreFileChunks at done
    split at done
    · cases done
      exact kept
    · dsimp only at done
      split at done
      · cases done
        exact (pushQuests_spec kept 0 store.quests).2.1
      · cases done

theorem kept_of_reachable {memory : QuestMemory} (reached : questFile.Reachable memory) :
    Kept memory := by
  refine reached.invariant ?_ ?_
  · intro quest bytes found
    cases found
  · intro memory event memory' _ kept _ taken
    exact kept.of_step taken

/-! ## The text around the quests -/

theorem intercalate_around {α : Type} (separator : List α) (front : List (List α)) (lead : List α)
    (back : List (List α)) : ∃ f k, ∀ middle,
      separator.intercalate (front ++ (lead ++ middle) :: back) = f ++ middle ++ k := by
  induction front with
  | nil =>
    cases back with
    | nil => exact ⟨lead, [], fun middle => by simp⟩
    | cons next back =>
      refine ⟨lead, separator ++ separator.intercalate (next :: back), fun middle => ?_⟩
      rw [List.nil_append, List.intercalate_cons_cons]
      simp only [List.append_assoc]
  | cons part front ih =>
    obtain ⟨f, k, around⟩ := ih
    refine ⟨part ++ separator ++ f, k, fun middle => ?_⟩
    have later : front ++ (lead ++ middle) :: back ≠ [] := by simp
    rw [List.cons_append, List.intercalate_cons_of_ne_nil later, around]
    simp only [List.append_assoc]

theorem store_text (store : QuestStoreFile) : ∃ f k, ∀ quests,
    layout [] (.object (store.members quests)) = f ++ layout (words "  ") quests ++ k := by
  obtain ⟨f, k, around⟩ := intercalate_around (words ",\n" ++ words "  ")
    (layoutMembers (words "  ") store.before) (quote (js "quests") ++ words ": ")
    (layoutMembers (words "  ") store.after)
  refine ⟨['\x7b'] ++ words "\n" ++ words "  " ++ f, k ++ words "\n" ++ ['\x7d'], fun quests => ?_⟩
  have members : layoutMembers (words "  ") (store.members quests) =
      layoutMembers (words "  ") store.before ++
        (quote (js "quests") ++ words ": " ++ layout (words "  ") quests) ::
          layoutMembers (words "  ") store.after := by
    rw [layoutMembers_eq, layoutMembers_eq, layoutMembers_eq, QuestStoreFile.members,
      List.map_append, List.map_cons]
  have text : layout [] (.object (store.members quests)) = inBrackets ['\x7b'] ['\x7d'] []
      (layoutMembers ([] ++ words "  ") (store.members quests)) := by rw [layout]
  rw [text, List.nil_append, members]
  unfold inBrackets
  rw [if_neg (by simp), List.nil_append, around]
  simp only [List.append_assoc, List.nil_append]

theorem infix_of_append {separator text : List Char} (filled : separator ≠ []) {tail : List Char}
    (other : ∀ c ∈ tail, c ∉ separator) (inside : separator <:+: text ++ tail) :
    separator <:+: text := by
  induction tail using List.reverseRecOn with
  | nil => rwa [List.append_nil] at inside
  | append_singleton tail c ih =>
    refine ih (fun d listed => other d (List.mem_append_left _ listed)) ?_
    rw [← List.append_assoc] at inside
    rcases List.infix_concat_iff.mp inside with ends | early
    · obtain ⟨front, same⟩ := ends
      have last : separator.getLast filled = c := by
        have lasts := congrArg List.getLast? same
        rw [List.getLast?_append_of_ne_nil _ filled, List.getLast?_concat,
          List.getLast?_eq_getLast_of_ne_nil filled] at lasts
        exact Option.some.inj lasts
      exact absurd (last ▸ List.getLast_mem filled)
        (other c (List.mem_append_right _ List.mem_cons_self))
    · exact early

theorem infix_of_cons {separator text : List Char} (filled : separator ≠ []) {c : Char}
    (other : c ∉ separator) (inside : separator <:+: c :: text) : separator <:+: text := by
  rcases List.infix_cons_iff.mp inside with starts | later
  · cases separator with
    | nil => exact absurd rfl filled
    | cons d separator =>
      obtain ⟨rfl, -⟩ := List.cons_prefix_cons.mp starts
      exact absurd List.mem_cons_self other
  · exact later

/-! ## The chunks -/

/-- The characters of `randomUUID`. -/
def IsUuid (uuid : JsString) : Prop :=
  ∀ c ∈ uuid, (isDigit c || (97 ≤ c && c ≤ 102) || c == 45) = true

/-- The stand-in is not in the text of the store without its quests. -/
def Fresh (store : QuestStoreFile) (uuid : JsString) : Prop :=
  ¬ quote (js "quests-" ++ uuid) <:+: layout [] (.object (store.members (.array [])))

theorem space_notMem_quote {s : JsString} (plain : ∀ c ∈ s, 33 ≤ c.toNat ∧ c.toNat ≤ 122) :
    ' ' ∉ quote s := by
  have units : ∀ c : UInt16, 33 ≤ c.toNat ∧ c.toNat ≤ 122 →
      ' ' ∉ escape c ∧ isHighSurrogate c = false := by
    intro c range
    rw [← UInt16.ofNat_toNat (x := c)]
    generalize c.toNat = n at range
    obtain ⟨low, high⟩ := range
    interval_cases n <;> exact ⟨by decide, rfl⟩
  have body : ' ' ∉ quoteBody s := by
    induction s using quoteBody.induct with
    | case1 => exact List.not_mem_nil
    | case2 c => exact (units c (plain c List.mem_cons_self)).1
    | case3 c d s pair ih =>
      have high := (units c (plain c List.mem_cons_self)).2
      rw [high] at pair
      cases pair
    | case4 c d s pair ih =>
      rw [quoteBody, if_neg pair, List.mem_append]
      rintro (first | rest)
      · exact (units c (plain c List.mem_cons_self)).1 first
      · exact ih (fun e listed => plain e (List.mem_cons_of_mem _ listed)) rest
  simp [quote, body]

theorem placeholder_plain {uuid : JsString} (isUuid : IsUuid uuid) :
    ' ' ∉ quote (js "quests-" ++ uuid) := by
  refine space_notMem_quote fun c inside => ?_
  rcases List.mem_append.mp inside with lead | id
  · have all : ∀ c ∈ js "quests-", 33 ≤ c.toNat ∧ c.toNat ≤ 122 := forall_mem_of_all (by decide)
    exact all c lead
  · have plain := isUuid c id
    simp only [Bool.or_eq_true, isDigit, Bool.and_eq_true, decide_eq_true_eq, beq_iff_eq,
      UInt16.le_iff_toNat_le] at plain
    have bounds : (48 : UInt16).toNat = 48 ∧ (57 : UInt16).toNat = 57 ∧ (97 : UInt16).toNat = 97 ∧
        (102 : UInt16).toNat = 102 := ⟨rfl, rfl, rfl, rfl⟩
    rcases plain with (digit | letter) | rfl
    · omega
    · omega
    · exact ⟨by decide, by decide⟩

theorem splitText_around {separator f k : List Char} (filled : separator ≠ [])
    (blank : ' ' ∉ separator) (newline : '\n' ∉ separator)
    (fresh : ¬ separator <:+: f ++ words "[]" ++ k) :
    splitText separator filled (f ++ (words "[\n    " ++ separator ++ words "\n  ]") ++ k) =
      [f ++ words "[\n    ", words "\n  ]" ++ k] := by
  have front : ¬ separator <:+: f ++ words "[\n   " := by
    intro inside
    have early : separator <:+: (f ++ ['[']) ++ words "\n   " := by simpa [words] using inside
    refine fresh ((infix_of_append filled ?_ early).trans ⟨[], ']' :: k, by simp [words]⟩)
    intro c listed
    have either : c = '\n' ∨ c = ' ' := by simpa [words] using listed
    rcases either with rfl | rfl
    · exact newline
    · exact blank
  have back : ¬ separator <:+: words "\n  ]" ++ k := by
    have text : words "\n  ]" ++ k = '\n' :: ' ' :: ' ' :: ']' :: k := by simp [words]
    rw [text]
    intro inside
    have first := infix_of_cons filled newline inside
    have second := infix_of_cons filled blank first
    have third := infix_of_cons filled blank second
    exact fresh (third.trans ⟨f ++ ['['], [], by simp [words]⟩)
  have whole : f ++ (words "[\n    " ++ separator ++ words "\n  ]") ++ k =
      (f ++ words "[\n   ") ++ ' ' :: (separator ++ (words "\n  ]" ++ k)) := by
    simp [words]
  have found := occurrence_append (words "\n  ]" ++ k) filled blank front
  rw [← whole] at found
  rw [splitText]
  split
  · rename_i none
    rw [found] at none
    cases none
  · rename_i before after some
    rw [found] at some
    cases some
    rw [splitText]
    split
    · simp [words]
    · rename_i some
      rw [occurrence_eq_none back] at some
      cases some

theorem layout_quests (items : List Value) (filled : items ≠ []) :
    layout (words "  ") (.array items) = words "[\n    " ++
      (words ",\n" ++ QUEST_INDENT).intercalate (items.map (layout QUEST_INDENT)) ++
        words "\n  ]" := by
  rw [layout, layoutItems_eq]
  unfold inBrackets
  rw [if_neg (by simpa using filled)]
  simp [words, QUEST_INDENT]

theorem questStoreFileChunks_text {memory : QuestMemory} (kept : Kept memory)
    (store : QuestStoreFile) {uuid : JsString} (isUuid : IsUuid uuid) (fresh : Fresh store uuid) :
    ∃ memory' chunks, questStoreFileChunks memory store uuid = some (memory', chunks) ∧
      chunks.flatten = utf8 (layout []
        (.object (store.members (.array (store.quests.map memory.value))))) := by
  unfold questStoreFileChunks
  by_cases none : store.quests = []
  · rw [if_pos none]
    refine ⟨_, _, rfl, ?_⟩
    rw [none]
    exact List.flatten_singleton
  rw [if_neg none]
  obtain ⟨f, k, around⟩ := store_text store
  unfold Fresh at fresh
  rw [around, show layout (words "  ") (.array []) = words "[]" by rw [layout]; rfl] at fresh
  have parts := splitText_around (quote_ne_nil _) (placeholder_plain isUuid)
    (newline_notMem_quote _) fresh
  have text : layout [] (.object (store.members (.array [.string (js "quests-" ++ uuid)]))) =
      f ++ (words "[\n    " ++ quote (js "quests-" ++ uuid) ++ words "\n  ]") ++ k := by
    rw [around, layout_quests _ (List.cons_ne_nil _ _), List.map_singleton, List.intercalate_singleton,
      show layout QUEST_INDENT (.string (js "quests-" ++ uuid)) = quote (js "quests-" ++ uuid) by
        rw [layout]]
  dsimp only
  rw [text, parts]
  refine ⟨_, _, rfl, ?_⟩
  have pushed := (pushQuests_spec kept 0 store.quests).2.2
  rw [if_neg (fun both => by cases both.1), List.nil_append] at pushed
  rw [around, layout_quests _ (by simpa using none), List.map_map]
  rw [List.flatten_append, List.flatten_cons, List.flatten_singleton, pushed]
  simp only [utf8_append, List.append_assoc]
  rfl

/-- Every write of a run writes the text of the store as it is then. -/
theorem quest_file_faithful {memory : QuestMemory} (reached : questFile.Reachable memory)
    (store : QuestStoreFile) {uuid : JsString} (isUuid : IsUuid uuid) (fresh : Fresh store uuid) :
    ∃ memory' chunks, questStoreFileChunks memory store uuid = some (memory', chunks) ∧
      chunks.flatten = utf8 (layout []
        (.object (store.members (.array (store.quests.map memory.value))))) :=
  questStoreFileChunks_text (kept_of_reachable reached) store isUuid fresh

/-- The memory with one frozen quest. -/
def oneQuest : QuestMemory := ⟨[⟨.object [(js "id", .string (js "q-1"))], true⟩], fun _ => none⟩

theorem quest_file_faithful_one : ∃ memory' chunks,
    questStoreFileChunks oneQuest ⟨[(js "format", .null)], [0], [(js "tags", .array [])]⟩ (js "0") =
      some (memory', chunks) ∧
    chunks.flatten = utf8 (layout [] (.object [(js "format", .null),
      (js "quests", .array [.object [(js "id", .string (js "q-1"))]]), (js "tags", .array [])])) := by
  have reached : questFile.Reachable oneQuest :=
    .step (l := .create (.object [(js "id", .string (js "q-1"))]) true) .start trivial rfl
  have isUuid : IsUuid (js "0") := forall_mem_of_all (by decide)
  refine quest_file_faithful reached ⟨[(js "format", .null)], [0], [(js "tags", .array [])]⟩ isUuid ?_
  unfold Fresh
  decide

end Takode.Quests
