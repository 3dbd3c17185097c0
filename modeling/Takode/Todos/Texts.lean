import Takode.Lib.Json

/-!
# The texts of a to-do list

`todo-markdown.ts`, `todo-due.ts` and the `normalize` functions of `todo-store.ts`. A value that
may be anything is a JSON value, `none` where it is undefined.
-/

namespace Takode.Todos

open JsString

inductive TodoErrorCode
  | invalid
  | notFound
  | conflict
  | unsupportedSchema
  | corruptStore
deriving DecidableEq

structure TodoStoreError where
  message : JsString
  code : TodoErrorCode
deriving DecidableEq

/-- Throws where the condition holds. -/
def refuse (condition : Bool) (code : TodoErrorCode) (message : JsString) :
    Except TodoStoreError Unit :=
  if condition then .error ⟨message, code⟩ else .ok ()

def MAX_TITLE_LENGTH : Nat := 500
def MAX_LEGACY_DETAILS_LENGTH : Nat := 50000
def MAX_MARKDOWN_LENGTH : Nat := MAX_TITLE_LENGTH + 1 + MAX_LEGACY_DETAILS_LENGTH
def MAX_CATEGORY_NAME_LENGTH : Nat := 120

/-- The lines of a text, each with the line break that ends it. -/
def lines : JsString → List (JsString × JsString)
  | [] => [([], [])]
  | c :: rest =>
    match lines rest with
    | [] => []
    | (line, eol) :: more =>
      if c = 10 || (c = 13 && rest.head? ≠ some 10) then ([], [c]) :: (line, eol) :: more
      else if c = 13 then ([], c :: eol) :: more
      else (c :: line, eol) :: more

structure TitleBounds where
  start : Nat
  stop : Nat
  afterLine : Nat
  eol : JsString

def findTitleFrom (index : Nat) : List (JsString × JsString) → Option TitleBounds
  | [] => none
  | (line, eol) :: more =>
    if (trim line).isEmpty then findTitleFrom (index + line.length + eol.length) more
    else some ⟨index, index + line.length, index + line.length + eol.length, eol⟩

def findTodoTitleBounds (markdown : JsString) : Option TitleBounds :=
  findTitleFrom 0 (lines markdown)

/-- The `titleMarkdown` of `deriveTodoMarkdown`. -/
def deriveTitle (markdown : JsString) : JsString :=
  match findTodoTitleBounds markdown with
  | none => []
  | some bounds => trim ((markdown.drop bounds.start).take (bounds.stop - bounds.start))

def combineLegacyTodoMarkdown (titleMarkdown : JsString) : Option JsString → JsString
  | none => titleMarkdown
  | some detailsMarkdown => titleMarkdown ++ [10] ++ detailsMarkdown

/-- `value == null || value === ""`. -/
def isBlank : Option JsonValue → Bool
  | none | some .null => true
  | some (.string text) => text.isEmpty
  | _ => false

/-- `typeof value === "string"`. -/
def requireString (value : Option JsonValue) (message : JsString) :
    Except TodoStoreError JsString :=
  match value.bind (·.asString) with
  | some text => .ok text
  | none => .error ⟨message, .invalid⟩

def normalizeMarkdown (value : Option JsonValue) : Except TodoStoreError JsString := do
  let text ← requireString value (js "Markdown is required")
  refuse (MAX_MARKDOWN_LENGTH < text.length) .invalid
    (js "Markdown must be at most " ++ decimal MAX_MARKDOWN_LENGTH ++ js " characters")
  let title := deriveTitle text
  refuse title.isEmpty .invalid (js "Markdown needs a non-empty title line")
  refuse (MAX_TITLE_LENGTH < title.length) .invalid
    (js "The derived title must be at most " ++ decimal MAX_TITLE_LENGTH ++ js " characters")
  return text

def normalizeLegacyTitle (value : Option JsonValue) : Except TodoStoreError JsString := do
  let text ← requireString value (js "Title Markdown is required")
  let title := trim text
  refuse title.isEmpty .invalid (js "Title Markdown is required")
  refuse (title.any fun c => c = 13 || c = 10) .invalid
    (js "Title Markdown must stay on one line")
  refuse (MAX_TITLE_LENGTH < title.length) .invalid
    (js "Title Markdown must be at most " ++ decimal MAX_TITLE_LENGTH ++ js " characters")
  return title

def normalizeLegacyDetails (value : Option JsonValue) :
    Except TodoStoreError (Option JsString) := do
  if isBlank value then return none
  let text ← requireString value (js "Details Markdown must be a string")
  let details := trim text
  if details.isEmpty then return none
  refuse (MAX_LEGACY_DETAILS_LENGTH < details.length) .invalid
    (js "Details Markdown must be at most " ++ decimal MAX_LEGACY_DETAILS_LENGTH ++
      js " characters")
  return some details

/-- `/^q-\d+$/`. -/
def isQuestId (id : JsString) : Bool :=
  id.startsWith (js "q-") && !(id.drop 2).isEmpty && (id.drop 2).all isDigit

def normalizeQuestIds (value : Option JsonValue) (label : JsString) :
    Except TodoStoreError (List JsString) :=
  match value with
  | none | some .null => .ok []
  | some (.array entries) =>
    let ids := entries.map fun entry => ((entry.asString).map trim).getD []
    match ids.find? fun id => !isQuestId id with
    | some invalid =>
      .error ⟨js "Invalid quest ID: " ++ (if invalid.isEmpty then js "(empty)" else invalid),
        .invalid⟩
    | none => .ok ids.eraseDups
  | _ => .error ⟨label ++ js " must be an array of quest IDs", .invalid⟩

def daysInMonth (year month : Nat) : Nat :=
  if month = 2 then
    if year % 4 = 0 && (year % 100 ≠ 0 || year % 400 = 0) then 29 else 28
  else if month ∈ [4, 6, 9, 11] then 30 else 31

/-- Whether `new Date(year, month - 1, day)` keeps the parts: it takes a year below 100 for one of the
last century. -/
def isCalendarDate (year month day : Nat) : Bool :=
  100 ≤ year && 1 ≤ month && month ≤ 12 && 1 ≤ day && day ≤ daysInMonth year month

/-- A due date with its digits made zeros, which no other character is. -/
def duePattern (value : JsString) : JsString := value.map fun c => if isDigit c then 48 else c

def isValidTodoDue (value : JsString) : Bool :=
  let part (start length : Nat) := digitsValue ((value.drop start).take length)
  if duePattern value = js "0000-00-00" then isCalendarDate (part 0 4) (part 5 2) (part 8 2)
  else if duePattern value = js "0000-00-00T00:00" then
    isCalendarDate (part 0 4) (part 5 2) (part 8 2) && part 11 2 ≤ 23 && part 14 2 ≤ 59
  else false

def normalizeDue (value : Option JsonValue) : Except TodoStoreError (Option JsString) :=
  if isBlank value then .ok none
  else
    match (value.bind (·.asString)).filter isValidTodoDue with
    | some due => .ok (some due)
    | none => .error ⟨js "Due must be YYYY-MM-DD or YYYY-MM-DDTHH:MM", .invalid⟩

structure TodoItemLinkInput where
  addQuestIds : Option JsonValue
  removeQuestIds : Option JsonValue

/-- The quest ids to add and those to remove. -/
def normalizeLinkInput (input : TodoItemLinkInput) :
    Except TodoStoreError (List JsString × List JsString) := do
  let addQuestIds ← normalizeQuestIds input.addQuestIds (js "addQuestIds")
  let removeQuestIds ← normalizeQuestIds input.removeQuestIds (js "removeQuestIds")
  refuse (addQuestIds.isEmpty && removeQuestIds.isEmpty) .invalid
    (js "Provide at least one quest ID to link or unlink")
  refuse (addQuestIds.any fun id => removeQuestIds.contains id) .invalid
    (js "A quest cannot be linked and unlinked in the same change")
  return (addQuestIds, removeQuestIds)

/-- The ways to give the text of an item: `markdown`, or the older title and details. -/
structure TodoItemEditInput where
  markdown : Option JsonValue
  titleMarkdown : Option JsonValue
  detailsMarkdown : Option JsonValue

namespace TodoItemEditInput

variable (input : TodoItemEditInput)

def hasLegacy : Bool := input.titleMarkdown.isSome || input.detailsMarkdown.isSome

end TodoItemEditInput

def resolveCreateMarkdown (input : TodoItemEditInput) : Except TodoStoreError JsString := do
  refuse (input.markdown.isSome && input.hasLegacy) .invalid
    (js "Use markdown or legacy title/details fields, not both")
  if input.markdown.isSome then normalizeMarkdown input.markdown
  else
    let title ← normalizeLegacyTitle input.titleMarkdown
    let details ← normalizeLegacyDetails input.detailsMarkdown
    normalizeMarkdown (some (.string (combineLegacyTodoMarkdown title details)))

/-- The bounds of the title of a stored text. -/
def requireTitle (markdown : JsString) : Except TodoStoreError TitleBounds :=
  match findTodoTitleBounds markdown with
  | some bounds => .ok bounds
  | none => .error ⟨js "Stored Markdown has no title line", .corruptStore⟩

def replaceTitle (markdown : JsString) : Option JsonValue → Except TodoStoreError JsString
  | none => .ok markdown
  | some titleMarkdown => do
    let bounds ← requireTitle markdown
    let title ← normalizeLegacyTitle (some titleMarkdown)
    return markdown.take bounds.start ++ title ++ markdown.drop bounds.stop

def replaceDetails (markdown : JsString) : Option JsonValue → Except TodoStoreError JsString
  | none => .ok markdown
  | some detailsMarkdown => do
    let bounds ← requireTitle markdown
    let eol := if !bounds.eol.isEmpty then bounds.eol
      else if [13, 10] <:+: markdown then [13, 10] else [10]
    match ← normalizeLegacyDetails (some detailsMarkdown) with
    | some details => return markdown.take bounds.stop ++ eol ++ details
    | none => return markdown.take bounds.stop

def applyLegacyTodoMarkdownEdit (markdown : JsString) (input : TodoItemEditInput) :
    Except TodoStoreError JsString := do
  refuse (!input.hasLegacy) .invalid (js "No Markdown edit was provided")
  let next ← replaceTitle markdown input.titleMarkdown
  let next ← replaceDetails next input.detailsMarkdown
  normalizeMarkdown (some (.string next))

def resolveEditMarkdown (current : JsString) (input : TodoItemEditInput) :
    Except TodoStoreError JsString := do
  refuse (input.markdown.isSome && input.hasLegacy) .invalid
    (js "Use markdown or legacy title/details fields, not both")
  if input.markdown.isSome then normalizeMarkdown input.markdown
  else applyLegacyTodoMarkdownEdit current input

/-- `replace(/\s+/g, " ")`, of which the last character was a space or not. -/
def collapseSpaces (inside : Bool) : JsString → JsString
  | [] => []
  | c :: rest =>
    if !isSpace c then c :: collapseSpaces false rest
    else if inside then collapseSpaces true rest
    else 32 :: collapseSpaces true rest

def normalizeCategoryName (value : Option JsonValue) : Except TodoStoreError JsString := do
  let text ← requireString value (js "Category name is required")
  let name := collapseSpaces false (trim text)
  refuse name.isEmpty .invalid (js "Category name is required")
  refuse (MAX_CATEGORY_NAME_LENGTH < name.length) .invalid
    (js "Category name must be at most " ++ decimal MAX_CATEGORY_NAME_LENGTH ++ js " characters")
  return name

example : normalizeMarkdown (some (.string (js "\n Call the bank\r\ntoday"))) =
    .ok (js "\n Call the bank\r\ntoday") := by
  decide +kernel

example : applyLegacyTodoMarkdownEdit (js "\n Old \r\nrest")
    ⟨none, some (.string (js " New ")), some (.string (js "more"))⟩ =
      .ok (js "\nNew\r\nmore") := by
  decide +kernel

example : [js "2024-02-29", js "2023-02-29", js "0099-01-01", js "2024-12-01T24:00"].map
    isValidTodoDue = [true, false, false, false] := by
  decide +kernel

end Takode.Todos
