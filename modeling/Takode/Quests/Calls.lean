import Takode.Lib.CallLog
import Takode.Lib.Machine
import Takode.Lib.Processes
import Takode.Quests.Changes

/-!
# Concurrent calls

Any number of calls on one live store. A call takes the lock, reads the store, and
writes what it makes of it, with an `await` in between each time; the lock is exclusive
and writes succeed.
-/

namespace Takode.Quests

open JsString

/-- The store's file and who holds its lock. -/
structure LockedStore where
  store : LiveQuestStore
  lock : Option Nat := none
deriving DecidableEq

/-- What a call does next. -/
inductive Phase
  | waiting
  | reading
  | writing (read written : LiveQuestStore) (outcome : Outcome)
  | ended (result : Except JsString Outcome)
deriving DecidableEq

namespace Phase

/-- The call holds the lock. -/
def holds : Phase → Bool
  | reading | writing _ _ _ => true
  | waiting | ended _ => false

def isEnded : Phase → Bool
  | ended _ => true
  | _ => false

def resolved : Phase → Option Outcome
  | ended (.ok outcome) => some outcome
  | _ => none

end Phase

/-- A call; `now` is what it has read of the clock, and `before` the calls that had ended when it
started. -/
structure Call where
  request : Request
  now : Nat := 0
  before : List Nat := []
  phase : Phase

/-- A call up to its first `await`. -/
def Request.start (request : Request) : Phase :=
  match request.check with
  | .ok _ => .waiting
  | .error error => .ended (.error error)

/-- The call `i` goes on. -/
def Call.resume (getName : JsString → Option JsString) (i now : Nat) (shared : LockedStore)
    (c : Call) : Option (LockedStore × Call) :=
  match c.phase with
  | .waiting =>
    if shared.lock.isNone then some ({ shared with lock := some i }, { c with phase := .reading })
    else none
  | .reading =>
    match c.request.mutate getName now shared.store with
    | .error error =>
      some ({ shared with lock := none }, { c with now, phase := .ended (.error error) })
    | .ok { store := none, result } =>
      some ({ shared with lock := none }, { c with now, phase := .ended (.ok result) })
    | .ok { store := some written, result } =>
      some (shared, { c with now, phase := .writing shared.store written result })
  | .writing read written outcome =>
    match writeLiveQuestStore c.now written read with
    | .ok store => some ({ store, lock := none }, { c with phase := .ended (.ok outcome) })
    | .error error => some ({ shared with lock := none }, { c with phase := .ended (.error error) })
  | .ended _ => none

/-- A call that has resolved. -/
structure Entry where
  index : Nat
  request : Request
  now : Nat
  before : List Nat
  outcome : Outcome

def callView : CallView Call Entry where
  entry i c := c.phase.resolved.map fun outcome => ⟨i, c.request, c.now, c.before, outcome⟩
  index := Entry.index
  before := Entry.before
  prior := Call.before
  ended c := c.phase.isEnded
  index_entry found := by
    obtain ⟨_, _, rfl⟩ := Option.map_eq_some_iff.mp found
    rfl
  before_entry found := by
    obtain ⟨_, _, rfl⟩ := Option.map_eq_some_iff.mp found
    rfl

structure CallRun where
  calls : Processes LockedStore Call
  log : List Entry

inductive CallEvent
  | start (request : Request)
  | resume (i now : Nat)

namespace CallRun

/-- The calls after a step of the call `i`, and the log. -/
def after (s : CallRun) (i : Nat) (calls : Processes LockedStore Call) : CallRun :=
  ⟨calls, callView.logged s.log i s.calls.procs calls.procs⟩

/-- The clock is past the epoch. -/
def step (getName : JsString → Option JsString) (s : CallRun) : CallEvent → Option CallRun
  | .start request =>
    let call : Call :=
      { request, before := callView.endedCalls s.calls.procs, phase := request.start }
    some (s.after s.calls.procs.length (s.calls.spawn call))
  | .resume i now =>
    if 0 < now then (s.calls.stepAt i (Call.resume getName i now)).map (s.after i) else none

end CallRun

def questCalls (getName : JsString → Option JsString) (store : LiveQuestStore) :
    Machine CallRun CallEvent :=
  ⟨⟨⟨⟨store, none⟩, []⟩, []⟩, fun s event => s.step getName event⟩

/-! ## One call after the other -/

namespace Request

/-- The call with no record that was read earlier. -/
def fresh : Request → Request
  | patchQuest questId patch _ => patchQuest questId patch none
  | request => request

/-- The quest that a call edits and its patch of it. -/
def patchOf : Request → Option (JsString × (Quest → Option QuestPatchInput))
  | patchQuest questId patch _ => some (questId, fun _ => some patch)
  | patchQuestForOwner questId _ patch => some (questId, patch)
  | appendQuestFeedback questId entry lastModifiedBy => some (questId, fun current => some {
      feedback := some (current.feedback.getD [] ++ [entry])
      lastModifiedBy })
  | _ => none

end Request

/-- The fields that a patch does not name are as they were. -/
def Unnamed (patch : QuestPatchInput) (current updated : Quest) : Prop :=
  updated = { current with
    updatedAt := updated.updatedAt
    title := if patch.title.isSome then updated.title else current.title
    description := if patch.description.isSome then updated.description else current.description
    tldr := if patch.tldr.isSome then updated.tldr else current.tldr
    tags := if patch.tags.isSome then updated.tags else current.tags
    sessionSpaceSlug :=
      if patch.sessionSpaceSlug.isSome then updated.sessionSpaceSlug else current.sessionSpaceSlug
    relationships :=
      if patch.relationships.isSome then updated.relationships else current.relationships
    feedback := if patch.feedback.isSome then updated.feedback else current.feedback
    verificationInboxUnread :=
      if patch.feedback.isSome then updated.verificationInboxUnread
      else current.verificationInboxUnread
    journeyRuns := if patch.journeyRuns.isSome then updated.journeyRuns else current.journeyRuns
    quizItems := if patch.quizItems.isSome then updated.quizItems else current.quizItems
    rounds := if patch.round.isSome then updated.rounds else current.rounds
    lastModifiedBy :=
      if patch.lastModifiedBy.isSome then updated.lastModifiedBy else current.lastModifiedBy }

/-- A call leaves alone what it does not name: a patch the fields that it does not give, and code
evidence everything but the commits and deliveries. -/
structure FieldsKept (request : Request) (before after : LiveQuestStore) : Prop where
  patched : ∀ questId patchOf current patch, request.patchOf = some (questId, patchOf) →
    getLiveQuestById before questId = some current → patchOf current = some patch →
    ∃ updated, getLiveQuestById after questId = some updated ∧ Unnamed patch current updated
  evidence : ∀ questId owner commitShas delivery current,
    request = .appendQuestCodeCommitEvidenceForOwner questId owner commitShas delivery →
    getLiveQuestById before questId = some current →
    ∃ updated, getLiveQuestById after questId = some updated ∧ updated = { current with
      updatedAt := updated.updatedAt
      commitShas := updated.commitShas
      codeDeliveries := updated.codeDeliveries }

/-- What the calls of a log leave one after another, each with the result that it had. -/
inductive Serial (getName : JsString → Option JsString) (start : LiveQuestStore) :
    List Entry → LiveQuestStore → Prop
  | nil : Serial getName start [] start
  | snoc {log : List Entry} {store store' : LiveQuestStore} {e : Entry}
      (serial : Serial getName start log store)
      (performed : e.request.fresh.perform getName e.now store = .ok (store', e.outcome))
      (kept : FieldsKept e.request store store') : Serial getName start (log ++ [e]) store'

/-- The record that a patch without feedback would mark as unread again. -/
def marksUnread (current : Quest) (patch : QuestPatchInput) : Bool :=
  patch.feedback.isNone && current.verificationInboxUnread ≠ some true &&
    shouldMarkVerificationInboxUnreadFromFeedbackPatch current none

/-- The condition on a call that reads the store: a record that was read earlier is still the quest
as it is stored, and a patch without feedback does not meet a reviewed quest with feedback of agents. -/
def editsFresh (store : LiveQuestStore) (request : Request) : Bool :=
  (match request with
    | .patchQuest questId _ (some current) => current.questId ≠ questId || store.upToDate current
    | _ => true) &&
  request.patchOf.all fun (questId, patchOf) => (getLiveQuestById store questId).all fun current =>
    (patchOf current).all fun patch => !marksUnread current patch

def CallEvent.editsFresh (s : CallRun) : CallEvent → Bool
  | .start _ => true
  | .resume i _ => s.calls.procs[i]?.all fun c =>
    c.phase ≠ .reading || Quests.editsFresh s.calls.shared.store c.request

end Takode.Quests
