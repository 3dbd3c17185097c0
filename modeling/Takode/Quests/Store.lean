import Takode.Quests.Mutations

/-!
# The live quest store

The store that holds the current record of each quest (`quest-store.ts`), and the calls
that change it. The text of the store's file says what the store is, so that reading it
back gives the same value before it is normalized.
-/

namespace Takode.Quests

open JsString

structure LiveQuestStore where
  nextQuestNumber : Nat
  quests : List Quest
deriving DecidableEq

def emptyLiveQuestStore : LiveQuestStore := ⟨1, []⟩

def getQuestRecencyTs (quest : Quest) : Nat :=
  max (max quest.createdAt (quest.updatedAt.getD 0)) (quest.statusChangedAt.getD 0)

def sortLatestQuests (quests : List Quest) : List Quest :=
  quests.insertionSort fun a b => getQuestRecencyTs b ≤ getQuestRecencyTs a

def extractQuestNumber (questId : JsString) : Nat := (questIdDigits questId).elim 0 digitsValue

def computeNextQuestNumber (quests : List Quest) : Nat :=
  quests.foldl (fun maxNumber quest => max maxNumber (extractQuestNumber quest.questId)) 0 + 1

/-- The store once its file is read. -/
def normalizeLiveQuestStore (now : Nat) (parsed : LiveQuestStore) :
    Except JsString LiveQuestStore := do
  let quests := sortLatestQuests (← parsed.quests.mapM (normalizeLiveQuest now))
  let computedNext := computeNextQuestNumber quests
  return ⟨if computedNext ≤ parsed.nextQuestNumber then parsed.nextQuestNumber else computedNext,
    quests⟩

/-- What is written: quests of the store that was read stay as they are. -/
def writeLiveQuestStore (now : Nat) (store previous : LiveQuestStore) :
    Except JsString LiveQuestStore := do
  let quests ← store.quests.mapM fun quest =>
    if quest ∈ previous.quests then pure quest else normalizeLiveQuest now quest
  return ⟨max store.nextQuestNumber (computeNextQuestNumber store.quests), sortLatestQuests quests⟩

def getLiveQuestById (store : LiveQuestStore) (questId : JsString) : Option Quest :=
  store.quests.find? fun quest => quest.questId = questId

/-- The record is the quest as it is stored, apart from what is derived from other quests. -/
def LiveQuestStore.upToDate (store : LiveQuestStore) (current : Quest) : Bool :=
  (getLiveQuestById store current.questId).map stripDerivedQuestRelationships =
    some (stripDerivedQuestRelationships current)

def upsertLiveQuest (now : Nat) (store : LiveQuestStore) (quest : Quest) :
    Except JsString LiveQuestStore := do
  let nextQuest ← normalizeLiveQuest now quest
  let quests := sortLatestQuests
    ((store.quests.filter fun existing => existing.questId ≠ nextQuest.questId) ++ [nextQuest])
  return ⟨max store.nextQuestNumber (computeNextQuestNumber quests), quests⟩

def removeLiveQuest (store : LiveQuestStore) (questId : JsString) : LiveQuestStore :=
  let quests := store.quests.filter fun quest => quest.questId ≠ questId
  ⟨max store.nextQuestNumber (computeNextQuestNumber quests), quests⟩

/-! ## Calls -/

/-- A call that changes the store. -/
inductive Request
  | createQuest (input : QuestCreateInput)
  | patchQuest (questId : JsString) (patch : QuestPatchInput) (current : Option Quest)
  | patchQuestForOwner (questId : JsString) (owner : QuestOwnerRef)
      (patch : Quest → Option QuestPatchInput)
  | appendQuestFeedback (questId : JsString) (entry : QuestFeedbackEntry)
      (lastModifiedBy : Option QuestInvocationProvenance)
  | appendQuestCodeCommitEvidenceForOwner (questId : JsString) (owner : QuestOwnerRef)
      (commitShas : List JsString) (delivery : Option QuestCodeDelivery)
  | transitionQuest (questId : JsString) (input : QuestTransitionInput)
  | claimQuest (questId sessionId : JsString) (options : QuestClaimOptions)
  | cancelQuest (questId : JsString) (notes : Option JsString)
      (provenance : Option QuestInvocationProvenance)
  | deleteQuest (questId : JsString)

/-- `completeQuest` is a transition. -/
def Request.completeQuest (questId : JsString) (items : List QuestVerificationItem)
    (opts : QuestTransitionInput) : Request :=
  .transitionQuest questId {
    status := .done
    verificationItems := some (items.map .item)
    verificationInboxUnread := some true
    sessionId := filled opts.sessionId
    ownerKind := opts.ownerKind
    lastModifiedBy := opts.lastModifiedBy
    commitShas := filled opts.commitShas
    memoryCommitShas := filled opts.memoryCommitShas
    debrief := opts.debrief
    debriefTldr := opts.debriefTldr
    debriefMachine := filled opts.debriefMachine
    recoveryEvent := opts.recoveryEvent }

inductive Outcome
  | quest (quest : Option Quest)
  | deleted (found : Bool)
deriving DecidableEq

/-- What the function under the lock returns; there is no store where nothing is written. -/
structure Mutation where
  store : Option LiveQuestStore
  result : Outcome
deriving DecidableEq

/-- The store with a record that was built, and the record. -/
def Mutation.upsert (now : Nat) (store : LiveQuestStore) (quest : Quest) :
    Except JsString Mutation := do
  return { store := some (← upsertLiveQuest now store quest), result := .quest (some quest) }

/-- The store with a record that was edited, and what is read of it. -/
def Mutation.edit (now : Nat) (store : LiveQuestStore) (quest : Quest) :
    Except JsString Mutation := do
  return {
    store := some (← upsertLiveQuest now store quest)
    result := .quest (some (← normalizeLiveQuest now quest)) }

/-- Nothing is written. -/
def Mutation.keep (quest : Option Quest) : Mutation := { store := none, result := .quest quest }

/-- A change of the quest, if it is there. -/
def Mutation.onQuest (quest : Option Quest) (absent : Mutation)
    (change : Quest → Except JsString Mutation) : Except JsString Mutation :=
  match quest with
  | none => .ok absent
  | some current => change current

theorem Mutation.onQuest_eq_ok {quest : Option Quest} {absent mutation : Mutation}
    {change : Quest → Except JsString Mutation} :
    Mutation.onQuest quest absent change = .ok mutation ↔ (quest = none ∧ mutation = absent) ∨
      ∃ current, quest = some current ∧ change current = .ok mutation := by
  cases quest with
  | none => simp [onQuest, eq_comm]
  | some current => simp [onQuest]

def normalizedQuestOwner (owner : QuestOwnerRef) : Except JsString QuestOwnerRef :=
  match normalizeQuestOwnerRef owner with
  | some owner => .ok owner
  | none => .error (js "A valid quest owner is required")

def claimingQuestOwner (sessionId : JsString) (options : QuestClaimOptions) :
    Except JsString QuestOwnerRef :=
  match normalizeQuestOwnerRef ⟨options.ownerKind.getD .takode, sessionId⟩ with
  | some owner => .ok owner
  | none => .error (js "sessionId is required to claim a quest")

namespace Request

variable (getName : JsString → Option JsString)

/-- What a call checks before it takes the lock. -/
def check : Request → Except JsString Unit
  | createQuest input =>
    require (nonempty input.title).isSome (js "Quest title is required")
  | patchQuestForOwner _ owner _ => (normalizedQuestOwner owner).map fun _ => ()
  | appendQuestCodeCommitEvidenceForOwner _ owner commitShas _ => do
    let _ ← normalizedQuestOwner owner
    let shas ← normalizeCommitShas commitShas
    require (!shas.isEmpty) (js "At least one code commit SHA is required")
  | _ => .ok ()

/-- The function that a call runs under the lock, with the store that it has read. -/
def mutate (now : Nat) (store : LiveQuestStore) : Request → Except JsString Mutation
  | createQuest input => do
    let questId := questIdOf (max store.nextQuestNumber (computeNextQuestNumber store.quests))
    let quest ← buildCreatedQuest questId input true now
    Mutation.upsert now { store with nextQuestNumber := extractQuestNumber questId + 1 } quest
  | patchQuest questId patch current =>
    let read := (current.filter fun quest => quest.questId = questId).or
      (getLiveQuestById store questId)
    Mutation.onQuest (read.map stripDerivedQuestRelationships) (.keep none) fun current => do
      Mutation.edit now store (← applyQuestPatch current questId patch now)
  | patchQuestForOwner questId owner patch =>
    let read := getLiveQuestById store questId
    Mutation.onQuest (read.map stripDerivedQuestRelationships) (.keep none) fun current => do
      let normalizedOwner ← normalizedQuestOwner owner
      assertQuestMutationOwner current normalizedOwner (js "edit")
      match patch current with
      | none => return .keep (some (← normalizeLiveQuest now current))
      | some patch => Mutation.edit now store (← applyQuestPatch current questId patch now)
  | appendQuestFeedback questId entry lastModifiedBy =>
    let read := getLiveQuestById store questId
    Mutation.onQuest (read.map stripDerivedQuestRelationships) (.keep none) fun current => do
      let patch : QuestPatchInput := {
        feedback := some (current.feedback.getD [] ++ [entry])
        lastModifiedBy }
      Mutation.edit now store (← applyQuestPatch current questId patch now)
  | appendQuestCodeCommitEvidenceForOwner questId owner commitShas delivery =>
    let read := getLiveQuestById store questId
    Mutation.onQuest (read.map stripDerivedQuestRelationships) (.keep none) fun current => do
      let normalizedOwner ← normalizedQuestOwner owner
      let normalizedCommitShas ← normalizeCommitShas commitShas
      match ← appendCodeEvidence current normalizedOwner normalizedCommitShas delivery now with
      | none => return .keep (some current)
      | some updated => Mutation.edit now store updated
  | transitionQuest questId input =>
    Mutation.onQuest (getLiveQuestById store questId) (.keep none) fun current => do
      Mutation.upsert now store (← buildTransitionedQuest current input true now)
  | claimQuest questId sessionId options =>
    Mutation.onQuest (getLiveQuestById store questId) (.keep none) fun current => do
      let nextOwner ← claimingQuestOwner sessionId options
      let existing := store.quests.find? fun quest =>
        quest.status = .inProgress && sameQuestOwner (getQuestOwner quest) (some nextOwner)
      match ← buildQuestClaimTransitionInput getName current nextOwner
          (options.leaderSessionId.map trim) options existing with
      | none => return .keep (some current)
      | some input => Mutation.upsert now store (← buildTransitionedQuest current input true now)
  | cancelQuest questId notes provenance =>
    Mutation.onQuest (getLiveQuestById store questId) { store := some store, result := .quest none }
      fun current => do
        Mutation.upsert now store (← buildCancelledQuest current notes true provenance now)
  | deleteQuest questId =>
    Mutation.onQuest (getLiveQuestById store questId) { store := some store, result := .deleted false }
      fun _ => .ok { store := some (removeLiveQuest store questId), result := .deleted true }

/-- `mutateLiveQuestStore`: the store after the call, and its result. -/
def perform (now : Nat) (store : LiveQuestStore) (request : Request) :
    Except JsString (LiveQuestStore × Outcome) := do
  request.check
  let mutation ← request.mutate getName now store
  match mutation.store with
  | some store' => return (← writeLiveQuestStore now store' store, mutation.result)
  | none => return (store, mutation.result)

end Request

end Takode.Quests
