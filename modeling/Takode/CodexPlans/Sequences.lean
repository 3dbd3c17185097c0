import Takode.CodexPlans.Replays

/-!
# Sequence numbers of replayed plans

The plans of a key are numbered in the order of the history, and after each message the newest plan in its
scope is its own.
-/

namespace Takode.CodexPlans

open JsString JsonText ThreadRouting

/-! ## What is said of a history -/

/-- The tool id of a plan, and what stands in it. -/
structure PlanNumber where
  toolUseId : JsString
  key : JsString
  sequence : Nat
deriving DecidableEq

def planNumber : ContentBlock → Option PlanNumber
  | .toolUse block =>
    if isPlanBlock (.toolUse block) ∧ block.todos.isSome then
      (matchPlanId block.id).map fun parts => ⟨block.id, parts.1, parts.2⟩
    else none
  | .other => none

/-- The plans of a message, in all of its blocks. -/
def AssistantMessage.planNumbers (message : AssistantMessage) : List PlanNumber :=
  message.content.filterMap planNumber

def HistoryEntry.planNumbers : HistoryEntry → List PlanNumber
  | .assistant message => message.planNumbers
  | .other => []

def planNumbers (history : List HistoryEntry) : List PlanNumber := history.flatMap HistoryEntry.planNumbers

/-- The message has at most one block for a plan. -/
def AssistantMessage.HasOnePlan (message : AssistantMessage) : Prop :=
  message.content.countP isPlanBlock ≤ 1

/-- The plan of an entry, if it has the key and the scope of a message. -/
def HistoryEntry.planInScope (message : AssistantMessage) (key : JsString) :
    HistoryEntry → Option SyntheticPlanState
  | .assistant entry => (extractSyntheticPlan entry).filter fun plan =>
      plan.key = key && samePlanReplayScope entry message
  | .other => none

/-- The todos of the newest plan that has the key and the scope of a message. -/
def newestTodos (history : List HistoryEntry) (message : AssistantMessage) (key : JsString) :
    Option (List Value) :=
  (history.reverse.findSome? (HistoryEntry.planInScope message key)).map (·.todos)

/-! ## Ids -/

theorem matchPlanId_eq_some {id key : JsString} {sequence : Nat}
    (found : matchPlanId id = some (key, sequence)) :
    startsWith id PLAN_PREFIX = true ∧ key ≠ [] ∧ key.all (!isLineTerminator ·) = true := by
  unfold matchPlanId at found
  dsimp only at found
  split at found
  · rename_i reversed shape
    split at found
    · rename_i good
      cases found
      refine ⟨good.1, fun empty => good.2.2.1 (List.reverse_eq_nil_iff.mp empty), ?_⟩
      rw [List.all_reverse]
      exact good.2.2.2
    · cases found
  · cases found

theorem startsWith_planToolUseId (key : JsString) (sequence : Nat) :
    startsWith (planToolUseId key sequence) PLAN_PREFIX = true := by
  unfold startsWith planToolUseId
  rw [List.append_assoc, List.append_assoc, List.take_left, beq_self_eq_true]

theorem matchPlanId_planToolUseId {key : JsString} (sequence : Nat) (filled : key ≠ [])
    (plain : key.all (!isLineTerminator ·) = true) :
    matchPlanId (planToolUseId key sequence) = some (key, sequence) := by
  have rest : ((planToolUseId key sequence).drop PLAN_PREFIX.length).reverse =
      (decimal sequence).reverse ++ 45 :: key.reverse := by
    unfold planToolUseId
    rw [List.append_assoc, List.append_assoc, List.drop_left]
    simp [js]
  have digits : ∀ c ∈ (decimal sequence).reverse, isDigit c = true := fun c inside =>
    isDigit_of_mem_decimal (List.mem_reverse.mp inside)
  have taken : ((decimal sequence).reverse ++ 45 :: key.reverse).takeWhile isDigit =
      (decimal sequence).reverse := by
    rw [List.takeWhile_append_of_pos digits, List.takeWhile_cons_of_neg (by decide), List.append_nil]
  have dropped : ((decimal sequence).reverse ++ 45 :: key.reverse).dropWhile isDigit =
      45 :: key.reverse := by
    rw [List.dropWhile_append_of_pos digits, List.dropWhile_cons_of_neg (by decide)]
  unfold matchPlanId
  dsimp only
  rw [rest, taken, dropped]
  have filled' : key.reverse ≠ [] := fun empty => filled (List.reverse_eq_nil_iff.mp empty)
  have digits' : (decimal sequence).reverse.reverse ≠ [] := by
    rw [List.reverse_reverse]
    exact decimal_ne_nil sequence
  have plain' : key.reverse.all (!isLineTerminator ·) = true := by rwa [List.all_reverse]
  refine (if_pos ⟨startsWith_planToolUseId key sequence, digits', filled', plain'⟩).trans ?_
  rw [List.reverse_reverse, List.reverse_reverse, digitsValue_decimal]

/-! ## Plans of a message -/

section Plans

variable {message : AssistantMessage} {plan : SyntheticPlanState}

theorem planOf_eq_some {block : ToolUseBlock} {blockIndex : Nat}
    (found : planOf block blockIndex = some plan) :
    plan.block = block ∧ plan.blockIndex = blockIndex ∧
      matchPlanId block.id = some (plan.key, plan.sequence) ∧ block.todos = some plan.todos := by
  obtain ⟨parts, matched, found⟩ := Option.bind_eq_some_iff.mp found
  obtain ⟨todos, array, rfl⟩ := Option.map_eq_some_iff.mp found
  exact ⟨rfl, rfl, matched, array⟩

theorem extract_eq_some (found : extractSyntheticPlan message = some plan) :
    message.content.findIdx? isPlanBlock = some plan.blockIndex ∧
      message.content[plan.blockIndex]? = some (.toolUse plan.block) ∧
      matchPlanId plan.block.id = some (plan.key, plan.sequence) ∧ plan.block.todos = some plan.todos := by
  obtain ⟨index, first, found⟩ := Option.bind_eq_some_iff.mp found
  split at found
  · rename_i block there
    obtain ⟨rfl, rfl, matched, array⟩ := planOf_eq_some found
    exact ⟨first, there, matched, array⟩
  · cases found

theorem isPlanBlock_at {index : Nat} {block : ContentBlock}
    (first : message.content.findIdx? isPlanBlock = some index)
    (there : message.content[index]? = some block) : isPlanBlock block = true := by
  obtain ⟨below, holds, -⟩ := List.findIdx?_eq_some_iff_getElem.mp first
  rw [List.getElem?_eq_getElem below] at there
  cases there
  exact holds

theorem planNumber_of_plain {block : ContentBlock} (plain : isPlanBlock block = false) :
    planNumber block = none := by
  cases block with
  | toolUse block => exact if_neg fun both => by rw [plain] at both; cases both.1
  | other => rfl

theorem number_extract (message : AssistantMessage) :
    (extractSyntheticPlan message).map (fun plan => (⟨plan.block.id, plan.key, plan.sequence⟩ : PlanNumber)) =
      (message.content.find? isPlanBlock).bind planNumber := by
  rw [List.find?_eq_bind_findIdx?_getElem?]
  unfold extractSyntheticPlan
  cases first : message.content.findIdx? isPlanBlock with
  | none => rfl
  | some index =>
    rw [Option.bind_some, Option.bind_some]
    cases there : message.content[index]? with
    | none => rfl
    | some block =>
      have holds := isPlanBlock_at first there
      cases block with
      | other => cases holds
      | toolUse block =>
        rw [Option.bind_some]
        unfold planOf planNumber
        dsimp only
        cases todos : block.todos with
        | none =>
          rw [if_neg fun both => by cases both.2]
          cases matchPlanId block.id <;> rfl
        | some todos =>
          rw [if_pos ⟨holds, rfl⟩]
          cases matchPlanId block.id <;> rfl

theorem planNumbers_eq (single : message.HasOnePlan) :
    message.planNumbers = ((extractSyntheticPlan message).map fun plan =>
      (⟨plan.block.id, plan.key, plan.sequence⟩ : PlanNumber)).toList := by
  rw [number_extract]
  unfold AssistantMessage.HasOnePlan at single
  unfold AssistantMessage.planNumbers
  generalize message.content = content at single
  induction content with
  | nil => rfl
  | cons block rest ih =>
    by_cases holds : isPlanBlock block = true
    · rw [List.countP_cons_of_pos holds] at single
      have others : ∀ later ∈ rest, planNumber later = none := by
        intro later inside
        refine planNumber_of_plain (Bool.eq_false_iff.mpr ?_)
        exact List.countP_eq_zero.mp (by omega) later inside
      have none : rest.filterMap planNumber = [] := List.filterMap_eq_nil_iff.mpr others
      rw [List.find?_cons_of_pos holds, Option.bind_some, List.filterMap_cons, none]
      cases planNumber block <;> rfl
    · rw [List.countP_cons_of_neg holds] at single
      rw [List.find?_cons_of_neg holds, List.filterMap_cons,
        planNumber_of_plain (Bool.eq_false_iff.mpr holds)]
      exact ih single

end Plans

/-! ## Rekeying -/

section Rekeying

variable {message : AssistantMessage} {plan : SyntheticPlanState} (sequence : Nat)
  (found : extractSyntheticPlan message = some plan)

include found

theorem getElem?_rekeyed (index : Nat) :
    (rekeyed message plan sequence).content[index]? =
      if index = plan.blockIndex then
        some (.toolUse { plan.block with id := planToolUseId plan.key sequence })
      else message.content[index]? := by
  have there := (extract_eq_some found).2.1
  unfold rekeyed
  dsimp only
  rw [List.getElem?_mapIdx]
  split
  · rename_i same
    rw [same, there]
    rfl
  · rename_i other
    cases message.content[index]? with
    | none => rfl
    | some block => rfl

theorem map_isPlanBlock_rekeyed :
    (rekeyed message plan sequence).content.map isPlanBlock = message.content.map isPlanBlock := by
  obtain ⟨first, there, -⟩ := extract_eq_some found
  have holds := isPlanBlock_at first there
  refine List.ext_getElem? fun index => ?_
  rw [List.getElem?_map, List.getElem?_map, getElem?_rekeyed sequence found]
  split
  · rename_i same
    rw [same, there, Option.map_some, Option.map_some, holds]
    unfold isPlanBlock at holds ⊢
    rw [Bool.and_eq_true] at holds
    dsimp only
    rw [holds.1, startsWith_planToolUseId, Bool.and_true]
  · rfl

theorem hasOnePlan_rekeyed (single : message.HasOnePlan) : (rekeyed message plan sequence).HasOnePlan := by
  have count : ∀ content : List ContentBlock,
      content.countP isPlanBlock = (content.map isPlanBlock).countP id := by
    intro content
    rw [List.countP_map]
    rfl
  unfold AssistantMessage.HasOnePlan at single ⊢
  rw [count, map_isPlanBlock_rekeyed sequence found, ← count]
  exact single

theorem extract_rekeyed :
    extractSyntheticPlan (rekeyed message plan sequence) =
      some { plan with
        block := { plan.block with id := planToolUseId plan.key sequence }
        sequence } := by
  obtain ⟨first, there, matched, array⟩ := extract_eq_some found
  obtain ⟨-, filled, plain⟩ := matchPlanId_eq_some matched
  have first' : (rekeyed message plan sequence).content.findIdx? isPlanBlock = some plan.blockIndex := by
    have mapped : ∀ content : List ContentBlock,
        content.findIdx? isPlanBlock = (content.map isPlanBlock).findIdx? id := by
      intro content
      rw [List.findIdx?_map]
      rfl
    rw [mapped, map_isPlanBlock_rekeyed sequence found, ← mapped, first]
  unfold extractSyntheticPlan
  rw [first', Option.bind_some, getElem?_rekeyed sequence found, if_pos rfl]
  dsimp only
  unfold planOf
  rw [matchPlanId_planToolUseId sequence filled plain, Option.bind_some, array]
  rfl

end Rekeying

/-! ## Scopes -/

theorem samePlanReplayScope_self (message : AssistantMessage) :
    samePlanReplayScope message message = true := by
  simp [samePlanReplayScope, sameCodexNativeSubagentOwnership, sameThreadRoute]

theorem samePlanReplayScope_rekeyed (message : AssistantMessage) (plan : SyntheticPlanState) (sequence : Nat) :
    samePlanReplayScope (rekeyed message plan sequence) message = true :=
  samePlanReplayScope_self message

/-! ## The scan -/

section Scanning

variable {message : AssistantMessage} {key : JsString} {entry : HistoryEntry} {scan : PlanScan}

theorem scanStep_latest : (scanStep message key scan entry).latestSignature =
    scan.latestSignature.or ((entry.planInScope message key).map (·.signature)) := by
  cases entry with
  | other => exact Option.or_none.symm
  | assistant entry =>
    unfold scanStep HistoryEntry.planInScope
    dsimp only
    cases extractSyntheticPlan entry with
    | none => exact Option.or_none.symm
    | some existing =>
      dsimp only
      by_cases named : existing.key = key
      · rw [if_neg (not_not.mpr named), Option.filter_some]
        by_cases same : samePlanReplayScope entry message = true
        · rw [if_pos same, if_pos (by simp [named, same])]
          rfl
        · rw [if_neg same, if_neg (by simp [same])]
          exact Option.or_none.symm
      · rw [if_pos named, Option.filter_some, if_neg (by simp [named])]
        exact Option.or_none.symm

theorem maxSequence_le_scanStep : scan.maxSequence ≤ (scanStep message key scan entry).maxSequence := by
  cases entry with
  | other => exact Nat.le_refl _
  | assistant entry =>
    unfold scanStep
    dsimp only
    split
    · exact Nat.le_refl _
    · split
      · exact Nat.le_refl _
      · exact Nat.le_max_left _ _

theorem sequence_le_scanStep {entry : AssistantMessage} {existing : SyntheticPlanState}
    (found : extractSyntheticPlan entry = some existing) (named : existing.key = key) :
    existing.sequence ≤ (scanStep message key scan (.assistant entry)).maxSequence := by
  unfold scanStep
  dsimp only
  rw [found]
  dsimp only
  rw [if_neg (not_not.mpr named)]
  exact Nat.le_max_right _ _

theorem scanStep_le {bound : Nat} (known : scan.maxSequence ≤ bound)
    (entries : ∀ message existing, entry = .assistant message →
      extractSyntheticPlan message = some existing → existing.sequence ≤ bound) :
    (scanStep message key scan entry).maxSequence ≤ bound := by
  cases entry with
  | other => exact known
  | assistant entry =>
    unfold scanStep
    dsimp only
    cases found : extractSyntheticPlan entry with
    | none => exact known
    | some existing =>
      dsimp only
      split
      · exact known
      · exact Nat.max_le.mpr ⟨known, entries entry existing rfl found⟩

theorem foldl_scan_latest (entries : List HistoryEntry) (scan : PlanScan) :
    (entries.foldl (scanStep message key) scan).latestSignature =
      scan.latestSignature.or
        ((entries.findSome? (HistoryEntry.planInScope message key)).map (·.signature)) := by
  induction entries generalizing scan with
  | nil => exact Option.or_none.symm
  | cons entry rest ih =>
    rw [List.foldl_cons, ih, scanStep_latest, List.findSome?_cons, Option.or_assoc]
    cases entry.planInScope message key <;> rfl

theorem foldl_scan_mono (entries : List HistoryEntry) (scan : PlanScan) :
    scan.maxSequence ≤ (entries.foldl (scanStep message key) scan).maxSequence := by
  induction entries generalizing scan with
  | nil => exact Nat.le_refl _
  | cons entry rest ih => exact Nat.le_trans maxSequence_le_scanStep (ih _)

theorem sequence_le_foldl {entries : List HistoryEntry} {scan : PlanScan} {entry : AssistantMessage}
    {existing : SyntheticPlanState} (listed : .assistant entry ∈ entries)
    (found : extractSyntheticPlan entry = some existing) (named : existing.key = key) :
    existing.sequence ≤ (entries.foldl (scanStep message key) scan).maxSequence := by
  induction entries generalizing scan with
  | nil => cases listed
  | cons first rest ih =>
    rcases List.mem_cons.mp listed with rfl | later
    · exact Nat.le_trans (sequence_le_scanStep found named) (foldl_scan_mono rest _)
    · exact ih later

theorem foldl_scan_le {bound : Nat} {entries : List HistoryEntry} {scan : PlanScan}
    (known : scan.maxSequence ≤ bound)
    (all : ∀ message existing, .assistant message ∈ entries →
      extractSyntheticPlan message = some existing → existing.sequence ≤ bound) :
    (entries.foldl (scanStep message key) scan).maxSequence ≤ bound := by
  induction entries generalizing scan with
  | nil => exact known
  | cons entry rest ih =>
    refine ih (scanStep_le known ?_) ?_
    · intro message existing same found
      exact all message existing (same ▸ List.mem_cons_self) found
    · intro message existing listed found
      exact all message existing (List.mem_cons_of_mem entry listed) found

end Scanning

theorem scanHistory_latest (history : List HistoryEntry) (message : AssistantMessage) (key : JsString) :
    (scanHistory history message key).latestSignature =
      (newestTodos history message key).map fun todos => compact (.array todos) := by
  unfold scanHistory newestTodos
  rw [foldl_scan_latest, Option.none_or, Option.map_map]
  rfl

theorem sequence_le_scanHistory {history : List HistoryEntry} (message : AssistantMessage)
    {entry : AssistantMessage} {existing : SyntheticPlanState} (listed : .assistant entry ∈ history)
    (found : extractSyntheticPlan entry = some existing) :
    existing.sequence ≤ (scanHistory history message existing.key).maxSequence :=
  sequence_le_foldl (List.mem_reverse.mpr listed) found rfl

theorem scanHistory_le {bound : Nat} {history : List HistoryEntry} (message : AssistantMessage)
    (key : JsString) (all : ∀ message existing, .assistant message ∈ history →
      extractSyntheticPlan message = some existing → existing.sequence ≤ bound) :
    (scanHistory history message key).maxSequence ≤ bound :=
  foldl_scan_le (Nat.zero_le _) fun message existing listed =>
    all message existing (List.mem_reverse.mp listed)

theorem newestTodos_concat (history : List HistoryEntry) {message entry : AssistantMessage} {key : JsString}
    {plan : SyntheticPlanState} (found : extractSyntheticPlan entry = some plan) (named : plan.key = key)
    (same : samePlanReplayScope entry message = true) :
    newestTodos (history ++ [.assistant entry]) message key = some plan.todos := by
  have inScope : HistoryEntry.planInScope message key (.assistant entry) = some plan := by
    unfold HistoryEntry.planInScope
    dsimp only
    rw [found, Option.filter_some, if_pos (by simp [named, same])]
  unfold newestTodos
  rw [List.reverse_append, List.reverse_singleton, List.singleton_append, List.findSome?_cons, inScope]
  rfl

theorem latest_eq_signature {history : List HistoryEntry} {message : AssistantMessage}
    {plan : SyntheticPlanState} (same : (scanHistory history message plan.key).latestSignature =
      some plan.signature) : newestTodos history message plan.key = some plan.todos := by
  rw [scanHistory_latest] at same
  obtain ⟨todos, newest, text⟩ := Option.map_eq_some_iff.mp same
  have value : Value.array todos = .array plan.todos := compact_injective text
  rw [newest, Value.array.inj value]

/-! ## Runs -/

/-- What holds of a history that was received: its plans are in the order of their numbers, of which none is
larger than a bound. -/
structure Ordered (history : List HistoryEntry) (bound : Nat) : Prop where
  single : ∀ message, .assistant message ∈ history → message.HasOnePlan
  bounded : ∀ message existing, .assistant message ∈ history →
    extractSyntheticPlan message = some existing → existing.sequence ≤ bound
  increasing : (planNumbers history).Pairwise fun p q => p.key = q.key → p.sequence < q.sequence
  matched : ∀ number ∈ planNumbers history,
    matchPlanId number.toolUseId = some (number.key, number.sequence)

namespace Ordered

variable {history : List HistoryEntry} {bound bound' : Nat} {message : AssistantMessage}

theorem mono (ordered : Ordered history bound) (more : bound ≤ bound') : Ordered history bound' where
  single := ordered.single
  bounded := fun message existing listed found =>
    Nat.le_trans (ordered.bounded message existing listed found) more
  increasing := ordered.increasing
  matched := ordered.matched

theorem mem_planNumbers (ordered : Ordered history bound) {number : PlanNumber}
    (listed : number ∈ planNumbers history) : ∃ entry plan, .assistant entry ∈ history ∧
      extractSyntheticPlan entry = some plan ∧ number = ⟨plan.block.id, plan.key, plan.sequence⟩ := by
  obtain ⟨entry, inside, own⟩ := List.mem_flatMap.mp listed
  cases entry with
  | other => cases own
  | assistant entry =>
    have own : number ∈ entry.planNumbers := own
    rw [planNumbers_eq (ordered.single entry inside), Option.mem_toList] at own
    obtain ⟨plan, found, same⟩ := Option.map_eq_some_iff.mp own
    exact ⟨entry, plan, inside, found, same.symm⟩

theorem concat_plain (ordered : Ordered history bound) (single : message.HasOnePlan)
    (plain : extractSyntheticPlan message = none) : Ordered (history ++ [.assistant message]) bound := by
  have nothing : planNumbers (history ++ [.assistant message]) = planNumbers history := by
    unfold planNumbers
    rw [List.flatMap_append, List.flatMap_singleton]
    unfold HistoryEntry.planNumbers
    dsimp only
    rw [planNumbers_eq single, plain, Option.map_none, Option.toList_none, List.append_nil]
  refine ⟨?_, ?_, nothing ▸ ordered.increasing, nothing ▸ ordered.matched⟩
  · intro other listed
    rcases List.mem_append.mp listed with old | new
    · exact ordered.single other old
    · cases List.mem_singleton.mp new
      exact single
  · intro other existing listed found
    rcases List.mem_append.mp listed with old | new
    · exact ordered.bounded other existing old found
    · cases List.mem_singleton.mp new
      rw [plain] at found
      cases found

theorem concat_plan (ordered : Ordered history bound) {plan : SyntheticPlanState}
    (single : message.HasOnePlan) (found : extractSyntheticPlan message = some plan)
    (below : plan.sequence ≤ bound)
    (larger : ∀ entry existing, .assistant entry ∈ history → extractSyntheticPlan entry = some existing →
      existing.key = plan.key → existing.sequence < plan.sequence) :
    Ordered (history ++ [.assistant message]) bound := by
  have more : planNumbers (history ++ [.assistant message]) =
      planNumbers history ++ [⟨plan.block.id, plan.key, plan.sequence⟩] := by
    unfold planNumbers
    rw [List.flatMap_append, List.flatMap_singleton]
    congr 1
    unfold HistoryEntry.planNumbers
    dsimp only
    rw [planNumbers_eq single, found]
    rfl
  refine ⟨?_, ?_, ?_, ?_⟩
  · intro other listed
    rcases List.mem_append.mp listed with old | new
    · exact ordered.single other old
    · cases List.mem_singleton.mp new
      exact single
  · intro other existing listed found'
    rcases List.mem_append.mp listed with old | new
    · exact ordered.bounded other existing old found'
    · cases List.mem_singleton.mp new
      rw [found] at found'
      cases found'
      exact below
  · rw [more, List.pairwise_append]
    refine ⟨ordered.increasing, List.pairwise_singleton _ _, ?_⟩
    intro number listed last inside named
    rw [List.mem_singleton.mp inside] at named ⊢
    obtain ⟨entry, existing, old, own, rfl⟩ := ordered.mem_planNumbers listed
    exact larger entry existing old own named
  · intro number listed
    rw [more] at listed
    rcases List.mem_append.mp listed with old | new
    · exact ordered.matched number old
    · rw [List.mem_singleton.mp new]
      exact (extract_eq_some found).2.2.1

theorem concat_other (ordered : Ordered history bound) : Ordered (history ++ [.other]) bound := by
  have nothing : planNumbers (history ++ [.other]) = planNumbers history := by
    unfold planNumbers
    rw [List.flatMap_append, List.flatMap_singleton]
    exact List.append_nil _
  have listed' : ∀ {message}, .assistant message ∈ history ++ [.other] → .assistant message ∈ history := by
    intro message listed
    rcases List.mem_append.mp listed with old | new
    · exact old
    · cases List.mem_singleton.mp new
  exact ⟨fun message listed => ordered.single message (listed' listed),
    fun message existing listed => ordered.bounded message existing (listed' listed),
    nothing ▸ ordered.increasing, nothing ▸ ordered.matched⟩

/-- The tool ids of plans whose numbers are in order are different. -/
theorem nodup (ordered : Ordered history bound) :
    ((planNumbers history).map (·.toolUseId)).Nodup := by
  refine List.pairwise_map.mpr (ordered.increasing.imp_of_mem ?_)
  intro p q listed listed' less same
  have matched := ordered.matched p listed
  rw [same, ordered.matched q listed'] at matched
  obtain ⟨key, sequence⟩ := Prod.mk.inj (Option.some.inj matched)
  have order := less key.symm
  omega

end Ordered

/-- What a message does to a history: nothing if it is a replay; else its plan, perhaps under another
number, is the newest one in its scope. -/
theorem receive_plan {history : List HistoryEntry} {bound : Nat} {message : AssistantMessage}
    {plan : SyntheticPlanState} (ordered : Ordered history bound) (room : bound < 2 ^ 53)
    (single : message.HasOnePlan) (found : extractSyntheticPlan message = some plan)
    (below : plan.sequence ≤ bound + 1) :
    Ordered (receive history (.assistant message)) (bound + 1) ∧
      newestTodos (receive history (.assistant message)) message plan.key = some plan.todos ∧
      ((prepareCodexPlanAssistantReplay history message).isDuplicate = true →
        newestTodos history message plan.key = some plan.todos) := by
  have wider := ordered.mono (Nat.le_succ bound)
  unfold receive prepareCodexPlanAssistantReplay
  dsimp only
  rw [found]
  dsimp only
  split
  · rename_i same
    have newest := latest_eq_signature same
    exact ⟨wider, newest, fun _ => newest⟩
  · have scanned := scanHistory_le message plan.key ordered.bounded
    split
    · rename_i larger
      refine ⟨?_, newestTodos_concat history found rfl (samePlanReplayScope_self message), fun no => by cases no⟩
      refine wider.concat_plan single found below fun entry existing listed own named => ?_
      have known := sequence_le_scanHistory message listed own
      rw [named] at known
      omega
    · have next : successor (scanHistory history message plan.key).maxSequence =
          (scanHistory history message plan.key).maxSequence + 1 := if_pos (by omega)
      have found' := extract_rekeyed
        (successor (scanHistory history message plan.key).maxSequence) found
      have newest := newestTodos_concat history found' rfl (samePlanReplayScope_rekeyed message plan _)
      refine ⟨?_, newest, fun no => by cases no⟩
      refine wider.concat_plan (hasOnePlan_rekeyed _ found single) found' ?_ ?_
      · dsimp only
        omega
      · intro entry existing listed own named
        have known := sequence_le_scanHistory message listed own
        dsimp only at named ⊢
        rw [named] at known
        omega

theorem receive_plain {history : List HistoryEntry} {bound : Nat} {entry : HistoryEntry}
    (ordered : Ordered history bound)
    (single : ∀ message, entry = .assistant message → message.HasOnePlan)
    (plain : ∀ message, entry = .assistant message → extractSyntheticPlan message = none) :
    Ordered (receive history entry) bound := by
  cases entry with
  | other => exact ordered.concat_other
  | assistant message =>
    unfold receive prepareCodexPlanAssistantReplay
    dsimp only
    rw [plain message rfl]
    exact ordered.concat_plain (single message rfl) (plain message rfl)

/-- The numbers of the plans leave room for one more with each entry of the stream. -/
def Roomy (stream : List HistoryEntry) : Prop :=
  ∀ message plan, .assistant message ∈ stream → extractSyntheticPlan message = some plan →
    plan.sequence + stream.length ≤ 2 ^ 53

theorem received_concat (stream : List HistoryEntry) (entry : HistoryEntry) :
    received (stream ++ [entry]) = receive (received stream) entry := by
  unfold received
  rw [List.foldl_append, List.foldl_cons, List.foldl_nil]

theorem ordered_received {stream : List HistoryEntry}
    (single : ∀ message, .assistant message ∈ stream → message.HasOnePlan) (roomy : Roomy stream)
    (before rest : List HistoryEntry) (parts : stream = before ++ rest) :
    Ordered (received before) (2 ^ 53 - stream.length + before.length) := by
  induction before using List.reverseRecOn generalizing rest with
  | nil =>
    refine ⟨?_, ?_, List.Pairwise.nil, ?_⟩
    · intro message listed
      cases listed
    · intro message existing listed
      cases listed
    · intro number listed
      cases listed
  | append_singleton before entry ih =>
    have parts' : stream = before ++ (entry :: rest) := by rw [parts, List.append_assoc, List.singleton_append]
    have listed : entry ∈ stream := by
      rw [parts']
      exact List.mem_append_right before List.mem_cons_self
    have length : before.length + (rest.length + 1) = stream.length := by
      rw [parts', List.length_append, List.length_cons]
    rw [received_concat, List.length_append, List.length_singleton, ← Nat.add_assoc]
    have earlier := ih (entry :: rest) parts'
    have single' : ∀ message, entry = .assistant message → message.HasOnePlan := by
      rintro message rfl
      exact single message listed
    by_cases plain : ∀ message, entry = .assistant message → extractSyntheticPlan message = none
    · exact (receive_plain earlier single' plain).mono (Nat.le_succ _)
    · obtain ⟨message, other⟩ := not_forall.mp plain
      obtain ⟨rfl, planned⟩ := Classical.not_imp.mp other
      obtain ⟨plan, found⟩ := Option.ne_none_iff_exists'.mp planned
      have room := roomy message plan listed found
      exact (receive_plan earlier (by omega) (single' message rfl) found (by omega)).1

/-- Plans that were received have different tool ids and increasing numbers, after each message the newest
plan of its key and scope is its own, and a message is a replay only if that was so before. -/
theorem plan_replays_reconciled (stream : List HistoryEntry)
    (single : ∀ message, .assistant message ∈ stream → message.HasOnePlan) (roomy : Roomy stream) :
    ((planNumbers (received stream)).map (·.toolUseId)).Nodup ∧
    ((planNumbers (received stream)).Pairwise fun p q => p.key = q.key → p.sequence < q.sequence) ∧
    ∀ before message after plan, stream = before ++ .assistant message :: after →
      extractSyntheticPlan message = some plan →
      newestTodos (received (before ++ [.assistant message])) message plan.key = some plan.todos ∧
      ((prepareCodexPlanAssistantReplay (received before) message).isDuplicate = true →
        newestTodos (received before) message plan.key = some plan.todos) := by
  have whole := ordered_received single roomy stream [] (List.append_nil stream).symm
  refine ⟨whole.nodup, whole.increasing, ?_⟩
  intro before message after plan parts found
  have listed : .assistant message ∈ stream := by
    rw [parts]
    exact List.mem_append_right before List.mem_cons_self
  have length : before.length + (after.length + 1) = stream.length := by
    rw [parts, List.length_append, List.length_cons]
  have room := roomy message plan listed found
  have earlier := ordered_received single roomy before (.assistant message :: after) parts
  rw [received_concat]
  exact (receive_plan earlier (by omega) (single message listed) found (by omega)).2

section Restarts

/-- A message with a plan for one key. -/
def planMessage (sequence : Nat) (todos : List Value) : AssistantMessage where
  id := js "codex-tool_use-" ++ planToolUseId (js "turn") sequence
  content := [.toolUse { id := planToolUseId (js "turn") sequence, name := js "TodoWrite", todos }]

theorem extract_planMessage (sequence : Nat) (todos : List Value) :
    extractSyntheticPlan (planMessage sequence todos) =
      some ⟨⟨planToolUseId (js "turn") sequence, js "TodoWrite", some todos⟩, 0, js "turn", sequence,
        todos⟩ := by
  have first : (planMessage sequence todos).content.findIdx? isPlanBlock = some 0 := by
    have block : isPlanBlock (.toolUse
        ⟨planToolUseId (js "turn") sequence, js "TodoWrite", some todos⟩) = true := by
      unfold isPlanBlock
      dsimp only
      rw [startsWith_planToolUseId]
      rfl
    unfold planMessage
    rw [List.findIdx?_cons, if_pos block]
  unfold extractSyntheticPlan
  rw [first, Option.bind_some]
  unfold planMessage planOf
  dsimp only [List.getElem?_cons_zero]
  rw [matchPlanId_planToolUseId sequence (by decide) (by decide)]
  rfl

/-- The manager starts again, with other todos. -/
theorem plan_replays_reconciled_restart :
    let stream : List HistoryEntry := [.assistant (planMessage 1 []), .assistant (planMessage 1 [.null])]
    ((planNumbers (received stream)).map (·.toolUseId)).Nodup := by
  intro stream
  have messages : ∀ message, .assistant message ∈ stream →
      ∃ todos, message = planMessage 1 todos := by
    intro message listed
    rcases List.mem_cons.mp listed with first | later
    · exact ⟨[], HistoryEntry.assistant.inj first⟩
    · exact ⟨[.null], HistoryEntry.assistant.inj (List.mem_singleton.mp later)⟩
  refine (plan_replays_reconciled stream ?_ ?_).1
  · intro message listed
    obtain ⟨todos, rfl⟩ := messages message listed
    exact List.countP_le_length
  · intro message plan listed found
    obtain ⟨todos, rfl⟩ := messages message listed
    rw [extract_planMessage] at found
    cases found
    show 1 + 2 ≤ 2 ^ 53
    norm_num

/-- After the largest safe number there is room for one more only. -/
theorem plan_numbers_run_out :
    let stream : List HistoryEntry := [.assistant (planMessage (2 ^ 53 - 1) []),
      .assistant (planMessage 1 [.null]), .assistant (planMessage 1 [.boolean true])]
    (∀ message, .assistant message ∈ stream → message.HasOnePlan ∧
      ∃ plan, extractSyntheticPlan message = some plan ∧ plan.sequence < 2 ^ 53) ∧
    ¬ ((planNumbers (received stream)).map (·.toolUseId)).Nodup := by
  intro stream
  have planned : ∀ sequence todos, sequence < 2 ^ 53 → (planMessage sequence todos).HasOnePlan ∧
      ∃ plan, extractSyntheticPlan (planMessage sequence todos) = some plan ∧ plan.sequence < 2 ^ 53 := by
    intro sequence todos safe
    exact ⟨List.countP_le_length, _, extract_planMessage sequence todos, safe⟩
  refine ⟨?_, by decide +kernel⟩
  intro message listed
  simp only [stream, List.mem_cons, HistoryEntry.assistant.injEq, List.not_mem_nil, or_false] at listed
  rcases listed with rfl | rfl | rfl
  · exact planned _ _ (by norm_num)
  · exact planned _ _ (by norm_num)
  · exact planned _ _ (by norm_num)

end Restarts

end Takode.CodexPlans
