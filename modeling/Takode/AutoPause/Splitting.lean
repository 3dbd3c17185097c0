import Takode.AutoPause.Sweeping

/-!
# What a sweep splits

A sweep holds some of the pending inputs and leaves the others, and shortens the turns that name what is
gone: when it does so exactly.
-/

namespace Takode.AutoPause

open JsString

/-! ## Held inputs -/

theorem count_coalesceFirst {heldInputs : List CodexAutoPauseHeldInput} {key : JsString}
    (present : ∃ item ∈ heldInputs, item.key = key) (message : BrowserUserMessage) (now : Nat) :
    getCodexAutoPauseHeldInputCount (coalesceFirst key message now heldInputs) =
      getCodexAutoPauseHeldInputCount heldInputs + 1 := by
  unfold getCodexAutoPauseHeldInputCount
  induction heldInputs with
  | nil =>
    obtain ⟨item, listed, -⟩ := present
    cases listed
  | cons item rest ih =>
    unfold coalesceFirst
    by_cases same : item.key = key
    · rw [if_pos same, List.map_cons, List.map_cons, List.sum_cons, List.sum_cons]
      have counted := item.counted
      have next : (item.coalesce message now).count = item.count + 1 := rfl
      omega
    · rw [if_neg same, List.map_cons, List.map_cons, List.sum_cons, List.sum_cons, ih]
      · omega
      · obtain ⟨item', listed, found⟩ := present
        rcases List.mem_cons.mp listed with rfl | listed
        · exact absurd found same
        · exact ⟨item', listed, found⟩

theorem count_queueCodexAutoPausedInput (heldInputs : List CodexAutoPauseHeldInput) (source : PausedInboundSource)
    (message : BrowserUserMessage) (now : Nat) :
    getCodexAutoPauseHeldInputCount (queueCodexAutoPausedInput heldInputs source message now) =
      getCodexAutoPauseHeldInputCount heldInputs + 1 := by
  unfold queueCodexAutoPausedInput
  dsimp only
  split
  · rename_i present
    refine count_coalesceFirst ?_ message now
    obtain ⟨item, listed, same⟩ := List.any_eq_true.mp present
    exact ⟨item, listed, of_decide_eq_true same⟩
  · unfold getCodexAutoPauseHeldInputCount
    rw [List.map_append, List.sum_append]
    rfl

theorem source_eq {source source' : PausedInboundSource} {message message' : BrowserUserMessage}
    (same : codexAutoPauseCoalesceKey source message = codexAutoPauseCoalesceKey source' message') :
    source = source' := by
  have heads := congrArg List.head? same
  cases source with
  | browser =>
    cases source' with
    | browser => rfl
    | programmatic => exact absurd (Option.some.inj heads) (by decide)
  | programmatic =>
    cases source' with
    | browser => exact absurd (Option.some.inj heads) (by decide)
    | programmatic => rfl

theorem keys_coalesceFirst (source : PausedInboundSource) (message : BrowserUserMessage) (now : Nat)
    (heldInputs : List CodexAutoPauseHeldInput) :
    (coalesceFirst (codexAutoPauseCoalesceKey source message) message now heldInputs).map (·.key) =
      heldInputs.map (·.key) := by
  induction heldInputs with
  | nil => rfl
  | cons item rest ih =>
    unfold coalesceFirst
    by_cases same : item.key = codexAutoPauseCoalesceKey source message
    · have own : (item.coalesce message now).key = codexAutoPauseCoalesceKey item.source message := rfl
      rw [if_pos same, List.map_cons, List.map_cons, own, source_eq same, ← same]
    · rw [if_neg same, List.map_cons, List.map_cons, ih]

theorem mem_keys_queue (heldInputs : List CodexAutoPauseHeldInput) (source : PausedInboundSource)
    (message : BrowserUserMessage) (now : Nat) (key : JsString) :
    key ∈ (queueCodexAutoPausedInput heldInputs source message now).map (·.key) ↔
      key ∈ heldInputs.map (·.key) ∨ key = codexAutoPauseCoalesceKey source message := by
  unfold queueCodexAutoPausedInput
  dsimp only
  split
  · rename_i present
    rw [keys_coalesceFirst]
    refine ⟨.inl, fun either => either.elim id fun same => ?_⟩
    obtain ⟨item, listed, found⟩ := List.any_eq_true.mp present
    rw [same, ← of_decide_eq_true found]
    exact List.mem_map_of_mem listed
  · rw [List.map_append, List.mem_append, List.map_cons, List.map_nil, List.mem_singleton]
    rfl

section Holding

variable (now : Nat)

/-- The items once more inputs are held. -/
def holdInputs (heldInputs : List CodexAutoPauseHeldInput) (inputs : List PendingCodexInput) :
    List CodexAutoPauseHeldInput :=
  inputs.foldl (fun heldInputs input => queueCodexAutoPausedInput heldInputs .programmatic
    (pendingCodexInputToAutoPauseMessage input) now) heldInputs

/-- The key under which an input is held. -/
def PendingCodexInput.heldKey (input : PendingCodexInput) : JsString :=
  codexAutoPauseCoalesceKey .programmatic (pendingCodexInputToAutoPauseMessage input)

theorem count_holdInputs (heldInputs : List CodexAutoPauseHeldInput) (inputs : List PendingCodexInput) :
    getCodexAutoPauseHeldInputCount (holdInputs now heldInputs inputs) =
      getCodexAutoPauseHeldInputCount heldInputs + inputs.length := by
  induction inputs generalizing heldInputs with
  | nil => rfl
  | cons input rest ih =>
    have step : holdInputs now heldInputs (input :: rest) = holdInputs now (queueCodexAutoPausedInput
      heldInputs .programmatic (pendingCodexInputToAutoPauseMessage input) now) rest := rfl
    rw [step, ih, count_queueCodexAutoPausedInput, List.length_cons]
    omega

theorem mem_keys_holdInputs (heldInputs : List CodexAutoPauseHeldInput)
    (inputs : List PendingCodexInput) (key : JsString) :
    key ∈ (holdInputs now heldInputs inputs).map (·.key) ↔
      key ∈ heldInputs.map (·.key) ∨ ∃ input ∈ inputs, input.heldKey = key := by
  induction inputs generalizing heldInputs with
  | nil => simp [holdInputs]
  | cons input rest ih =>
    have step : holdInputs now heldInputs (input :: rest) = holdInputs now (queueCodexAutoPausedInput
      heldInputs .programmatic (pendingCodexInputToAutoPauseMessage input) now) rest := rfl
    rw [step, ih, mem_keys_queue, List.exists_mem_cons_iff, or_assoc]
    refine or_congr_right (or_congr_left ?_)
    exact eq_comm

end Holding

/-! ## Turns -/

section Turns

variable {turn : CodexOutboundTurn} {pending : List PendingCodexInput}

theorem of_find?_pending {id : JsString} {input : PendingCodexInput}
    (found : pending.reverse.find? (fun input => input.id = id) = some input) :
    input.id = id ∧ input ∈ pending := by
  have same := List.find?_some found
  exact ⟨of_decide_eq_true same, List.mem_reverse.mp (List.mem_of_find?_eq_some found)⟩

theorem mem_retainedInputs {input : PendingCodexInput} (retained : input ∈ turn.retainedInputs pending) :
    input ∈ pending ∧ input.id ∈ turn.inputIds := by
  obtain ⟨id, named, found⟩ := List.mem_filterMap.mp retained
  obtain ⟨same, listed⟩ := of_find?_pending found
  exact ⟨listed, same ▸ named⟩

theorem find?_pending_eq_none {id : JsString} :
    pending.reverse.find? (fun input => input.id = id) = none ↔ id ∉ pending.map (·.id) := by
  rw [List.find?_eq_none]
  simp only [List.mem_reverse, decide_eq_true_eq, List.mem_map, not_exists, not_and]

theorem map_id_retainedInputs :
    (turn.retainedInputs pending).map (·.id) =
      turn.inputIds.filter fun id => id ∈ pending.map (·.id) := by
  unfold CodexOutboundTurn.retainedInputs
  generalize turn.inputIds = ids
  induction ids with
  | nil => rfl
  | cons id rest ih =>
    rw [List.filterMap_cons, List.filter_cons]
    cases found : pending.reverse.find? fun input => input.id = id with
    | none =>
      rw [if_neg (by simpa using find?_pending_eq_none.mp found)]
      exact ih
    | some input =>
      obtain ⟨same, inside⟩ := of_find?_pending found
      have listed : id ∈ pending.map (·.id) := same ▸ List.mem_map_of_mem inside
      rw [if_pos (by simpa using listed), List.map_cons, ih, same]

theorem length_retainedInputs :
    (turn.retainedInputs pending).length = turn.inputIds.length ↔
      ∀ id ∈ turn.inputIds, id ∈ pending.map (·.id) := by
  have ids : (turn.retainedInputs pending).map (·.id) = _ := map_id_retainedInputs
  have lengths := congrArg List.length ids
  rw [List.length_map] at lengths
  rw [lengths, List.length_filter_eq_length_iff]
  simp only [decide_eq_true_eq]

end Turns

/-! ## What a sweep does -/

namespace CodexOutboundTurn

/-- The turn was already handed out, or is being recovered. -/
def IsUnderway (turn : CodexOutboundTurn) : Prop :=
  (turn.status ≠ .queued ∧ turn.status ≠ .blocked_broken_session) ∨ 0 < turn.dispatchCount ∨
    turn.acknowledgedAt.isSome ∨ turn.turnId.isSome ∨ turn.providerRecoveryFamily.isSome ∨
    turn.isRecoverySensitive

/-- The turn's list, message, text and links are those of the inputs. -/
structure BuiltFrom (turn : CodexOutboundTurn) (inputs : List PendingCodexInput) : Prop where
  ids : turn.pendingInputIds = some (inputs.map (·.id))
  message : ∃ clientUserMessageId, turn.adapterMsg = .codex_start_pending (inputs.map (·.id))
    (buildQueuedCodexBatchMessageInputs inputs) clientUserMessageId
  text : turn.userContent = buildQueuedCodexPendingBatchText inputs
  links : turn.autoPauseRecoveryLinks = collectCodexAutoPauseRecoveryLinks inputs

end CodexOutboundTurn

/-- A sweep from a session to another one splits the pending inputs exactly. -/
structure SplitsExactly (session session' : Session) (result : SweepResult) : Prop where
  /-- What stays pending is the inputs that are not held, in order. -/
  pending : session'.pendingCodexInputs =
    session.pendingCodexInputs.filter fun input => input.id ∉ result.heldInputIds
  held : result.heldInputIds =
    (session.pendingCodexInputs.filter fun input => input.id ∈ result.heldInputIds).map (·.id)
  kept : ∀ state, session.autoPause = some state → ∃ state', session'.autoPause = some state' ∧
    (∀ input ∈ session.pendingCodexInputs, input.id ∈ result.heldInputIds →
      ∃ item ∈ state'.heldInputs, item.key = input.heldKey) ∧
    getCodexAutoPauseHeldInputCount state'.heldInputs =
      getCodexAutoPauseHeldInputCount state.heldInputs + result.heldInputIds.length
  counted : result.heldInputCount = result.heldInputIds.length
  underway : ∀ turn ∈ session.pendingCodexTurns, turn.IsUnderway →
    ∀ id ∈ turn.inputIds, id ∉ result.heldInputIds
  named : ∀ turn ∈ session'.pendingCodexTurns, ∀ id ∈ turn.inputIds, id ∉ result.heldInputIds
  shortened : ∀ turn ∈ session'.pendingCodexTurns, turn ∈ session.pendingCodexTurns ∨
    ∃ inputs, inputs ≠ [] ∧ (∀ input ∈ inputs, input ∈ session'.pendingCodexInputs) ∧
      (∃ former ∈ session.pendingCodexTurns, inputs.map (·.id) = former.inputIds.filter
        fun id => id ∈ session'.pendingCodexInputs.map (·.id)) ∧ turn.BuiltFrom inputs
  again : ∀ now updatedAt randomUUID,
    session'.sweepCodexAutoPausedQueuedBacklog now updatedAt randomUUID = (session', ⟨false, 0, []⟩)

namespace Session

variable (session : Session)

/-- Inputs of one id are held or not alike. -/
def IdsAgree : Prop :=
  ∀ input ∈ session.pendingCodexInputs, ∀ input' ∈ session.pendingCodexInputs, input.id = input'.id →
    session.isSwept input → session.isSwept input'

/-- A turn that names an input that is free to be held is one that was not started. -/
def TurnsAgree : Prop :=
  ∀ input ∈ session.pendingCodexInputs, session.isSwept input → ∀ turn ∈ session.pendingCodexTurns,
    input.id ∈ turn.inputIds → turn.isQueuedCodexStartPendingTurn

/-- A turn that forbids to hold its inputs goes on to do so: unless it is shortened, or then for the
reconciliation of its history or a pending input that requires a fresh successor. -/
def StaysSensitive (turn : CodexOutboundTurn) : Prop :=
  if turn.isPruned session.remainingInputs then
    turn.terminalHistoryReconciliation.isSome ∨
      ∃ input ∈ turn.retainedInputs session.remainingInputs, input.requireFreshSuccessor
  else turn.isRecoverySensitive

/-- What a turn protects now is still protected once the turns are shortened. -/
def ProtectionStays : Prop :=
  ∀ input ∈ session.pendingCodexInputs, input.isHoldable →
    input.id ∈ session.recoverySensitiveInputIds →
      ∃ turn ∈ session.pendingCodexTurns, input.id ∈ turn.inputIds ∧ session.StaysSensitive turn

end Session

/-! ## Turns that are shortened -/

section Pruning

variable {turn turn' : CodexOutboundTurn} {pending : List PendingCodexInput} {updatedAt : Nat}
  {uuid : JsString}

theorem isPruned_iff : turn.isPruned pending ↔ turn.isQueuedCodexStartPendingTurn ∧
    ¬ ∀ id ∈ turn.inputIds, id ∈ pending.map (·.id) := by
  unfold CodexOutboundTurn.isPruned
  rw [Bool.and_eq_true, decide_eq_true_eq, ne_eq, length_retainedInputs]

theorem prune_eq_some : turn.prune pending updatedAt uuid = some turn' ↔
    (¬ turn.isPruned pending ∧ turn' = turn) ∨
      turn.isPruned pending ∧ ∃ first rest, turn.retainedInputs pending = first :: rest ∧
        turn' = turn.shorten first rest updatedAt uuid := by
  unfold CodexOutboundTurn.prune
  by_cases pruned : turn.isPruned pending
  · rw [if_pos pruned]
    constructor
    · intro found
      cases retained : turn.retainedInputs pending with
      | nil =>
        rw [retained] at found
        cases found
      | cons first rest =>
        rw [retained] at found
        exact .inr ⟨pruned, first, rest, rfl, (Option.some.inj found).symm⟩
    · rintro (⟨whole, -⟩ | ⟨-, first, rest, retained, rfl⟩)
      · exact absurd pruned whole
      · rw [retained]
  · rw [if_neg pruned, Option.some_inj]
    exact ⟨fun same => .inl ⟨pruned, same.symm⟩, fun either =>
      either.elim (fun whole => whole.2.symm) fun short => absurd short.1 pruned⟩

theorem inputIds_shorten {first : PendingCodexInput} {rest : List PendingCodexInput} :
    (turn.shorten first rest updatedAt uuid).inputIds = (first :: rest).map (·.id) := rfl

theorem builtFrom_shorten {first : PendingCodexInput} {rest : List PendingCodexInput} :
    (turn.shorten first rest updatedAt uuid).BuiltFrom (first :: rest) :=
  ⟨rfl, ⟨_, rfl⟩, rfl, rfl⟩

theorem isRecoverySensitive_shorten {first : PendingCodexInput} {rest : List PendingCodexInput}
    (queued : turn.isQueuedCodexStartPendingTurn) :
    (turn.shorten first rest updatedAt uuid).isRecoverySensitive ↔
      turn.terminalHistoryReconciliation.isSome ∨
        ∃ input ∈ first :: rest, input.requireFreshSuccessor := by
  have fresh : (turn.shorten first rest updatedAt uuid).requiresFreshSuccessor =
      (first :: rest).any (·.requireFreshSuccessor) := rfl
  unfold CodexOutboundTurn.isQueuedCodexStartPendingTurn at queued
  simp only [Bool.and_eq_true, Bool.or_eq_true, decide_eq_true_eq, Option.isNone_iff_eq_none] at queued
  obtain ⟨⟨⟨⟨⟨⟨⟨⟨status, -⟩, count⟩, acknowledged⟩, -⟩, -⟩, -⟩, -⟩, -⟩ := queued
  have waiting : turn.status ≠ .recovery_pending := by
    rcases status with status | status
    · rw [status]
      exact fun same => by cases same
    · rw [status]
      exact fun same => by cases same
  rw [← List.any_eq_true, ← fresh, or_comm]
  unfold CodexOutboundTurn.isRecoverySensitive
  simp [CodexOutboundTurn.shorten, createCodexHistoryIncorporation, count, acknowledged, waiting]

theorem not_isPruned_prune (pruned : turn.prune pending updatedAt uuid = some turn') :
    ¬ turn'.isPruned pending := by
  rcases prune_eq_some.mp pruned with ⟨whole, rfl⟩ | ⟨-, first, rest, retained, rfl⟩
  · exact whole
  · rw [isPruned_iff]
    rintro ⟨-, missing⟩
    refine missing fun id named => ?_
    rw [inputIds_shorten, ← retained, map_id_retainedInputs, List.mem_filter] at named
    exact of_decide_eq_true named.2

end Pruning

/-! ## A sweep in an active pause -/

namespace Session

variable {session : Session} {state : CodexResultErrorAutoPauseState}

theorem mem_remainingInputs {input : PendingCodexInput} :
    input ∈ session.remainingInputs ↔ input ∈ session.pendingCodexInputs ∧ ¬ session.isSwept input := by
  unfold remainingInputs
  rw [List.mem_filter, Bool.not_eq_true', Bool.not_eq_true]

theorem mem_sweptInputs {input : PendingCodexInput} :
    input ∈ session.sweptInputs ↔ input ∈ session.pendingCodexInputs ∧ session.isSwept input :=
  List.mem_filter

theorem isSwept_iff {input : PendingCodexInput} :
    session.isSwept input ↔ input.isHoldable ∧ input.id ∉ session.recoverySensitiveInputIds := by
  unfold isSwept
  rw [Bool.and_eq_true, decide_eq_true_eq]

theorem mem_recoverySensitiveInputIds {id : JsString} :
    id ∈ session.recoverySensitiveInputIds ↔
      ∃ turn ∈ session.pendingCodexTurns, turn.isRecoverySensitive ∧ id ∈ turn.inputIds := by
  unfold recoverySensitiveInputIds
  rw [List.mem_flatMap]
  refine exists_congr fun turn => ?_
  rw [List.mem_filter, and_assoc]

theorem active_autoPause (active : session.getActiveCodexResultErrorAutoPause = some state) :
    session.autoPause = some state :=
  (Option.filter_eq_some_iff.mp active).1

section Swept

variable {now updatedAt : Nat} {randomUUID : Nat → JsString}

theorem sweep_eq (active : session.getActiveCodexResultErrorAutoPause = some state) :
    session.sweepCodexAutoPausedQueuedBacklog now updatedAt randomUUID =
      ({ autoPause := some { state with heldInputs := holdInputs now state.heldInputs session.sweptInputs }
         pendingCodexInputs := session.remainingInputs
         pendingCodexTurns := session.pendingCodexTurns.zipIdx.filterMap fun entry =>
           entry.1.prune session.remainingInputs updatedAt (randomUUID entry.2) },
        ⟨decide (session.sweptInputs.map (·.id) ≠ []) ||
            session.pendingCodexTurns.any (·.isPruned session.remainingInputs),
          (session.sweptInputs.map (·.id)).length, session.sweptInputs.map (·.id)⟩) := by
  unfold sweepCodexAutoPausedQueuedBacklog
  rw [active]
  rfl

theorem sweep_of_nothing (active : session.getActiveCodexResultErrorAutoPause = some state)
    (none : session.sweptInputs = [])
    (whole : ∀ turn ∈ session.pendingCodexTurns, ¬ turn.isPruned session.pendingCodexInputs) :
    session.sweepCodexAutoPausedQueuedBacklog now updatedAt randomUUID = (session, ⟨false, 0, []⟩) := by
  have remaining : session.remainingInputs = session.pendingCodexInputs := by
    refine List.filter_eq_self.mpr fun input listed => ?_
    have stays : ¬ session.isSwept input := fun swept => by
      have inside := mem_sweptInputs.mpr ⟨listed, swept⟩
      rw [none] at inside
      cases inside
    simpa using stays
  have turns : (session.pendingCodexTurns.zipIdx.filterMap fun entry =>
      entry.1.prune session.pendingCodexInputs updatedAt (randomUUID entry.2)) =
        session.pendingCodexTurns := by
    refine Eq.trans ?_ (List.zipIdx_map_fst 0 session.pendingCodexTurns)
    rw [← List.filterMap_eq_map]
    refine List.filterMap_congr fun entry listed => ?_
    exact prune_eq_some.mpr (.inl ⟨whole entry.1 (List.fst_mem_of_mem_zipIdx listed), rfl⟩)
  have changed : session.pendingCodexTurns.any (·.isPruned session.pendingCodexInputs) = false := by
    rw [List.any_eq_false]
    exact whole
  rw [sweep_eq active, none, remaining, turns, changed]
  have own : ({ state with heldInputs := holdInputs now state.heldInputs [] } :
      CodexResultErrorAutoPauseState) = state := rfl
  rw [own, ← active_autoPause active]
  rfl

section After

variable {after : Session}
  (inputs : after.pendingCodexInputs = session.remainingInputs)
  (turns : after.pendingCodexTurns = session.pendingCodexTurns.zipIdx.filterMap fun entry =>
    entry.1.prune session.remainingInputs updatedAt (randomUUID entry.2))

include turns

theorem mem_turns {turn' : CodexOutboundTurn} :
    turn' ∈ after.pendingCodexTurns ↔ ∃ (turn : CodexOutboundTurn) (index : Nat),
      session.pendingCodexTurns[index]? = some turn ∧
      turn.prune session.remainingInputs updatedAt (randomUUID index) = some turn' := by
  rw [turns, List.mem_filterMap]
  constructor
  · rintro ⟨⟨turn, index⟩, listed, pruned⟩
    exact ⟨turn, index, List.mk_mem_zipIdx_iff_getElem?.mp listed, pruned⟩
  · rintro ⟨turn, index, listed, pruned⟩
    exact ⟨(turn, index), List.mk_mem_zipIdx_iff_getElem?.mpr listed, pruned⟩

theorem mem_recoverySensitiveInputIds_after {id : JsString}
    (pending : id ∈ session.remainingInputs.map (·.id)) :
    id ∈ after.recoverySensitiveInputIds ↔
      ∃ turn ∈ session.pendingCodexTurns, id ∈ turn.inputIds ∧ session.StaysSensitive turn := by
  rw [mem_recoverySensitiveInputIds]
  unfold StaysSensitive
  constructor
  · rintro ⟨turn', listed, sensitive, named⟩
    obtain ⟨turn, index, there, pruned⟩ := (mem_turns turns).mp listed
    refine ⟨turn, List.mem_of_getElem? there, ?_⟩
    rcases prune_eq_some.mp pruned with ⟨whole, rfl⟩ | ⟨short, first, rest, retained, rfl⟩
    · exact ⟨named, by rw [if_neg whole]; exact sensitive⟩
    · rw [inputIds_shorten, ← retained, map_id_retainedInputs] at named
      rw [if_pos short, retained]
      exact ⟨(List.mem_filter.mp named).1,
        (isRecoverySensitive_shorten (isPruned_iff.mp short).1).mp sensitive⟩
  · rintro ⟨turn, listed, named, stays⟩
    obtain ⟨index, there⟩ := List.mem_iff_getElem?.mp listed
    by_cases short : turn.isPruned session.remainingInputs
    · rw [if_pos short] at stays
      have kept : id ∈ (turn.retainedInputs session.remainingInputs).map (·.id) := by
        rw [map_id_retainedInputs, List.mem_filter]
        exact ⟨named, decide_eq_true pending⟩
      cases retained : turn.retainedInputs session.remainingInputs with
      | nil =>
        rw [retained] at kept
        cases kept
      | cons first rest =>
        rw [retained] at stays kept
        refine ⟨turn.shorten first rest updatedAt (randomUUID index), ?_, ?_, kept⟩
        · exact (mem_turns turns).mpr ⟨turn, index, there,
            prune_eq_some.mpr (.inr ⟨short, first, rest, retained, rfl⟩)⟩
        · exact (isRecoverySensitive_shorten (isPruned_iff.mp short).1).mpr stays
    · rw [if_neg short] at stays
      exact ⟨turn, (mem_turns turns).mpr ⟨turn, index, there, prune_eq_some.mpr (.inl ⟨short, rfl⟩)⟩,
        stays, named⟩

include inputs

theorem sweptInputs_after_eq_nil : after.sweptInputs = [] ↔ session.ProtectionStays := by
  unfold ProtectionStays
  rw [List.eq_nil_iff_forall_not_mem]
  constructor
  · intro nothing input listed holdable sensitive
    have stays : input ∈ session.remainingInputs :=
      mem_remainingInputs.mpr ⟨listed, fun swept => (isSwept_iff.mp swept).2 sensitive⟩
    refine (mem_recoverySensitiveInputIds_after turns (List.mem_map_of_mem stays)).mp ?_
    by_contra free
    exact nothing input (mem_sweptInputs.mpr ⟨inputs ▸ stays, isSwept_iff.mpr ⟨holdable, free⟩⟩)
  · intro protect input inside
    obtain ⟨listed, swept⟩ := mem_sweptInputs.mp inside
    rw [inputs] at listed
    obtain ⟨holdable, free⟩ := isSwept_iff.mp swept
    obtain ⟨pending, stays⟩ := mem_remainingInputs.mp listed
    refine free ((mem_recoverySensitiveInputIds_after turns (List.mem_map_of_mem listed)).mpr ?_)
    refine protect input pending holdable ?_
    by_contra unprotected
    exact stays (isSwept_iff.mpr ⟨holdable, unprotected⟩)

end After

end Swept

end Session

theorem Session.not_isUnderway {session : Session} (agree : session.TurnsAgree)
    {input : PendingCodexInput} (listed : input ∈ session.pendingCodexInputs)
    (swept : session.isSwept input) {turn : CodexOutboundTurn}
    (member : turn ∈ session.pendingCodexTurns) (named : input.id ∈ turn.inputIds) :
    ¬ turn.IsUnderway := by
  have queued := agree input listed swept turn member named
  have calm : ¬ turn.isRecoverySensitive := fun sensitive =>
    (isSwept_iff.mp swept).2 (mem_recoverySensitiveInputIds.mpr ⟨turn, member, sensitive, named⟩)
  unfold CodexOutboundTurn.isQueuedCodexStartPendingTurn at queued
  simp only [Bool.and_eq_true, Bool.or_eq_true, decide_eq_true_eq, Option.isNone_iff_eq_none] at queued
  obtain ⟨⟨⟨⟨⟨⟨⟨⟨status, -⟩, count⟩, acknowledged⟩, turnId⟩, -⟩, family⟩, -⟩, -⟩ := queued
  unfold CodexOutboundTurn.IsUnderway
  rw [count, acknowledged, turnId, family]
  rintro (⟨queued, blocked⟩ | positive | none | none | none | sensitive)
  · exact status.elim queued blocked
  · exact absurd positive (Nat.lt_irrefl 0)
  · cases none
  · cases none
  · cases none
  · exact calm sensitive

/-- A sweep splits the backlog of a paused session exactly, if and only if inputs of one id are held or
not alike, turns that name an input to be held were not started, and what is protected stays so once
turns that name a missing input are shortened. -/
theorem backlog_splits_exactly (session : Session) (now updatedAt : Nat) (randomUUID : Nat → JsString)
    (active : session.getActiveCodexResultErrorAutoPause.isSome) :
    let swept := session.sweepCodexAutoPausedQueuedBacklog now updatedAt randomUUID
    SplitsExactly session swept.1 swept.2 ↔
      session.IdsAgree ∧ session.TurnsAgree ∧ session.ProtectionStays := by
  intro swept
  obtain ⟨state, active⟩ := Option.isSome_iff_exists.mp active
  have result : swept = _ := Session.sweep_eq active
  have inputs : swept.1.pendingCodexInputs = session.remainingInputs := by rw [result]
  have turns : swept.1.pendingCodexTurns = session.pendingCodexTurns.zipIdx.filterMap fun entry =>
    entry.1.prune session.remainingInputs updatedAt (randomUUID entry.2) := by rw [result]
  have ids : swept.2.heldInputIds = session.sweptInputs.map (·.id) := by rw [result]
  have paused : swept.1.autoPause =
      some { state with heldInputs := holdInputs now state.heldInputs session.sweptInputs } := by
    rw [result]
  have count : swept.2.heldInputCount = (session.sweptInputs.map (·.id)).length := by rw [result]
  have active' : swept.1.getActiveCodexResultErrorAutoPause = some
      { state with heldInputs := holdInputs now state.heldInputs session.sweptInputs } := by
    unfold Session.getActiveCodexResultErrorAutoPause
    rw [paused]
    exact Option.filter_eq_some_iff.mpr ⟨rfl, (Option.filter_eq_some_iff.mp active).2⟩
  generalize swept.1 = after at *
  generalize swept.2 = outcome at *
  have held : ∀ id, id ∈ outcome.heldInputIds ↔
      ∃ input ∈ session.pendingCodexInputs, session.isSwept input ∧ input.id = id := by
    intro id
    rw [ids, List.mem_map]
    refine exists_congr fun input => ?_
    rw [Session.mem_sweptInputs, and_assoc]
  constructor
  · intro splits
    refine ⟨?_, ?_, ?_⟩
    · intro input listed input' listed' same swept
      by_contra stays
      have inside : input' ∈ after.pendingCodexInputs :=
        inputs ▸ Session.mem_remainingInputs.mpr ⟨listed', stays⟩
      rw [splits.pending, List.mem_filter, decide_eq_true_eq] at inside
      exact inside.2 ((held _).mpr ⟨input, listed, swept, same⟩)
    · intro input listed swept turn member named
      by_contra started
      obtain ⟨index, there⟩ := List.mem_iff_getElem?.mp member
      have whole : ¬ turn.isPruned session.remainingInputs := fun pruned =>
        started (isPruned_iff.mp pruned).1
      have kept : turn ∈ after.pendingCodexTurns :=
        (Session.mem_turns turns).mpr ⟨turn, index, there, prune_eq_some.mpr (.inl ⟨whole, rfl⟩)⟩
      exact splits.named turn kept _ named ((held _).mpr ⟨input, listed, swept, rfl⟩)
    · rw [← Session.sweptInputs_after_eq_nil inputs turns]
      have again := splits.again 0 0 fun _ => []
      rw [Session.sweep_eq active'] at again
      have none := congrArg (fun both : Session × SweepResult => both.2.heldInputIds) again
      exact List.map_eq_nil_iff.mp none
  · rintro ⟨idsAgree, turnsAgree, protection⟩
    have swept_iff : ∀ input ∈ session.pendingCodexInputs,
        (input.id ∈ outcome.heldInputIds ↔ session.isSwept input) := by
      intro input listed
      rw [held]
      constructor
      · rintro ⟨input', listed', swept, same⟩
        exact idsAgree input' listed' input listed same swept
      · exact fun swept => ⟨input, listed, swept, rfl⟩
    have gone : ∀ id ∈ outcome.heldInputIds, id ∉ session.remainingInputs.map (·.id) := by
      intro id inside remains
      obtain ⟨input, listed, rfl⟩ := List.mem_map.mp remains
      obtain ⟨pending, stays⟩ := Session.mem_remainingInputs.mp listed
      exact stays ((swept_iff input pending).mp inside)
    refine ⟨?_, ?_, ?_, ?_, ?_, ?_, ?_, ?_⟩
    · rw [inputs]
      refine List.filter_congr fun input listed => ?_
      rw [decide_not, Bool.not_inj_iff, Bool.eq_iff_iff, decide_eq_true_eq]
      exact (swept_iff input listed).symm
    · conv_lhs => rw [ids]
      refine congrArg _ (List.filter_congr fun input listed => ?_)
      rw [Bool.eq_iff_iff, decide_eq_true_eq]
      exact (swept_iff input listed).symm
    · intro state' same
      rw [Session.active_autoPause active] at same
      cases same
      refine ⟨_, paused, fun input listed inside => ?_, ?_⟩
      · have swept := Session.mem_sweptInputs.mpr ⟨listed, (swept_iff input listed).mp inside⟩
        have kept := (mem_keys_holdInputs now state.heldInputs session.sweptInputs _).mpr
          (.inr ⟨input, swept, rfl⟩)
        exact List.mem_map.mp kept
      · rw [ids, List.length_map]
        exact count_holdInputs now state.heldInputs session.sweptInputs
    · rw [count, ids]
    · intro turn member underway id named inside
      obtain ⟨input, listed, swept, rfl⟩ := (held id).mp inside
      exact Session.not_isUnderway turnsAgree listed swept member named underway
    · intro turn' member id named inside
      obtain ⟨turn, index, there, pruned⟩ := (Session.mem_turns turns).mp member
      rcases prune_eq_some.mp pruned with ⟨whole, rfl⟩ | ⟨-, first, rest, retained, rfl⟩
      · obtain ⟨input, listed, swept, rfl⟩ := (held id).mp inside
        have queued := turnsAgree input listed swept turn' (List.mem_of_getElem? there) named
        refine whole (isPruned_iff.mpr ⟨queued, fun all => ?_⟩)
        exact gone _ inside (all _ named)
      · rw [inputIds_shorten, ← retained, map_id_retainedInputs, List.mem_filter] at named
        exact gone id inside (of_decide_eq_true named.2)
    · intro turn' member
      obtain ⟨turn, index, there, pruned⟩ := (Session.mem_turns turns).mp member
      rcases prune_eq_some.mp pruned with ⟨-, rfl⟩ | ⟨-, first, rest, retained, rfl⟩
      · exact .inl (List.mem_of_getElem? there)
      · refine .inr ⟨first :: rest, List.cons_ne_nil _ _, fun input listed => ?_,
          ⟨turn, List.mem_of_getElem? there, ?_⟩, builtFrom_shorten⟩
        · rw [inputs]
          exact (mem_retainedInputs (retained ▸ listed)).1
        · rw [← retained, map_id_retainedInputs, inputs]
    · intro now' updatedAt' randomUUID'
      refine Session.sweep_of_nothing active'
        ((Session.sweptInputs_after_eq_nil inputs turns).mpr protection) fun turn' member => ?_
      obtain ⟨turn, index, there, pruned⟩ := (Session.mem_turns turns).mp member
      rw [inputs]
      exact not_isPruned_prune pruned

/-! ## Two sessions -/

section Sessions

/-- An automatic input that may be cancelled. -/
def automaticInput (id : JsString) : PendingCodexInput where
  id
  content := id
  cancelable := true
  deliveryFailed := false
  requireFreshSuccessor := false
  deliveryContent := none
  vscodeSelection := none
  autoPauseSourceKind := some .automatic
  autoPauseRecoveries := []
  agentSessionId := some (js "herd-events")
  herdEventKeys := none
  threadKey := none
  questId := none
  handedOn := .null

/-- A turn of inputs that was not yet sent. -/
def queuedTurn (ids : List JsString) (requiresFreshSuccessor : Bool) : CodexOutboundTurn where
  adapterMsg := .codex_start_pending ids (ids.map fun id => ⟨id, none⟩) none
  userMessageId := ids.head?.getD []
  pendingInputIds := some ids
  userContent := (js "\n\n").intercalate ids
  status := .queued
  dispatchCount := 0
  updatedAt := 1
  acknowledgedAt := none
  lastError := none
  turnId := none
  autoPauseSourceKind := some .automatic
  autoPauseRecoveryLinks := none
  providerRecoveryFamily := none
  historyIncorporation := some (createCodexHistoryIncorporation (js "uuid") ids)
  historyTrackingUnknown := false
  terminalHistoryReconciliation := none
  requiresFreshSuccessor

def pausedSession (inputs : List PendingCodexInput) (turns : List CodexOutboundTurn) : Session :=
  ⟨some ⟨some 100, []⟩, inputs, turns⟩

/-- A manual input stays in its turn, and the automatic one beside it is held. -/
theorem backlog_splits_exactly_manual :
    let manual := { automaticInput (js "manual") with autoPauseSourceKind := some .manual }
    let session := pausedSession [manual, automaticInput (js "automatic")]
      [queuedTurn [js "manual", js "automatic"] false]
    let swept := session.sweepCodexAutoPausedQueuedBacklog 130 130 fun _ => js "fresh"
    SplitsExactly session swept.1 swept.2 ∧ swept.2 = ⟨true, 1, [js "automatic"]⟩ := by
  refine ⟨(backlog_splits_exactly _ 130 130 (fun _ => js "fresh") (by decide)).mpr ⟨?_, ?_, ?_⟩,
    by decide⟩
  · unfold Session.IdsAgree
    decide
  · unfold Session.TurnsAgree
    decide
  · intro input _ _ sensitive
    exact absurd sensitive List.not_mem_nil

/-- The input of a continuation was cancelled, so that its turn is shortened and lets go of the other
one: a second sweep holds it. -/
theorem shortened_turn_lets_go :
    let session := pausedSession [automaticInput (js "b")] [queuedTurn [js "a", js "b"] true]
    let swept := session.sweepCodexAutoPausedQueuedBacklog 130 130 fun _ => js "fresh"
    swept.2.heldInputIds = [] ∧
      (swept.1.sweepCodexAutoPausedQueuedBacklog 130 130 fun _ => js "fresh").2.heldInputIds =
        [js "b"] ∧
      ¬ SplitsExactly session swept.1 swept.2 := by
  intro session swept
  have second : (swept.1.sweepCodexAutoPausedQueuedBacklog 130 130 fun _ => js "fresh").2.heldInputIds =
      [js "b"] := by decide
  refine ⟨by decide, second, fun splits => ?_⟩
  rw [splits.again] at second
  cases second

end Sessions

end Takode.AutoPause
