import Takode.CodexHistory.Evidence
import Takode.CodexHistory.Sessions

/-!
# Logs

When a log is in order: an input is handed out again only on proof that it is absent. What
the state of a turn says of its log, and what each change of a turn keeps of that.
-/

namespace Takode.CodexHistory

open JsString

/-! ## Orderly logs -/

/-- The client ids under which an input was handed out. -/
def handOuts (log : List Happening) : List (Option JsString) :=
  log.filterMap fun
    | .handedOut clientId => some clientId
    | _ => none

/-- The input was not handed out, nor recorded. -/
structure Fresh (log : List Happening) : Prop where
  unsent : handOuts log = []
  unrecorded : Happening.recorded ∉ log

/-- The input was handed out once, was found absent after that, and was not recorded. -/
structure Proven (log : List Happening) (clientId : JsString) : Prop where
  once : handOuts log = [some clientId]
  unrecorded : Happening.recorded ∉ log
  proof : ∃ before after snapshot turnId, log = before ++ after ∧ handOuts after = [] ∧
    Happening.classified snapshot turnId clientId .absent ∈ after ∧
    ProvesAbsence snapshot turnId clientId

/-- An input is handed out first, or again on proof; one receipt in the named turn counts. -/
structure Justified (log : List Happening) : Prop where
  replays : ∀ before clientId, before ++ [Happening.handedOut clientId] <+: log →
    handOuts before = [] ∨ ∃ first, Proven before first
  receipts : ∀ snapshot turnId clientId presence,
    Happening.classified snapshot turnId clientId presence ∈ log →
      OneReceipt snapshot turnId clientId → presence = .present

variable {log : List Happening} {h : Happening} {clientId : JsString}

@[simp] theorem handOuts_append (log log' : List Happening) :
    handOuts (log ++ log') = handOuts log ++ handOuts log' :=
  List.filterMap_append

@[simp] theorem handOuts_handedOut (c : Option JsString) : handOuts [.handedOut c] = [c] := rfl

@[simp] theorem handOuts_classified (snapshot : CodexResumeSnapshot) (turnId : Option JsString)
    (clientId : JsString) (presence : CodexHistoryPresence) :
    handOuts [.classified snapshot turnId clientId presence] = [] := rfl

@[simp] theorem handOuts_recorded : handOuts [.recorded] = [] := rfl

theorem Justified.nil : Justified [] where
  replays before clientId inside := by
    rw [List.prefix_nil] at inside
    cases List.append_ne_nil_of_right_ne_nil before (List.cons_ne_nil _ _) inside
  receipts _ _ _ _ inside := by cases inside

theorem Justified.append (ok : Justified log)
    (replay : ∀ clientId, h = .handedOut clientId → handOuts log = [] ∨ ∃ first, Proven log first)
    (receipt : ∀ snapshot turnId clientId presence, h = .classified snapshot turnId clientId presence →
      OneReceipt snapshot turnId clientId → presence = .present) : Justified (log ++ [h]) where
  replays before clientId inside := by
    obtain last | earlier := List.prefix_concat_iff.mp inside
    · obtain ⟨rfl, same⟩ := List.append_inj' last rfl
      exact replay clientId (List.singleton_injective same).symm
    · exact ok.replays before clientId earlier
  receipts snapshot turnId clientId presence inside one := by
    obtain inside | same := List.mem_append.mp inside
    · exact ok.receipts snapshot turnId clientId presence inside one
    · exact receipt snapshot turnId clientId presence (List.mem_singleton.mp same).symm one

theorem Justified.length_handOuts (ok : Justified log) : (handOuts log).length ≤ 2 := by
  induction log using List.reverseRecOn with
  | nil => exact Nat.zero_le 2
  | append_singleton log h ih =>
    have earlier : Justified log := {
      replays before clientId inside := ok.replays before clientId
        (inside.trans (List.prefix_append log [h]))
      receipts snapshot turnId clientId presence inside :=
        ok.receipts snapshot turnId clientId presence (List.mem_append_left [h] inside) }
    rw [handOuts_append, List.length_append]
    cases h with
    | handedOut clientId =>
      obtain unsent | ⟨first, proven⟩ := ok.replays log clientId (List.prefix_refl _)
      · rw [unsent]
        exact Nat.le_succ 1
      · rw [proven.once]
        exact Nat.le_refl 2
    | classified => exact ih earlier
    | recorded => exact ih earlier

theorem Fresh.nil : Fresh [] := ⟨rfl, by simp⟩

theorem Fresh.classified (fresh : Fresh log) (snapshot : CodexResumeSnapshot)
    (turnId : Option JsString) (clientId : JsString) (presence : CodexHistoryPresence) :
    Fresh (log ++ [.classified snapshot turnId clientId presence]) where
  unsent := by simp [fresh.unsent]
  unrecorded := by simp [fresh.unrecorded]

theorem Proven.classified (proven : Proven log clientId) (snapshot : CodexResumeSnapshot)
    (turnId : Option JsString) (clientId' : JsString) (presence : CodexHistoryPresence) :
    Proven (log ++ [.classified snapshot turnId clientId' presence]) clientId where
  once := by simp [proven.once]
  unrecorded := by simp [proven.unrecorded]
  proof := by
    obtain ⟨before, after, snapshot', turnId', rfl, unsent, inside, absent⟩ := proven.proof
    refine ⟨before, after ++ [.classified snapshot turnId clientId' presence], snapshot', turnId',
      List.append_assoc _ _ _, ?_, List.mem_append_left _ inside, absent⟩
    simp [unsent]

/-- An input that was handed out once is found absent. -/
theorem Proven.intro (once : handOuts log = [some clientId]) (unrecorded : Happening.recorded ∉ log)
    {snapshot : CodexResumeSnapshot} {turnId : Option JsString}
    (absent : ProvesAbsence snapshot turnId clientId) :
    Proven (log ++ [.classified snapshot turnId clientId .absent]) clientId where
  once := by simp [once]
  unrecorded := by simp [unrecorded]
  proof := ⟨log, _, snapshot, turnId, rfl, rfl, List.mem_singleton_self _, absent⟩

theorem clientIdForAttempt_injective (batchId : JsString) :
    Function.Injective (clientIdForAttempt batchId) :=
  fun _ _ same => decimal_injective (List.append_cancel_left same)

/-! ## Turns -/

/-- The turn is to be dispatched. -/
def CodexOutboundTurn.Waiting (turn : CodexOutboundTurn) : Prop :=
  turn.status = .queued ∨ turn.status = .blockedBrokenSession

/-- What the tracking of a turn says of its log. -/
structure Traced (pending : PendingTurn) : Prop where
  justified : Justified pending.log
  inputs : BatchIds pending.turn.inputIds
  tracked : ∀ state, pending.turn.historyIncorporation = some state → TrackedTurn pending.turn state
  unrecorded : ∀ state, pending.turn.historyIncorporation = some state → state.recordedAt = none →
    Happening.recorded ∉ pending.log
  original : ∀ state, pending.turn.historyIncorporation = some state → state.attempt = 0 →
    handOuts pending.log = [] ∨
      handOuts pending.log = [some (clientIdForAttempt state.batchId 0)]
  /-- A replay is staged on proof. -/
  staged : ∀ plan, pending.turn.terminalHistoryReconciliation = some plan → plan.action = .replay →
    ∀ state, pending.turn.historyIncorporation = some state → state.attempt = 0 →
      state.recordedAt = none →
        Fresh pending.log ∨ Proven pending.log (clientIdForAttempt state.batchId 0)

/-- What its status says besides: a turn that waits may be handed out. -/
structure Sound (pending : PendingTurn) : Prop extends Traced pending where
  ready : pending.turn.Waiting → Fresh pending.log ∨
    ∃ state, pending.turn.historyIncorporation = some state ∧ state.attempt = 1 ∧
      Proven pending.log (clientIdForAttempt state.batchId 0)
  unstaged : pending.turn.Waiting → pending.turn.terminalHistoryReconciliation ≠ none →
    ∀ state, pending.turn.historyIncorporation = some state → state.attempt = 1

/-- The tracking of `turn` goes on in `turn'`. -/
structure Follows (turn turn' : CodexOutboundTurn) : Prop where
  inputs : turn'.inputIds = turn.inputIds
  tracked : ∀ state', turn'.historyIncorporation = some state' → TrackedTurn turn' state' ∧
    ∃ state, turn.historyIncorporation = some state ∧ state.batchId = state'.batchId ∧
      state.attempt = state'.attempt ∧ (state'.recordedAt = none → state.recordedAt = none)

variable {pending : PendingTurn} {turn : CodexOutboundTurn}

theorem Sound.of_busy (traced : Traced pending) (busy : ¬ pending.turn.Waiting) : Sound pending where
  toTraced := traced
  ready waiting := absurd waiting busy
  unstaged waiting := absurd waiting busy

/-- A change that goes on with the tracking and stages no replay. -/
theorem Traced.follow (traced : Traced pending) (follows : Follows pending.turn turn)
    (unstaged : ∀ plan, turn.terminalHistoryReconciliation = some plan → plan.action = .replay →
      pending.turn.terminalHistoryReconciliation = some plan) :
    Traced { pending with turn } where
  justified := traced.justified
  inputs := follows.inputs ▸ traced.inputs
  tracked state tracked := (follows.tracked state tracked).1
  unrecorded state' tracked unrecorded := by
    obtain ⟨_, state, before, _, _, recordedAt⟩ := follows.tracked state' tracked
    exact traced.unrecorded state before (recordedAt unrecorded)
  original state' tracked first := by
    obtain ⟨_, state, before, batch, attempt, _⟩ := follows.tracked state' tracked
    rw [← batch]
    exact traced.original state before (attempt.trans first)
  staged plan staged replay state' tracked first unrecorded := by
    obtain ⟨_, state, before, batch, attempt, recordedAt⟩ := follows.tracked state' tracked
    rw [← batch]
    exact traced.staged plan (unstaged plan staged replay) replay state before (attempt.trans first)
      (recordedAt unrecorded)

theorem Traced.follows_of_eq (traced : Traced pending) (adapter : turn.adapterMsg = pending.turn.adapterMsg)
    (inputs : turn.inputIds = pending.turn.inputIds)
    (turnId : turn.turnId = pending.turn.turnId ∨ turn.turnId = none)
    (history : turn.historyIncorporation = pending.turn.historyIncorporation) :
    Follows pending.turn turn := by
  refine ⟨inputs, fun state tracked => ?_⟩
  rw [history] at tracked
  have ok := traced.tracked state tracked
  refine ⟨?_, state, tracked, rfl, rfl, id⟩
  obtain turnId | turnId := turnId
  · exact ok.congr adapter inputs turnId history
  · exact { ok with
      tracked := history.trans tracked
      own := inputs.trans ok.own
      adapter := adapter ▸ ok.adapter
      message := adapter ▸ ok.message
      provider := fun id named => ⟨(ok.provider id named).1, fun _ held => by
        rw [turnId] at held
        cases held⟩ }

/-! ## Snapshots -/

/-- What is found of a turn; the tracking of turns is in order, so that something is found. -/
theorem Traced.inspect (traced : Traced pending) (snapshot : CodexResumeSnapshot) :
    (pending.turn.historyIncorporation = none ∧
      inspectCodexHistoryIncorporation snapshot pending.turn = none) ∨
    ∃ state evidence, pending.turn.historyIncorporation = some state ∧
      inspectCodexHistoryIncorporation snapshot pending.turn = some evidence ∧
      (evidence.presence = .absent → state.recordedAt = none ∧
        ProvesAbsence snapshot pending.turn.namedTurnId state.clientUserMessageId) ∧
      (OneReceipt snapshot pending.turn.namedTurnId state.clientUserMessageId →
        evidence.presence = .present) ∧
      ∀ listed, evidence.turn = some listed → ∀ id, state.providerTurnId = some id →
        listed.id = id := by
  cases tracked : pending.turn.historyIncorporation with
  | none =>
    left
    refine ⟨rfl, ?_⟩
    rw [inspectCodexHistoryIncorporation, normalizeCodexHistoryIncorporation, tracked]
    rfl
  | some state =>
    right
    obtain ⟨evidence, found, facts⟩ := inspect_eq (traced.tracked state tracked)
    exact ⟨state, evidence, rfl, found, facts⟩

theorem classify_of_tracked {state : CodexHistoryIncorporationState}
    (tracked : pending.turn.historyIncorporation = some state) (snapshot : CodexResumeSnapshot)
    (presence : CodexHistoryPresence) :
    pending.classify snapshot presence = { pending with log := pending.log ++
      [.classified snapshot pending.turn.namedTurnId state.clientUserMessageId presence] } := by
  rw [PendingTurn.classify, tracked]
  rfl

theorem classify_of_untracked (tracked : pending.turn.historyIncorporation = none)
    (snapshot : CodexResumeSnapshot) (presence : CodexHistoryPresence) :
    pending.classify snapshot presence = pending := by
  rw [PendingTurn.classify, tracked]
  show PendingTurn.mk pending.turn (pending.log ++ []) = pending
  rw [List.append_nil]

@[simp] theorem classify_turn (snapshot : CodexResumeSnapshot) (presence : CodexHistoryPresence) :
    (pending.classify snapshot presence).turn = pending.turn := rfl

theorem Traced.classify (traced : Traced pending) {snapshot : CodexResumeSnapshot}
    {presence : CodexHistoryPresence}
    (receipt : ∀ state, pending.turn.historyIncorporation = some state →
      OneReceipt snapshot pending.turn.namedTurnId state.clientUserMessageId → presence = .present) :
    Traced (pending.classify snapshot presence) := by
  cases tracked : pending.turn.historyIncorporation with
  | none =>
    rw [classify_of_untracked tracked]
    exact traced
  | some state =>
    rw [classify_of_tracked tracked]
    exact {
      justified := traced.justified.append (fun _ same => by cases same) (by
        rintro _ _ _ _ ⟨⟩
        exact receipt state tracked)
      inputs := traced.inputs
      tracked := traced.tracked
      unrecorded := fun state tracked unrecorded => by
        simpa using traced.unrecorded state tracked unrecorded
      original := fun state tracked first => by simpa using traced.original state tracked first
      staged := fun plan staged replay state tracked first unrecorded =>
        (traced.staged plan staged replay state tracked first unrecorded).imp
          (fun fresh => fresh.classified _ _ _ _) (fun proven => proven.classified _ _ _ _) }

theorem Sound.classify (sound : Sound pending) {snapshot : CodexResumeSnapshot}
    {presence : CodexHistoryPresence}
    (receipt : ∀ state, pending.turn.historyIncorporation = some state →
      OneReceipt snapshot pending.turn.namedTurnId state.clientUserMessageId → presence = .present) :
    Sound (pending.classify snapshot presence) where
  toTraced := sound.toTraced.classify receipt
  ready waiting := by
    cases tracked : pending.turn.historyIncorporation with
    | none =>
      rw [classify_of_untracked tracked]
      exact sound.ready waiting
    | some state =>
      rw [classify_of_tracked tracked]
      obtain fresh | ⟨state, tracked, attempt, proven⟩ := sound.ready waiting
      · exact .inl (fresh.classified _ _ _ _)
      · exact .inr ⟨state, tracked, attempt, proven.classified _ _ _ _⟩
  unstaged := sound.unstaged

/-- A turn that is found absent for the first time may be handed out again. -/
theorem Traced.absent (traced : Traced pending) {snapshot : CodexResumeSnapshot}
    {state : CodexHistoryIncorporationState}
    (tracked : pending.turn.historyIncorporation = some state) (first : state.attempt = 0)
    (unrecorded : state.recordedAt = none)
    (absent : ProvesAbsence snapshot pending.turn.namedTurnId state.clientUserMessageId) :
    Fresh (pending.classify snapshot .absent).log ∨
      Proven (pending.classify snapshot .absent).log (clientIdForAttempt state.batchId 0) := by
  have client : state.clientUserMessageId = clientIdForAttempt state.batchId 0 := by
    rw [(traced.tracked state tracked).client, first]
  have recorded := traced.unrecorded state tracked unrecorded
  rw [classify_of_tracked tracked]
  obtain unsent | once := traced.original state tracked first
  · exact .inl (Fresh.classified ⟨unsent, recorded⟩ _ _ _ _)
  · rw [client] at absent ⊢
    exact .inr (.intro once recorded absent)

/-! ## Changes of a turn -/

theorem Traced.finalize (traced : Traced pending) (indexes : JsString → Option Nat) :
    Traced (pending.modify (finalizeBatchHistory indexes)) := by
  refine traced.follow ⟨rfl, fun state' after => ?_⟩ fun _ staged _ => staged
  obtain ⟨state, tracked, rfl⟩ := Option.map_eq_some_iff.mp after
  have ok := traced.tracked state tracked
  refine ⟨?_, state, tracked, rfl, rfl, id⟩
  exact { ok with
    tracked := after
    indexes := by
      show (pending.turn.inputIds.map indexes).length = _
      rw [List.length_map, ok.own] }

theorem Traced.record (traced : Traced pending) (source : RecordedSource)
    (activityStartHistoryIndex : Option Nat) (recordedAt : Nat) :
    Traced (pending.record source activityStartHistoryIndex recordedAt) := by
  have recorded (state' : CodexHistoryIncorporationState)
      (tracked : (pending.record source activityStartHistoryIndex
        recordedAt).turn.historyIncorporation = some state') : state'.recordedAt ≠ none := by
    obtain ⟨state, _, rfl⟩ := Option.map_eq_some_iff.mp tracked
    cases state.recordedAt <;> simp
  exact {
    justified := traced.justified.append (fun _ same => by cases same) fun _ _ _ _ same => by cases same
    inputs := traced.inputs
    tracked := fun state' tracked => by
      obtain ⟨state, before, rfl⟩ := Option.map_eq_some_iff.mp tracked
      exact { traced.tracked state before with
        tracked := tracked
        recorded := by
          have same := (traced.tracked state before).recorded
          cases at' : state.recordedAt <;> cases from' : state.recordedSource <;>
            simp_all
        activity := fun _ => by cases state.recordedAt <;> rfl }
    unrecorded := fun state' tracked unrecorded => absurd unrecorded (recorded state' tracked)
    original := fun state' tracked first => by
      obtain ⟨state, before, rfl⟩ := Option.map_eq_some_iff.mp tracked
      simpa [PendingTurn.record] using traced.original state before first
    staged := fun _ _ _ state' tracked _ unrecorded =>
      absurd unrecorded (recorded state' tracked) }

theorem not_waiting_of_staged (plan : CodexTerminalHistoryReconciliation) :
    ¬ (stageCodexTerminalHistoryReconciliation turn plan).Waiting := by
  rintro (same | same) <;> cases same

/-- A plan other than a replay may be staged. -/
theorem Traced.stage (traced : Traced pending) (plan : CodexTerminalHistoryReconciliation)
    (other : plan.action ≠ .replay) :
    Sound (pending.modify fun turn => stageCodexTerminalHistoryReconciliation turn plan) := by
  refine .of_busy (traced.follow ?_ ?_) (not_waiting_of_staged plan)
  · exact traced.follows_of_eq rfl rfl (.inl rfl) rfl
  · rintro _ ⟨⟩ replay
    exact absurd replay other

theorem Traced.stage_replay (traced : Traced pending) (plan : CodexTerminalHistoryReconciliation)
    (ready : ∀ state, pending.turn.historyIncorporation = some state → state.attempt = 0 →
      state.recordedAt = none →
        Fresh pending.log ∨ Proven pending.log (clientIdForAttempt state.batchId 0)) :
    Sound (pending.modify fun turn => stageCodexTerminalHistoryReconciliation turn plan) := by
  refine .of_busy ?_ (not_waiting_of_staged plan)
  exact {
    justified := traced.justified
    inputs := traced.inputs
    tracked := fun state tracked => (traced.tracked state tracked).congr rfl rfl rfl rfl
    unrecorded := traced.unrecorded
    original := traced.original
    staged := fun _ _ _ => ready }

/-- A turn that waits stays as it is known. -/
theorem Sound.wait (sound : Sound pending) (waiting : pending.turn.Waiting)
    (adapter : turn.adapterMsg = pending.turn.adapterMsg)
    (inputs : turn.inputIds = pending.turn.inputIds)
    (turnId : turn.turnId = pending.turn.turnId ∨ turn.turnId = none)
    (history : turn.historyIncorporation = pending.turn.historyIncorporation)
    (plan : turn.terminalHistoryReconciliation = pending.turn.terminalHistoryReconciliation) :
    Sound { pending with turn } where
  toTraced := sound.toTraced.follow
    (sound.toTraced.follows_of_eq adapter inputs turnId history) fun _ staged _ => plan ▸ staged
  ready _ := by
    show _ ∨ ∃ state, turn.historyIncorporation = some state ∧ _
    rw [history]
    exact sound.ready waiting
  unstaged _ := by
    show turn.terminalHistoryReconciliation ≠ none → ∀ state, turn.historyIncorporation = _ → _
    rw [history, plan]
    exact sound.unstaged waiting

theorem Sound.unblock (sound : Sound pending) : Sound (pending.modify CodexOutboundTurn.unblock) := by
  show Sound { pending with turn := pending.turn.unblock }
  unfold CodexOutboundTurn.unblock
  split
  · rename_i blocked
    exact sound.wait (.inr blocked) rfl rfl (.inr rfl) rfl rfl
  · exact sound

theorem Sound.handOut (sound : Sound pending) (waiting : pending.turn.Waiting) (dispatchCount : Nat) :
    Sound (pending.modify fun turn => { turn with status := .dispatched, dispatchCount }).handOut := by
  refine .of_busy ?_ (by rintro (same | same) <;> cases same)
  exact {
    justified := sound.justified.append (fun _ _ => by
      obtain fresh | ⟨state, _, _, proven⟩ := sound.ready waiting
      · exact .inl fresh.unsent
      · exact .inr ⟨_, proven⟩) fun _ _ _ _ same => by cases same
    inputs := sound.inputs
    tracked := fun state tracked => (sound.tracked state tracked).congr rfl rfl rfl rfl
    unrecorded := fun state tracked unrecorded => by
      simpa [PendingTurn.handOut, PendingTurn.modify] using sound.unrecorded state tracked unrecorded
    original := fun state tracked first => by
      obtain fresh | ⟨state', tracked', attempt, _⟩ := sound.ready waiting
      · right
        have ok := sound.tracked state tracked
        rw [← first, ← ok.client, ← ok.adapter]
        show handOuts (pending.log ++ _) = _
        rw [handOuts_append, fresh.unsent]
        rfl
      · obtain rfl := Option.some.inj (tracked.symm.trans tracked')
        exact absurd (first.symm.trans attempt) (by decide)
    staged := fun plan staged _ state tracked first _ => by
      have staged : pending.turn.terminalHistoryReconciliation = some plan := staged
      have attempt := sound.unstaged waiting (by rw [staged]; exact Option.some_ne_none plan)
        state tracked
      exact absurd (first.symm.trans attempt) (by decide) }

theorem Sound.not_waiting (sound : Sound pending) {state : CodexHistoryIncorporationState}
    (tracked : pending.turn.historyIncorporation = some state)
    (handed : some state.clientUserMessageId ∈ handOuts pending.log) : ¬ pending.turn.Waiting := by
  intro waiting
  obtain fresh | ⟨state', tracked', attempt, proven⟩ := sound.ready waiting
  · rw [fresh.unsent] at handed
    cases handed
  · obtain rfl := Option.some.inj (tracked.symm.trans tracked')
    rw [proven.once, (sound.tracked state tracked).client, attempt] at handed
    have same := clientIdForAttempt_injective state.batchId
      (Option.some.inj (List.mem_singleton.mp handed))
    exact absurd same (by decide)

/-! ## Tracking -/

/-- A turn that was provably never dispatched. -/
theorem Sound.fresh (sound : Sound pending)
    (never : isCodexTurnProvablyNeverDispatched pending.turn = true) :
    pending.turn.Waiting ∧ pending.turn.terminalHistoryReconciliation = none ∧ Fresh pending.log := by
  simp only [isCodexTurnProvablyNeverDispatched, Bool.and_eq_true, Bool.or_eq_true, decide_eq_true_eq,
    Option.isNone_iff_eq_none] at never
  obtain ⟨⟨⟨⟨⟨⟨⟨waiting, _⟩, plan⟩, _⟩, _⟩, _⟩, _⟩, history⟩ := never
  refine ⟨waiting, plan, ?_⟩
  obtain fresh | ⟨state, tracked, attempt, _⟩ := sound.ready waiting
  · exact fresh
  · rw [(sound.tracked state tracked).normalize, tracked] at history
    simp [attempt] at history

theorem trim_batchId (uuid : JsString) (inputIds : List JsString) :
    trim (createCodexHistoryIncorporation uuid inputIds).batchId ≠ [] := by
  intro blank
  have dash : isSpace 45 = true := by
    refine trim_eq_nil.mp blank 45 ?_
    show (45 : UInt16) ∈ uuid ++ js "-" ++ _
    rw [List.append_assoc]
    exact List.mem_append_right _ (List.mem_append_left _ (by decide))
  exact absurd dash (by decide)

theorem TrackedTurn.track (turn : CodexOutboundTurn) (uuid : JsString) {inputIds : List JsString}
    (inputs : BatchIds inputIds) (message : turn.adapterMsg.type ≠ .userMessage)
    (userMessageId : JsString) :
    TrackedTurn { turn.track uuid inputIds with userMessageId }
      (createCodexHistoryIncorporation uuid inputIds) where
  tracked := rfl
  batch := trim_batchId uuid inputIds
  inputs := inputs
  own := rfl
  indexes := List.length_map _
  attempt := .inl rfl
  client := rfl
  adapter := rfl
  message := message
  provider := by rintro _ ⟨⟩
  accepted := by rintro ⟨⟩
  recorded := rfl
  activity := by rintro ⟨⟩

/-- New tracking of a turn that was not handed out. -/
theorem Sound.track (sound : Sound pending) (fresh : Fresh pending.log)
    (plan : pending.turn.terminalHistoryReconciliation = none) (uuid : JsString)
    {inputIds : List JsString} (inputs : BatchIds inputIds)
    (message : pending.turn.adapterMsg.type ≠ .userMessage) (userMessageId : JsString) :
    Sound { pending with turn := { pending.turn.track uuid inputIds with userMessageId } } where
  justified := sound.justified
  inputs := inputs
  tracked state tracked := by
    obtain rfl := Option.some.inj tracked
    exact .track pending.turn uuid inputs message userMessageId
  unrecorded _ _ _ := fresh.unrecorded
  original _ _ _ := .inl fresh.unsent
  staged _ _ _ _ _ _ _ := .inl fresh
  ready _ := .inl fresh
  unstaged _ staged := absurd plan staged

/-- The absent input of a turn, to be handed out again. -/
theorem Traced.replay (traced : Traced pending)
    (ready : ∀ state, pending.turn.historyIncorporation = some state → state.attempt = 0 →
      state.recordedAt = none →
        Fresh pending.log ∨ Proven pending.log (clientIdForAttempt state.batchId 0))
    {begun : CodexOutboundTurn} (begins : beginCodexHistoryAbsentReplay pending.turn = some begun)
    (adapter : turn.adapterMsg = begun.adapterMsg) (inputs : turn.inputIds = begun.inputIds)
    (history : turn.historyIncorporation = begun.historyIncorporation) :
    Sound { pending with turn } := by
  simp only [beginCodexHistoryAbsentReplay, Option.bind_eq_bind, Option.bind_eq_some_iff,
    Option.guard_eq_some', Bool.and_eq_true, decide_eq_true_eq, Option.isNone_iff_eq_none,
    Option.pure_def, Option.some.injEq] at begins
  obtain ⟨state, tracked, _, ⟨unrecorded, attempt⟩, rfl⟩ := begins
  have ok := traced.tracked state tracked
  have first : state.attempt = 0 := Nat.lt_one_iff.mp attempt
  have before := traced.unrecorded state tracked unrecorded
  have again (state' : CodexHistoryIncorporationState)
      (tracked' : turn.historyIncorporation = some state') : state'.attempt = 1 := by
    rw [history] at tracked'
    obtain rfl := Option.some.inj tracked'
    rfl
  have type : pending.turn.adapterMsg.type = .codexStartPending ∨
      pending.turn.adapterMsg.type = .codexSteerPending := by
    have message := ok.message
    cases type : pending.turn.adapterMsg.type with
    | codexStartPending => exact .inl rfl
    | codexSteerPending => exact .inr rfl
    | userMessage => exact absurd type message
  exact {
    justified := traced.justified
    inputs := by
      show BatchIds turn.inputIds
      rw [inputs]
      exact traced.inputs
    tracked := fun state' tracked' => by
      have tracked'' := tracked'
      rw [history] at tracked''
      obtain rfl := Option.some.inj tracked''
      exact {
        tracked := tracked'
        batch := ok.batch
        inputs := ok.inputs
        own := inputs.trans ok.own
        indexes := ok.indexes
        attempt := .inr rfl
        client := rfl
        adapter := by
          show turn.adapterMsg.clientUserMessageId = _
          rw [adapter]
          simp [type]
        message := by
          show turn.adapterMsg.type ≠ _
          rw [adapter]
          obtain type | type := type <;> simp [type]
        provider := by rintro _ ⟨⟩
        accepted := by rintro ⟨⟩
        recorded := rfl
        activity := by rintro ⟨⟩ }
    unrecorded := fun _ _ _ => before
    original := fun state' tracked' first' => absurd ((again state' tracked').symm.trans first') (by decide)
    staged := fun _ _ _ state' tracked' first' _ =>
      absurd ((again state' tracked').symm.trans first') (by decide)
    ready := fun _ => by
      obtain fresh | proven := ready state tracked first unrecorded
      · exact .inl fresh
      · exact .inr ⟨_, history, rfl, proven⟩
    unstaged := fun _ _ => again }

/-! ## Acceptances, receipts and recoveries that have failed -/

theorem clientUserMessageIdForTurn_eq {state : CodexHistoryIncorporationState}
    (ok : TrackedTurn turn state) : clientUserMessageIdForTurn turn = some state.clientUserMessageId := by
  rw [clientUserMessageIdForTurn, ok.tracked, Option.map_some, ok.client_named, Option.some_or]

/-- The provider has taken a turn under an id. -/
theorem Traced.accept (traced : Traced pending) {turnId : JsString} (named : trim turnId ≠ [])
    (status : CodexOutboundTurnStatus) (now : Nat) :
    Traced (pending.modify fun turn => markCodexHistoryRpcAccepted
      { turn with turnId := some turnId, status, acknowledgedAt := some now } turnId now) := by
  refine traced.follow ⟨rfl, fun state' after => ?_⟩ fun _ staged _ => staged
  obtain ⟨state, tracked, rfl⟩ := Option.map_eq_some_iff.mp after
  have ok := traced.tracked state tracked
  have own : some state.clientUserMessageId = clientUserMessageIdForTurn pending.turn :=
    (clientUserMessageIdForTurn_eq ok).symm
  replace own : some state.clientUserMessageId = clientUserMessageIdForTurn
      { pending.turn with turnId := some turnId, status, acknowledgedAt := some now } := own
  rw [if_pos own] at after ⊢
  refine ⟨?_, state, tracked, rfl, rfl, id⟩
  exact { ok with
    tracked := after
    provider := by
      rintro id ⟨⟩
      refine ⟨named, ?_⟩
      rintro _ ⟨⟩ _
      rfl
    accepted := fun _ => rfl }

/-- The turn of a receipt is the one that the provider has named. -/
theorem Traced.name (traced : Traced pending) {receipt : Receipt} (named : trim receipt.turnId ≠ [])
    (observes : receipt.observes pending = true) :
    Traced (pending.modify fun turn => CodexOutboundTurn.modifyHistory
      { turn with turnId := turn.turnId.or (some receipt.turnId) } fun state =>
        { state with providerTurnId := state.providerTurnId.or (some receipt.turnId) }) := by
  refine traced.follow ⟨rfl, fun state' after => ?_⟩ fun _ staged _ => staged
  obtain ⟨state, tracked, rfl⟩ := Option.map_eq_some_iff.mp after
  replace tracked : pending.turn.historyIncorporation = some state := tracked
  have ok := traced.tracked state tracked
  simp only [Receipt.observes, tracked, Option.any_some, Bool.and_eq_true, decide_eq_true_eq] at observes
  obtain ⟨_, ⟨_, provider⟩, held⟩ := observes
  refine ⟨?_, state, tracked, rfl, rfl, id⟩
  exact { ok with
    tracked := after
    provider := by
      intro id same
      have same : id = receipt.turnId := by
        cases at' : state.providerTurnId with
        | none =>
          rw [at', Option.none_or] at same
          exact (Option.some.inj same).symm
        | some held =>
          rw [at', Option.some_or] at same
          rw [at', Option.all_some, Bool.or_eq_true, decide_eq_true_eq, decide_eq_true_eq] at provider
          obtain blank | held := provider
          · exact absurd (congrArg trim blank) (ok.provider held at').1
          · exact (Option.some.inj same).symm.trans held
      subst same
      refine ⟨named, fun turnId' same filled => ?_⟩
      replace same : pending.turn.turnId.or (some receipt.turnId) = some turnId' := same
      cases at' : pending.turn.turnId with
      | none =>
        rw [at', Option.none_or] at same
        exact (Option.some.inj same).symm
      | some turnId =>
        rw [at', Option.some_or] at same
        rw [at', Option.all_some, Bool.or_eq_true, decide_eq_true_eq, decide_eq_true_eq] at held
        obtain rfl := Option.some.inj same
        obtain rfl | same := held
        · exact absurd rfl filled
        · exact same
    accepted := fun _ => by cases state.providerTurnId <;> rfl }

theorem BatchIds.filter {ids : List JsString} (inputs : BatchIds ids) (p : JsString → Bool)
    (filled : ids.filter p ≠ []) : BatchIds (ids.filter p) where
  filled := filled
  named id inside := inputs.named id (List.mem_of_mem_filter inside)
  distinct := inputs.distinct.filter p

/-- What is left of a turn is as sound, and not completed. -/
theorem Sound.retire (sound : Sound pending) {owners : Owners}
    (left : owners.retire pending.turn = some turn) :
    Sound { pending with turn } ∧ turn.status ≠ .completed := by
  simp only [Owners.retire] at left
  split at left
  · cases left
  · rename_i incomplete
    split at left
    · obtain rfl := Option.some.inj left
      exact ⟨sound, incomplete⟩
    · split at left
      · cases left
      · rename_i remains
        simp only [Bool.or_eq_true, List.isEmpty_iff, decide_eq_true_eq, not_or] at remains
        have inputs := sound.inputs.filter _ remains.1
        split at left
        · rename_i never
          obtain rfl := Option.some.inj left
          obtain ⟨waiting, plan, fresh⟩ := sound.fresh never
          refine ⟨sound.track fresh plan _ inputs remains.2 _, ?_⟩
          show pending.turn.status ≠ _
          obtain queued | blocked := waiting
          · rw [queued]
            decide
          · rw [blocked]
            decide
        · obtain rfl := Option.some.inj left
          refine ⟨.of_busy ?_ (by rintro (same | same) <;> cases same), fun same => by cases same⟩
          exact {
            justified := sound.justified
            inputs := inputs
            tracked := by rintro _ ⟨⟩
            unrecorded := by rintro _ ⟨⟩
            original := by rintro _ ⟨⟩
            staged := by
              rintro _ ⟨⟩ replay
              cases replay }

/-- A turn that is prepared for its dispatch. -/
theorem Sound.prepare (sound : Sound pending) (receiptAware : Bool) (uuid : JsString) :
    Sound (pending.modify fun turn => prepareCodexHistoryTrackingForDispatch turn receiptAware uuid) := by
  show Sound { pending with
    turn := prepareCodexHistoryTrackingForDispatch pending.turn receiptAware uuid }
  unfold prepareCodexHistoryTrackingForDispatch
  split
  · exact sound
  · rename_i prepared
    simp only [Bool.or_eq_true, decide_eq_true_eq, Bool.not_eq_true', not_or, not_not,
      Bool.not_eq_false] at prepared
    obtain ⟨waiting, plan, fresh⟩ := sound.fresh prepared.2
    split
    · exact {
        justified := sound.justified
        inputs := sound.inputs
        tracked := by rintro _ ⟨⟩
        unrecorded := by rintro _ ⟨⟩
        original := by rintro _ ⟨⟩
        staged := by rintro _ _ _ _ ⟨⟩
        ready := fun _ => .inl fresh
        unstaged := by rintro _ _ _ ⟨⟩ }
    · split
      · exact sound
      · exact sound.track fresh plan uuid sound.inputs (by rw [prepared.1]; decide) _

end Takode.CodexHistory
