import Takode.CodexHistory.Incorporation
import Takode.Lib.Distinct

/-!
# Evidence

What a snapshot says of a turn whose tracking is in order: when an input counts as
absent, and that one receipt in the named turn makes it present.
-/

namespace Takode.CodexHistory

open JsString

/-- The ids of a batch of inputs. -/
structure BatchIds (ids : List JsString) : Prop where
  filled : ids ≠ []
  named : ∀ id ∈ ids, trim id ≠ []
  distinct : ids.Nodup

/-- The tracking of a turn is in order. -/
structure TrackedTurn (turn : CodexOutboundTurn) (state : CodexHistoryIncorporationState) : Prop where
  tracked : turn.historyIncorporation = some state
  batch : trim state.batchId ≠ []
  inputs : BatchIds state.inputIds
  own : turn.inputIds = state.inputIds
  indexes : state.historyIndexes.length = state.inputIds.length
  attempt : state.attempt = 0 ∨ state.attempt = 1
  client : state.clientUserMessageId = clientIdForAttempt state.batchId state.attempt
  adapter : turn.adapterMsg.clientUserMessageId = some state.clientUserMessageId
  message : turn.adapterMsg.type ≠ .userMessage
  provider : ∀ id, state.providerTurnId = some id →
    trim id ≠ [] ∧ ∀ turnId, turn.turnId = some turnId → trim turnId ≠ [] → turnId = id
  accepted : state.rpcAcceptedAt.isSome = true → state.providerTurnId.isSome = true
  recorded : state.recordedAt.isSome = state.recordedSource.isSome
  activity : state.activityStartHistoryIndex.isSome = true → state.recordedAt.isSome = true

variable {turn turn' : CodexOutboundTurn} {state : CodexHistoryIncorporationState}
  {snapshot : CodexResumeSnapshot} {listed : CodexResumeTurnSnapshot}
  {evidence : CodexHistoryIncorporationEvidence} {clientId : JsString}

theorem nonEmptyString_of_trim {s : JsString} (named : trim s ≠ []) :
    nonEmptyString (some s) = some s := by
  rw [nonEmptyString, Option.filter_some, if_pos (by simpa using named)]

theorem nonEmptyString_eq_some {value : Option JsString} {s : JsString} :
    nonEmptyString value = some s ↔ value = some s ∧ trim s ≠ [] := by
  rw [nonEmptyString, Option.filter_eq_some_iff]
  simp

namespace TrackedTurn

theorem providerTurnId_named (ok : TrackedTurn turn state) :
    nonEmptyString state.providerTurnId = state.providerTurnId := by
  cases named : state.providerTurnId with
  | none => rfl
  | some id => exact nonEmptyString_of_trim (ok.provider id named).1

theorem client_named (ok : TrackedTurn turn state) :
    nonEmptyString (some state.clientUserMessageId) = some state.clientUserMessageId := by
  refine nonEmptyString_of_trim ?_
  rw [ok.client, clientIdForAttempt, List.append_assoc]
  exact trim_append_ne_nil _ ok.batch

/-- Tracking that is in order is taken as it is. -/
theorem normalize (ok : TrackedTurn turn state) :
    normalizeCodexHistoryIncorporation turn = some state := by
  have attempt : (state.attempt = 0 || state.attempt = 1) = true := by simpa using ok.attempt
  have ids : (state.inputIds.all fun id => decide (trim id ≠ [])) = true :=
    List.all_eq_true.mpr fun id inside => decide_eq_true (ok.inputs.named id inside)
  have provider : (!(state.providerTurnId.isSome && (nonEmptyString turn.turnId).isSome &&
      state.providerTurnId ≠ nonEmptyString turn.turnId)) = true := by
    cases named : state.providerTurnId with
    | none => rfl
    | some id =>
      cases restored : nonEmptyString turn.turnId with
      | none => rfl
      | some turnId =>
        obtain ⟨held, filled⟩ := nonEmptyString_eq_some.mp restored
        rw [(ok.provider id named).2 turnId held filled]
        simp
  have accepted : (!(state.rpcAcceptedAt.isSome && state.providerTurnId.isNone)) = true := by
    cases at' : state.rpcAcceptedAt.isSome with
    | false => rfl
    | true => simpa using ok.accepted at'
  have activity :
      (!(state.activityStartHistoryIndex.isSome && state.recordedAt.isNone)) = true := by
    cases at' : state.activityStartHistoryIndex.isSome with
    | false => rfl
    | true => simpa using ok.activity at'
  have filled : (!state.inputIds.isEmpty) = true := by simpa using ok.inputs.filled
  unfold normalizeCodexHistoryIncorporation
  simp only [ok.tracked, Option.bind_eq_bind, Option.bind_some, ok.providerTurnId_named,
    ok.client_named, nonEmptyString_of_trim ok.batch, ids, attempt, provider, accepted, activity,
    filled, ok.indexes, ok.own, ok.adapter, ok.client.symm, ok.recorded,
    eraseDups_of_nodup ok.inputs.distinct, Option.isSome_some, decide_true, Bool.and_true]
  rfl

/-- What tracking depends on. -/
theorem congr (ok : TrackedTurn turn state) (adapter : turn'.adapterMsg = turn.adapterMsg)
    (inputs : turn'.inputIds = turn.inputIds) (turnId : turn'.turnId = turn.turnId)
    (history : turn'.historyIncorporation = turn.historyIncorporation) :
    TrackedTurn turn' state where
  tracked := history.trans ok.tracked
  batch := ok.batch
  inputs := ok.inputs
  own := inputs.trans ok.own
  indexes := ok.indexes
  attempt := ok.attempt
  client := ok.client
  adapter := adapter ▸ ok.adapter
  message := adapter ▸ ok.message
  provider := turnId ▸ ok.provider
  accepted := ok.accepted
  recorded := ok.recorded
  activity := ok.activity

theorem namedTurnId_eq (ok : TrackedTurn turn state) :
    turn.namedTurnId = state.providerTurnId.or turn.turnId := by
  rw [CodexOutboundTurn.namedTurnId, ok.tracked, Option.bind_some]

end TrackedTurn

/-! ## Absence and presence -/

/-- The snapshot lists the turn in full, uncompacted and not in progress in a thread that is active,
and nowhere an item of the user with the client id. -/
def ProvesAbsence (snapshot : CodexResumeSnapshot) (turnId : Option JsString) (clientId : JsString) :
    Prop :=
  ∃ listed ∈ snapshot.listedTurns, turnId = some listed.id ∧ listed.itemsView = some (js "full") ∧
    (∀ item ∈ listed.items, isContextCompactionItem item = false) ∧
    isActiveResume listed snapshot = false ∧
    ∀ other ∈ snapshot.listedTurns, ∀ item ∈ other.items,
      codexUserMessageClientId item ≠ some clientId

/-- The snapshot lists one item of the user with the client id, in the turn. -/
def OneReceipt (snapshot : CodexResumeSnapshot) (turnId : Option JsString) (clientId : JsString) :
    Prop :=
  ∃ listed index, receipts snapshot.listedTurns clientId = [(listed, index)] ∧
    turnId = some listed.id

theorem receipts_eq_nil {turns : List CodexResumeTurnSnapshot} :
    receipts turns clientId = [] ↔
      ∀ turn ∈ turns, ∀ item ∈ turn.items, codexUserMessageClientId item ≠ some clientId := by
  unfold receipts
  rw [List.flatMap_eq_nil_iff]
  refine forall_congr' fun turn => imp_congr_right fun _ => ?_
  rw [List.filterMap_eq_nil_iff]
  constructor
  · intro none' item inside same
    obtain ⟨index, at', rfl⟩ := List.mem_iff_getElem.mp inside
    have listed : (turn.items[index], index) ∈ turn.items.zipIdx :=
      List.mem_zipIdx_iff_getElem?.mpr (List.getElem?_eq_getElem at')
    simpa [same] using none' _ listed
  · rintro other ⟨item, index⟩ listed
    have inside : item ∈ turn.items := List.mem_of_getElem? (List.mem_zipIdx_iff_getElem?.mp listed)
    exact if_neg (other item inside)

theorem expectedTurn_eq_some {turns : List CodexResumeTurnSnapshot} {turnId : Option JsString}
    (found : expectedTurn turns turnId = some listed) : listed ∈ turns ∧ turnId = some listed.id := by
  obtain ⟨id, named, found⟩ := Option.bind_eq_some_iff.mp found
  obtain ⟨same, _⟩ := Option.filter_eq_some_iff.mp named
  refine ⟨List.mem_of_find?_eq_some found, ?_⟩
  have named : listed.id = id := of_decide_eq_true (List.find?_some found :)
  rw [same, named]

theorem missingEvidence_absent
    (absent : (missingEvidence snapshot listed).presence = .absent) :
    listed.itemsView = some (js "full") ∧
      (∀ item ∈ listed.items, isContextCompactionItem item = false) ∧
      isActiveResume listed snapshot = false := by
  unfold missingEvidence at absent
  split at absent
  · cases absent
  · rename_i full
    split at absent
    · cases absent
    · rename_i uncompacted
      split at absent
      · cases absent
      · rename_i inactive
        refine ⟨not_not.mp full, fun item inside => ?_, Bool.eq_false_iff.mpr inactive⟩
        exact Bool.eq_false_iff.mpr fun compacted =>
          uncompacted (List.any_eq_true.mpr ⟨item, inside, compacted⟩)

theorem missingEvidence_turn : (missingEvidence snapshot listed).turn = some listed ∧
    (missingEvidence snapshot listed).presence ≠ .present := by
  unfold missingEvidence
  split
  · exact ⟨rfl, by simp [unknownEvidence]⟩
  · split
    · exact ⟨rfl, by simp [unknownEvidence]⟩
    · split
      · exact ⟨rfl, by simp [unknownEvidence]⟩
      · exact ⟨rfl, by simp⟩

theorem inspect_eq (ok : TrackedTurn turn state) :
    ∃ evidence, inspectCodexHistoryIncorporation snapshot turn = some evidence ∧
      (evidence.presence = .absent → state.recordedAt = none ∧
        ProvesAbsence snapshot turn.namedTurnId state.clientUserMessageId) ∧
      (OneReceipt snapshot turn.namedTurnId state.clientUserMessageId →
        evidence.presence = .present) ∧
      ∀ listed, evidence.turn = some listed → ∀ id, state.providerTurnId = some id →
        listed.id = id := by
  unfold inspectCodexHistoryIncorporation
  rw [ok.normalize, ok.namedTurnId_eq, Option.map_some]
  refine ⟨_, rfl, ?_⟩
  simp only
  split
  · rename_i nowhere
    have unreceived (one : OneReceipt snapshot (state.providerTurnId.or turn.turnId)
        state.clientUserMessageId) : False := by
      obtain ⟨listed, index, found, _⟩ := one
      rw [nowhere] at found
      cases found
    split
    · exact ⟨fun same => (by cases same), fun one => (unreceived one).elim, fun _ same => by cases same⟩
    · rename_i unrecorded
      have recorded : state.recordedAt = none := by simpa using unrecorded
      cases found : expectedTurn snapshot.listedTurns (state.providerTurnId.or turn.turnId) with
      | none =>
        exact ⟨fun same => (by cases same), fun one => (unreceived one).elim,
          fun _ same => by cases same⟩
      | some candidate =>
        obtain ⟨inside, named⟩ := expectedTurn_eq_some found
        refine ⟨fun absent => ⟨recorded, ?_⟩, fun one => (unreceived one).elim, ?_⟩
        · obtain ⟨full, uncompacted, inactive⟩ := missingEvidence_absent absent
          exact ⟨candidate, inside, named, full, uncompacted, inactive, receipts_eq_nil.mp nowhere⟩
        · intro listed same id provider
          rw [missingEvidence_turn.1] at same
          obtain rfl := Option.some.inj same
          rw [provider, Option.some_or] at named
          exact (Option.some.inj named).symm
  · rename_i listed index found
    have known (one : OneReceipt snapshot (state.providerTurnId.or turn.turnId)
        state.clientUserMessageId) (id : JsString) (provider : state.providerTurnId = some id) :
        listed.id = id := by
      obtain ⟨listed', index', found', named⟩ := one
      rw [found] at found'
      cases found'
      rw [provider, Option.some_or] at named
      exact (Option.some.inj named).symm
    split
    · rename_i other
      refine ⟨fun same => (by cases same), fun one => ?_, fun _ same => by cases same⟩
      obtain ⟨id, provider, distinct⟩ := (Option.any_eq_true _ _).mp other
      exact absurd (known one id provider) (of_decide_eq_true distinct)
    · rename_i same
      refine ⟨fun absent => (by cases absent), fun _ => rfl, fun listed' turn' id provider => ?_⟩
      obtain rfl := Option.some.inj turn'
      rw [provider] at same
      simpa using same
  · rename_i several single
    refine ⟨fun same => (by cases same), fun one => ?_, fun _ same => by cases same⟩
    obtain ⟨listed, index, found, _⟩ := one
    exact absurd found (single listed index)

end Takode.CodexHistory
