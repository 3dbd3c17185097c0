import Takode.CodexInputs.Committing

/-!
# Inputs reach the history once

Whatever becomes of the turns that hand them out, inputs are committed to the history once, and the
positions that a turn lists for its inputs are right.
-/

namespace Takode.CodexInputs

open CodexHistory JsString

/-! ## Turns -/

/-- What is recorded of a turn stays. -/
structure KeepsRecord (before after : CodexHistoryIncorporationState) : Prop where
  recordedAt : ∀ time, before.recordedAt = some time → after.recordedAt = some time
  recordedSource : ∀ source, before.recordedSource = some source → after.recordedSource = some source
  activityStart : ∀ index, before.activityStartHistoryIndex = some index →
    after.activityStartHistoryIndex = some index

theorem KeepsRecord.refl (state : CodexHistoryIncorporationState) : KeepsRecord state state :=
  ⟨fun _ known => known, fun _ known => known, fun _ known => known⟩

theorem KeepsRecord.trans {first second third : CodexHistoryIncorporationState}
    (one : KeepsRecord first second) (two : KeepsRecord second third) : KeepsRecord first third where
  recordedAt time known := two.recordedAt time (one.recordedAt time known)
  recordedSource source known := two.recordedSource source (one.recordedSource source known)
  activityStart index known := two.activityStart index (one.activityStart index known)

namespace SteeredTurn

/-- A turn keeps its inputs and what is recorded of it. -/
structure Keeps (before after : SteeredTurn) : Prop where
  inputIds : after.inputIds = before.inputIds
  record : ∀ state, before.historyIncorporation = some state →
    ∃ state', after.historyIncorporation = some state' ∧ KeepsRecord state state'

theorem Keeps.refl (turn : SteeredTurn) : Keeps turn turn :=
  ⟨rfl, fun state tracked => ⟨state, tracked, .refl state⟩⟩

theorem Keeps.trans {first second third : SteeredTurn} (one : Keeps first second)
    (two : Keeps second third) : Keeps first third := by
  refine ⟨two.inputIds.trans one.inputIds, ?_⟩
  intro state tracked
  obtain ⟨state', tracked', kept⟩ := one.record state tracked
  obtain ⟨state'', again, kept'⟩ := two.record state' tracked'
  exact ⟨state'', again, kept.trans kept'⟩

/-- A turn changes in what no position of an input depends on. -/
structure Steady (before after : SteeredTurn) : Prop extends Keeps before after where
  indexes : after.historyIncorporation.map (·.historyIndexes) =
    before.historyIncorporation.map (·.historyIndexes)
  target : after.turnTarget.isSome → before.turnTarget.isSome

theorem Steady.of_modifyHistory {before after : SteeredTurn}
    {f : CodexHistoryIncorporationState → CodexHistoryIncorporationState}
    (inputIds : after.inputIds = before.inputIds)
    (history : after.historyIncorporation = before.historyIncorporation.map f)
    (records : ∀ state, KeepsRecord state (f state))
    (indexes : ∀ state, (f state).historyIndexes = state.historyIndexes)
    (target : after.turnTarget.isSome → before.turnTarget.isSome) : Steady before after where
  inputIds
  record := by
    intro state tracked
    refine ⟨f state, ?_, records state⟩
    rw [history, tracked]
    rfl
  indexes := by
    rw [history]
    cases before.historyIncorporation with
    | none => rfl
    | some state => simp [indexes]
  target

end SteeredTurn

namespace Session

open SteeredTurn

theorem steady_accepted (turn : SteeredTurn) (turnId : JsString) (now : Nat) :
    Steady turn (accepted turn turnId now) := by
  refine .of_modifyHistory rfl rfl ?_ ?_ id
  · intro state
    split
    · exact ⟨fun _ known => known, fun _ known => known, fun _ known => known⟩
    · exact .refl state
  · intro state
    split <;> rfl

theorem steady_named (turn : SteeredTurn) (turnId : JsString) : Steady turn (named turn turnId) := by
  refine .of_modifyHistory rfl rfl ?_ (fun _ => rfl) id
  intro state
  exact ⟨fun _ known => known, fun _ known => known, fun _ known => known⟩

theorem steady_markRecorded (turn : SteeredTurn) (activityStartHistoryIndex recordedAt : Nat) :
    Steady turn (markRecorded turn activityStartHistoryIndex recordedAt) := by
  refine .of_modifyHistory rfl rfl ?_ (fun _ => rfl) id
  intro state
  refine ⟨?_, ?_, ?_⟩
  · intro time known
    simp [known]
  · intro source known
    simp [known]
  · intro index known
    simp [known]

theorem steady_of_history {before after : SteeredTurn} (inputIds : after.inputIds = before.inputIds)
    (history : after.historyIncorporation = before.historyIncorporation)
    (target : after.turnTarget.isSome → before.turnTarget.isSome) : Steady before after := by
  refine .of_modifyHistory inputIds (f := id) ?_ KeepsRecord.refl (fun _ => rfl) target
  rw [history, Option.map_id]
  rfl

theorem keeps_indexed (turn : SteeredTurn) (historyIndexes : List (Option Nat)) :
    Keeps turn (indexed turn historyIndexes) := by
  refine ⟨rfl, ?_⟩
  intro state tracked
  refine ⟨{ state with historyIndexes }, ?_, ?_⟩
  · simp [indexed, CodexOutboundTurn.modifyHistory, tracked]
  · exact ⟨fun _ known => known, fun _ known => known, fun _ known => known⟩

/-! ## What an operation does -/

/-- None of the turn's inputs in the history has been passed to `trackUserMessageForTurn`, and none
is listed twice, if the turn has a target. -/
def Untracked (session : Session) (turn : SteeredTurn) : Prop :=
  turn.turnTarget.isSome → turn.inputIds.Nodup ∧
    ∀ id ∈ turn.inputIds, ∀ position, session.HasAt id position →
      position ∉ session.tracked.map Prod.fst

theorem Untracked.of_steady {session : Session} {before after : SteeredTurn}
    (untracked : session.Untracked before) (steady : Steady before after) : session.Untracked after := by
  intro target
  rw [steady.inputIds]
  exact untracked (steady.target target)

section Observing

variable (session : Session) (receipt : Receipt) (now : Nat)

theorem turns_observe : (session.observe receipt now).turns = session.turns := by
  simp only [observe]

theorem observedTurns_observe :
    (session.observe receipt now).observedTurns receipt = session.observedTurns receipt := by
  simp only [observedTurns, pendingTurns, observe]

variable {session}

theorem untracked_observe {turn : SteeredTurn} (untracked : session.Untracked turn) :
    (session.observe receipt now).Untracked turn := by
  simpa only [Untracked, HasAt, observe] using untracked

end Observing

/-- The steps that the operations are made of. -/
inductive Move (inputs : List PendingCodexInput) : Session → Session → Prop
  | arrange (session : Session) (pendingCodexTurns : List Nat)
      (pendingReceiptObservations : JsMap JsString PendingReceiptObservation) :
      Move inputs session { session with pendingCodexTurns, pendingReceiptObservations }
  | make (session : Session) (turn : SteeredTurn) (pendingCodexTurns : List Nat)
      (handed : ∀ id ∈ turn.inputIds, ∃ input ∈ inputs, input.id = id) :
      Move inputs session { session with turns := session.turns ++ [turn], pendingCodexTurns }
  | modify (session : Session) (turn : Nat) (f : SteeredTurn → SteeredTurn)
      (steady : ∀ found, session.turns[turn]? = some found → Steady found (f found)) :
      Move inputs session (session.modify turn f)
  | finalize (session : Session) (turn : Nat) (notifications : Notifications)
      (untracked : ∀ found, session.turns[turn]? = some found → session.Untracked found) :
      Move inputs session (session.finalizeCodexBatchBrowserHistory turn notifications)

/-- The turn lists for each of its inputs the position that the history has it at. -/
def Indexes (session : Session) (turn : SteeredTurn) : Prop :=
  ∀ state, turn.historyIncorporation = some state →
    List.Forall₂ (fun id index => ∃ position, index = some position ∧ session.HasAt id position)
      turn.inputIds state.historyIndexes

/-- What holds of a session whatever is done with its turns. -/
structure Sound (inputs : List PendingCodexInput) (session : Session) : Prop where
  once : Once inputs session
  handed : ∀ turn ∈ session.turns, ∀ id ∈ turn.inputIds, ∃ input ∈ inputs, input.id = id
  tracked : (session.tracked.map Prod.fst).Nodup
  passed : ∀ position ∈ session.tracked.map Prod.fst, ∃ call ∈ session.finalized, call.2.isSome ∧
    ∃ found, session.turns[call.1]? = some found ∧ ∃ id ∈ found.inputIds, session.HasAt id position
  indexes : ∀ call ∈ session.finalized, ∃ found, session.turns[call.1]? = some found ∧
    session.Indexes found

/-- The turns keep what is recorded of them. -/
def KeepsRecords (before after : Session) : Prop :=
  ∀ (turn : Nat) found, before.turns[turn]? = some found →
    ∃ found', after.turns[turn]? = some found' ∧ Keeps found found'

theorem KeepsRecords.refl (session : Session) : KeepsRecords session session :=
  fun _ found listed => ⟨found, listed, .refl found⟩

theorem Sound.trackedBelow {inputs : List PendingCodexInput} {session : Session}
    (sound : Sound inputs session) {position : Nat} (tracked : position ∈ session.tracked.map Prod.fst) :
    position < session.absoluteHistoryEnd := by
  obtain ⟨-, -, -, -, -, id, -, there⟩ := sound.passed position tracked
  exact there.lt

theorem KeepsRecords.trans {first second third : Session} (one : KeepsRecords first second)
    (two : KeepsRecords second third) : KeepsRecords first third := by
  intro turn found listed
  obtain ⟨found', listed', kept⟩ := one turn found listed
  obtain ⟨found'', again, kept'⟩ := two turn found' listed'
  exact ⟨found'', again, kept.trans kept'⟩

section Moving

variable {inputs : List PendingCodexInput} {session next : Session}

theorem HasAt.committed {id : JsString} {position : Nat} (there : session.HasAt id position)
    (waiting : List PendingCodexInput) (entries : List HistoryEntry) :
    (session.committed waiting entries).HasAt id position := by
  obtain ⟨index, entry, place, found, under⟩ := there
  refine ⟨index, entry, place, ?_, under⟩
  show (session.messageHistory ++ entries)[index]? = some entry
  rw [List.getElem?_append_left (List.getElem?_eq_some_iff.mp found).1]
  exact found

theorem HasAt.of_committed {id : JsString} {position : Nat} {waiting : List PendingCodexInput}
    {entries : List HistoryEntry} (there : (session.committed waiting entries).HasAt id position) :
    session.HasAt id position ∨ session.absoluteHistoryEnd ≤ position := by
  obtain ⟨index, entry, place, found, under⟩ := there
  by_cases old : index < session.messageHistory.length
  · refine .inl ⟨index, entry, place, ?_, under⟩
    have found : (session.messageHistory ++ entries)[index]? = some entry := found
    rwa [List.getElem?_append_left old] at found
  · refine .inr ?_
    have place : position = session.frozenCount + index := place
    unfold absoluteHistoryEnd
    omega

theorem reduceOption_of_forall₂ (At : JsString → Nat → Prop)
    (unique : ∀ first second position, At first position → At second position → first = second)
    {ids : List JsString} {indexes : List (Option Nat)}
    (listed : List.Forall₂ (fun id index => ∃ position, index = some position ∧ At id position)
      ids indexes) :
    (∀ position ∈ indexes.reduceOption, ∃ id ∈ ids, At id position) ∧
      (ids.Nodup → indexes.reduceOption.Nodup) := by
  induction listed with
  | nil => simp [List.reduceOption]
  | @cons id index ids indexes known rest ih =>
    obtain ⟨position, rfl, there⟩ := known
    rw [List.reduceOption_cons_of_some]
    refine ⟨?_, ?_⟩
    · intro other inside
      rcases List.mem_cons.mp inside with rfl | later
      · exact ⟨id, List.mem_cons_self, there⟩
      · obtain ⟨id', inside', there'⟩ := ih.1 other later
        exact ⟨id', List.mem_cons_of_mem _ inside', there'⟩
    · intro distinct
      rw [List.nodup_cons] at distinct
      rw [List.nodup_cons]
      refine ⟨?_, ih.2 distinct.2⟩
      intro inside
      obtain ⟨id', inside', there'⟩ := ih.1 position inside
      rw [unique id id' position there there'] at distinct
      exact distinct.1 inside'

theorem forall₂_historyIndexes (own : OwnIds inputs) (session : Session) (ids : List JsString)
    (reached : ∀ id ∈ ids, ∃ input ∈ inputs, input.id = id ∧ session.IsIncorporated input) :
    List.Forall₂ (fun id index => ∃ position, index = some position ∧ session.HasAt id position)
      ids (session.historyIndexesForInputIds ids) := by
  unfold historyIndexesForInputIds
  rw [List.forall₂_map_right_iff, List.forall₂_same]
  intro id inside
  obtain ⟨input, listed, rfl, -, before, after, history, -⟩ := reached id inside
  have pushed : input.userHistoryEntry ∈ session.messageHistory := by
    rw [history]
    exact List.mem_append_right _ List.mem_cons_self
  have under : input.userHistoryEntry.isUnder input.id = true := by
    simp [HistoryEntry.isUnder, PendingCodexInput.userHistoryEntry]
  exact exists_historyIndex session (own.named input listed) pushed under

theorem Indexes.of_steady {before after : SteeredTurn} (indexed : session.Indexes before)
    (steady : Steady before after) (grows : ∀ id position, session.HasAt id position →
      next.HasAt id position) : next.Indexes after := by
  intro state tracked
  have same := steady.indexes
  rw [tracked, Option.map_some] at same
  obtain ⟨state', tracked', indexes⟩ := Option.map_eq_some_iff.mp same.symm
  rw [steady.inputIds, ← indexes]
  refine (indexed state' tracked').imp ?_
  rintro id index ⟨position, known, there⟩
  exact ⟨position, known, grows id position there⟩

theorem keepsRecords_modify (session : Session) (turn : Nat) (f : SteeredTurn → SteeredTurn)
    (keeps : ∀ found, session.turns[turn]? = some found → Keeps found (f found)) :
    KeepsRecords session (session.modify turn f) := by
  intro index found listed
  show ∃ found', (session.turns.modify turn f)[index]? = some found' ∧ Keeps found found'
  rw [List.getElem?_modify, listed]
  refine ⟨if turn = index then f found else found, rfl, ?_⟩
  by_cases same : turn = index
  · subst same
    rw [if_pos rfl]
    exact keeps found listed
  · rw [if_neg same]
    exact .refl found

theorem getElem?_turns_append {turn : Nat} {found : SteeredTurn}
    (listed : session.turns[turn]? = some found) (made : SteeredTurn) :
    (session.turns ++ [made])[turn]? = some found := by
  rw [List.getElem?_append_left (List.getElem?_eq_some_iff.mp listed).1]
  exact listed

/-- A turn that changes steadily leaves everything sound. -/
theorem Sound.modify (sound : Sound inputs session) (turn : Nat) (f : SteeredTurn → SteeredTurn)
    (steady : ∀ found, session.turns[turn]? = some found → Steady found (f found)) :
    Sound inputs (session.modify turn f) where
  once := ⟨sound.once.listed, sound.once.distinct, sound.once.once⟩
  handed := by
    intro changed inside
    obtain ⟨index, found⟩ := List.mem_iff_getElem?.mp inside
    rw [Session.modify, List.getElem?_modify] at found
    obtain ⟨before, listed, rfl⟩ := Option.map_eq_some_iff.mp found
    by_cases same : turn = index
    · subst same
      simp only [if_true]
      rw [(steady before listed).inputIds]
      exact sound.handed before (List.mem_of_getElem? listed)
    · simp only [same, if_false]
      exact sound.handed before (List.mem_of_getElem? listed)
  tracked := sound.tracked
  passed := by
    intro position tracked
    obtain ⟨call, finalized, target, found, listed, id, inside, there⟩ :=
      sound.passed position tracked
    obtain ⟨found', listed', kept⟩ :=
      keepsRecords_modify session turn f (fun found known => (steady found known).toKeeps) _ found listed
    exact ⟨call, finalized, target, found', listed', id, by rwa [kept.inputIds], there⟩
  indexes := by
    intro call finalized
    obtain ⟨found, listed, indexed⟩ := sound.indexes call finalized
    rw [Session.modify, List.getElem?_modify, listed]
    refine ⟨if turn = call.1 then f found else found, rfl, ?_⟩
    by_cases same : turn = call.1
    · subst same
      rw [if_pos rfl]
      exact indexed.of_steady (steady found listed) fun _ _ there => there
    · rw [if_neg same]
      exact indexed

/-- A turn that is new is not finalized yet. -/
theorem Sound.make (sound : Sound inputs session) (turn : SteeredTurn) (pendingCodexTurns : List Nat)
    (handed : ∀ id ∈ turn.inputIds, ∃ input ∈ inputs, input.id = id) :
    Sound inputs { session with turns := session.turns ++ [turn], pendingCodexTurns } where
  once := ⟨sound.once.listed, sound.once.distinct, sound.once.once⟩
  handed := by
    intro found inside
    rcases List.mem_append.mp inside with earlier | new
    · exact sound.handed found earlier
    · rw [List.mem_singleton.mp new]
      exact handed
  tracked := sound.tracked
  passed := by
    intro position tracked
    obtain ⟨call, finalized, target, found, listed, reached⟩ := sound.passed position tracked
    exact ⟨call, finalized, target, found, getElem?_turns_append listed turn, reached⟩
  indexes := by
    intro call finalized
    obtain ⟨found, listed, indexed⟩ := sound.indexes call finalized
    exact ⟨found, getElem?_turns_append listed turn, indexed⟩

theorem tracked_of_finalized {found : SteeredTurn} {waiting : List PendingCodexInput}
    {entries : List HistoryEntry} {indexes : List (Option Nat)} (sound : Sound inputs session)
    (untracked : session.Untracked found)
    (listed : List.Forall₂ (fun id index => ∃ position, index = some position ∧
      (session.committed waiting entries).HasAt id position) found.inputIds indexes) :
    let tracked := session.tracked ++ found.turnTarget.elim [] fun target =>
      indexes.reduceOption.map fun historyIndex => (historyIndex, target)
    (tracked.map Prod.fst).Nodup ∧ ∀ position ∈ tracked.map Prod.fst,
      position ∈ session.tracked.map Prod.fst ∨ found.turnTarget.isSome ∧
        ∃ id ∈ found.inputIds, (session.committed waiting entries).HasAt id position := by
  cases target : found.turnTarget with
  | none =>
    rw [Option.elim_none, List.append_nil]
    exact ⟨sound.tracked, fun position inside => .inl inside⟩
  | some kind =>
    obtain ⟨distinct, fresh⟩ := untracked (by rw [target]; rfl)
    obtain ⟨places, once⟩ := reduceOption_of_forall₂
      (session.committed waiting entries).HasAt (fun _ _ _ there too => there.unique too) listed
    have positions : (indexes.reduceOption.map fun historyIndex => (historyIndex, kind)).map Prod.fst =
        indexes.reduceOption := by
      rw [List.map_map]
      exact List.map_id _
    simp only [Option.elim_some, List.map_append, positions]
    refine ⟨List.nodup_append.mpr ⟨sound.tracked, once distinct, ?_⟩, ?_⟩
    · rintro position passed again inside rfl
      obtain ⟨id, listed, there⟩ := places position inside
      rcases there.of_committed with before | new
      · exact fresh id listed position before passed
      · have := sound.trackedBelow passed
        omega
    · intro position inside
      rcases List.mem_append.mp inside with earlier | new
      · exact .inl earlier
      · exact .inr ⟨rfl, places position new⟩

theorem Sound.finalize (own : OwnIds inputs) (sound : Sound inputs session) (turn : Nat)
    (notifications : Notifications)
    (untracked : ∀ found, session.turns[turn]? = some found → session.Untracked found) :
    Sound inputs (session.finalizeCodexBatchBrowserHistory turn notifications) := by
  unfold finalizeCodexBatchBrowserHistory
  cases listed : session.turns[turn]? with
  | none => exact sound
  | some found =>
    have commits := Once.commits notifications own sound.once found.inputIds
    obtain ⟨waiting, entries, changed⟩ :=
      commitPendingCodexInputs_eq session notifications found.inputIds
    rw [changed] at commits
    obtain ⟨once, reached⟩ := commits
    have positions := forall₂_historyIndexes own (session.committed waiting entries) found.inputIds (by
        intro id inside
        obtain ⟨input, known, rfl⟩ := sound.handed found (List.mem_of_getElem? listed) id inside
        exact ⟨input, known, rfl, reached input known (.inl inside)⟩)
    have tracked := tracked_of_finalized sound (untracked found listed) positions
    dsimp only
    rw [changed]
    generalize (session.committed waiting entries).historyIndexesForInputIds found.inputIds = indexes
      at positions tracked ⊢
    -- every turn keeps its inputs, and the others keep their positions
    have keeps : ∀ (index : Nat) before, session.turns[index]? = some before →
        ∃ after, (session.turns.modify turn fun turn => indexed turn indexes)[index]? = some after ∧
          Keeps before after :=
      keepsRecords_modify session turn _ fun turn _ => keeps_indexed turn _
    refine ⟨⟨once.listed, once.distinct, once.once⟩, ?_, tracked.1, ?_, ?_⟩
    · intro after inside
      obtain ⟨index, at'⟩ := List.mem_iff_getElem?.mp inside
      rw [Session.modify, List.getElem?_modify] at at'
      obtain ⟨before, known, rfl⟩ := Option.map_eq_some_iff.mp at'
      have handed := sound.handed before (List.mem_of_getElem? known)
      split
      · exact handed
      · exact handed
    · intro position passed
      rcases tracked.2 position passed with old | ⟨target, id, inside, there⟩
      · obtain ⟨call, finalized, target, before, known, id, inside, there⟩ := sound.passed position old
        obtain ⟨after, known', kept⟩ := keeps call.1 before known
        exact ⟨call, List.mem_append_left _ finalized, target, after, known', id,
          by rwa [kept.inputIds], there.committed waiting entries⟩
      · obtain ⟨after, known', kept⟩ := keeps turn found listed
        exact ⟨(turn, found.turnTarget), List.mem_append_right _ List.mem_cons_self, target, after,
          known', id, by rwa [kept.inputIds], there⟩
    · intro call finalized
      by_cases same : turn = call.1
      · refine ⟨indexed found indexes, ?_, ?_⟩
        · show (session.turns.modify turn _)[call.1]? = _
          rw [← same, List.getElem?_modify_eq, listed]
          rfl
        · intro state tracked
          obtain ⟨before, -, rfl⟩ := Option.map_eq_some_iff.mp tracked
          exact positions
      · have earlier : call ∈ session.finalized := by
          rcases List.mem_append.mp finalized with old | new
          · exact old
          · rw [List.mem_singleton.mp new] at same
            exact absurd rfl same
        obtain ⟨other, known, indexed⟩ := sound.indexes call earlier
        refine ⟨other, ?_, ?_⟩
        · show (session.turns.modify turn _)[call.1]? = _
          rw [List.getElem?_modify, known]
          simp [same]
        · intro state tracked
          refine (indexed state tracked).imp ?_
          rintro id place ⟨position, rfl, there⟩
          exact ⟨position, rfl, there.committed waiting entries⟩

theorem Move.sound (own : OwnIds inputs) (sound : Sound inputs session)
    (move : Move inputs session next) : Sound inputs next := by
  cases move with
  | arrange =>
    exact ⟨⟨sound.once.listed, sound.once.distinct, sound.once.once⟩, sound.handed, sound.tracked,
      sound.passed, sound.indexes⟩
  | make turn pendingCodexTurns handed => exact sound.make turn pendingCodexTurns handed
  | modify turn f steady => exact sound.modify turn f steady
  | finalize turn notifications untracked => exact sound.finalize own turn notifications untracked

theorem Move.keepsRecords (move : Move inputs session next) : KeepsRecords session next := by
  cases move with
  | arrange => exact .refl session
  | make turn pendingCodexTurns handed =>
    intro index found listed
    exact ⟨found, getElem?_turns_append listed turn, .refl found⟩
  | modify turn f steady =>
    exact keepsRecords_modify session turn f fun found listed => (steady found listed).toKeeps
  | finalize turn notifications untracked =>
    unfold finalizeCodexBatchBrowserHistory
    cases listed : session.turns[turn]? with
    | none => exact .refl session
    | some found =>
      obtain ⟨waiting, entries, changed⟩ :=
        commitPendingCodexInputs_eq session notifications found.inputIds
      dsimp only
      rw [changed]
      exact keepsRecords_modify session turn _ fun turn _ => keeps_indexed turn _

theorem untracked_modify {turn : Nat} {f : SteeredTurn → SteeredTurn}
    (untracked : ∀ found, session.turns[turn]? = some found → session.Untracked found)
    (steady : ∀ found, session.turns[turn]? = some found → Steady found (f found)) :
    ∀ found, (session.modify turn f).turns[turn]? = some found →
      (session.modify turn f).Untracked found := by
  intro changed listed
  rw [Session.modify, List.getElem?_modify_eq] at listed
  obtain ⟨found, known, rfl⟩ := Option.map_eq_some_iff.mp listed
  exact (untracked found known).of_steady (steady found known)

theorem exists_promote (session : Session) (turn : Nat) (providerTurnId : JsString) :
    ∃ f, session.promoteReceiptProvenSameTurnSteerToCurrent turn providerTurnId =
        session.modify turn f ∧
      ∀ found, session.turns[turn]? = some found → Steady found (f found) := by
  unfold promoteReceiptProvenSameTurnSteerToCurrent
  split
  · next promoted =>
    refine ⟨_, rfl, ?_⟩
    intro found listed
    refine steady_of_history rfl rfl ?_
    intro _
    rw [listed] at promoted
    simp only [Option.any_some, Bool.and_eq_true, decide_eq_true_eq] at promoted
    rw [promoted.1.1]
    rfl
  · refine ⟨id, ?_, fun found _ => steady_of_history rfl rfl id⟩
    simp [Session.modify, List.modify_id]

theorem moves_of_receipt (turn : Nat) (providerTurnId : JsString) (notifications : Notifications)
    (mark : SteeredTurn → SteeredTurn) (marks : ∀ found, Steady found (mark found))
    (untracked : ∀ found, session.turns[turn]? = some found → session.Untracked found) :
    Relation.ReflTransGen (Move inputs) session
      (((session.promoteReceiptProvenSameTurnSteerToCurrent turn providerTurnId)
        |>.finalizeCodexBatchBrowserHistory turn notifications).modify turn mark) := by
  obtain ⟨f, promoted, steady⟩ := exists_promote session turn providerTurnId
  rw [promoted]
  have first : Move inputs session (session.modify turn f) := .modify session turn f steady
  have second : Move inputs (session.modify turn f) _ :=
    .finalize (session.modify turn f) turn notifications (untracked_modify untracked steady)
  exact ((Relation.ReflTransGen.single first).tail second).tail (.modify _ turn mark fun found _ => marks found)

end Moving

/-! ## Runs -/

/-- The inputs that an operation makes a turn for are among these. -/
def Operation.Handed (inputs : List PendingCodexInput) : Operation → Prop
  | .recordSubmittedCodexSteerTurn _ handed _ => handed ⊆ inputs
  | .recordSteeredCodexTurn _ handed _ _ => handed ⊆ inputs
  | _ => True

/-- The only one of a list. -/
def only : List Nat → Option Nat
  | [turn] => some turn
  | _ => none

/-- The turn whose inputs an operation is going to finalize. -/
def finalizedBy (session : Session) : Operation → Option Nat
  | .recordSubmittedCodexSteerTurn .. => none
  | .recordSteeredCodexTurn .. => none
  | .recordCodexHistoryReceiptObservation receipt _ _ => only (session.observedTurns receipt)
  | .recordCodexHistoryIncorporationReceipt receipt _ _ => only (session.receivedTurns receipt)
  | .reconcileSubmittedCodexSteerFailure pendingInputIds clientUserMessageId failure _ _ =>
    (only (session.failedSteers pendingInputIds clientUserMessageId)).filter fun turn =>
      session.turns[turn]?.any fun found => !isReleased found failure
  | .finalizeCodexBatchBrowserHistory turn _ => some turn

/-- Where an operation finalizes a turn with a target, the turn lists no input twice, and no turn was
finalized with a target before that has one of its inputs. -/
def FinalizesOnce (session : Session) (operation : Operation) : Prop :=
  ∀ turn found, session.finalizedBy operation = some turn → session.turns[turn]? = some found →
    found.turnTarget.isSome → found.inputIds.Nodup ∧
      ∀ call ∈ session.finalized, call.2.isSome → ∀ earlier, session.turns[call.1]? = some earlier →
        List.Disjoint earlier.inputIds found.inputIds

/-- None of the inputs that an operation finalizes was passed on before. -/
def PassesOnce (session : Session) (operation : Operation) : Prop :=
  ∀ turn found, session.finalizedBy operation = some turn → session.turns[turn]? = some found →
    session.Untracked found

theorem FinalizesOnce.passesOnce {inputs : List PendingCodexInput} {session : Session}
    {operation : Operation} (once : session.FinalizesOnce operation) (sound : Sound inputs session) :
    session.PassesOnce operation := by
  intro turn found finalized listed target
  obtain ⟨distinct, apart⟩ := once turn found finalized listed target
  refine ⟨distinct, ?_⟩
  intro id inside position there passed
  obtain ⟨call, earlier, targeted, before, known, id', inside', there'⟩ := sound.passed position passed
  rw [there.unique there'] at inside
  exact apart call earlier targeted before known inside' inside

/-- The operations of a run: they hand out these inputs, and finalize none twice for a target. -/
def Meets (inputs : List PendingCodexInput) (session : Session) (operation : Operation) : Prop :=
  operation.Handed inputs ∧ session.FinalizesOnce operation

section Running

variable {inputs : List PendingCodexInput} {session : Session}

theorem handed_steeredTurn {handed : List PendingCodexInput} (among : handed ⊆ inputs)
    (clientUserMessageId : JsString) (status : CodexOutboundTurnStatus) (turnId : JsString)
    (acknowledgedAt : Option Nat) (state : CodexHistoryIncorporationState) :
    ∀ id ∈ (steeredTurn (handed.map (·.id)) clientUserMessageId status turnId acknowledgedAt
      state).inputIds, ∃ input ∈ inputs, input.id = id := by
  intro id inside
  obtain ⟨input, listed, rfl⟩ := List.mem_map.mp inside
  exact ⟨input, among listed, rfl⟩

theorem moves_submitted {handed : List PendingCodexInput} (among : handed ⊆ inputs)
    (expectedTurnId clientUserMessageId : JsString) :
    Relation.ReflTransGen (Move inputs) session
      (session.recordSubmittedCodexSteerTurn expectedTurnId handed clientUserMessageId) := by
  unfold recordSubmittedCodexSteerTurn
  split
  · exact .refl
  · dsimp only
    split
    · exact .refl
    · exact .single (.make session _ _ (handed_steeredTurn among _ _ _ _ _))

theorem moves_steered {handed : List PendingCodexInput} (among : handed ⊆ inputs)
    (turnId clientUserMessageId : JsString) (now : Nat) :
    Relation.ReflTransGen (Move inputs) session
      (session.recordSteeredCodexTurn turnId handed clientUserMessageId now) := by
  unfold recordSteeredCodexTurn
  split
  · exact .single (.modify session _ _ fun found _ => steady_accepted found turnId now)
  · split
    · exact .refl
    · dsimp only
      split
      · exact .refl
      · exact .single (.make session _ _ (handed_steeredTurn among _ _ _ _ _))

theorem moves_observed (receipt : Receipt) (now : Nat) (notifications : Notifications)
    (passes : session.PassesOnce (.recordCodexHistoryReceiptObservation receipt now notifications)) :
    Relation.ReflTransGen (Move inputs) session
      (session.recordCodexHistoryReceiptObservation receipt now notifications) := by
  have observed : Move inputs session (session.observe receipt now) := .arrange session _ _
  unfold recordCodexHistoryReceiptObservation
  dsimp only
  split
  · next turn matching =>
    split
    · exact .single observed
    · have untracked : ∀ found, (session.observe receipt now).turns[turn]? = some found →
          (session.observe receipt now).Untracked found := by
        intro found listed
        rw [observedTurns_observe] at matching
        rw [turns_observe] at listed
        have finalized : session.finalizedBy
            (.recordCodexHistoryReceiptObservation receipt now notifications) = some turn := by
          simp [finalizedBy, matching, only]
        exact untracked_observe receipt now (passes turn found finalized listed)
      have steady : ∀ found, (session.observe receipt now).turns[turn]? = some found →
          Steady found (named found receipt.turnId) := fun found _ => steady_named found receipt.turnId
      have named : Move inputs (session.observe receipt now) _ := .modify _ turn _ steady
      exact ((Relation.ReflTransGen.single observed).tail named).trans
        (moves_of_receipt turn receipt.turnId notifications _
          (fun found => steady_markRecorded found _ _) (untracked_modify untracked steady))
  · exact .single observed

theorem moves_received (receipt : Receipt) (now : Nat) (notifications : Notifications)
    (passes : session.PassesOnce (.recordCodexHistoryIncorporationReceipt receipt now notifications)) :
    Relation.ReflTransGen (Move inputs) session
      (session.recordCodexHistoryIncorporationReceipt receipt now notifications) := by
  unfold recordCodexHistoryIncorporationReceipt
  split
  · next turn matching =>
    dsimp only
    have dropped : Move inputs session _ := .arrange session session.pendingCodexTurns
      (session.pendingReceiptObservations.delete receipt.clientUserMessageId)
    refine ((Relation.ReflTransGen.single dropped).trans (moves_of_receipt turn receipt.turnId
      notifications _ (fun found => steady_markRecorded found _ _) ?_)).tail
        (.modify _ turn _ fun found _ => ?_)
    · intro found listed
      exact passes turn found (by simp [finalizedBy, matching, only]) listed
    · split
      · exact steady_of_history rfl rfl id
      · exact steady_of_history rfl rfl id
  · exact .refl

theorem moves_failed (pendingInputIds : List JsString) (clientUserMessageId : Option JsString)
    (failure : Option TurnSteerFailureInfo) (now : Nat) (notifications : Notifications)
    (passes : session.PassesOnce (.reconcileSubmittedCodexSteerFailure pendingInputIds
      clientUserMessageId failure now notifications)) :
    Relation.ReflTransGen (Move inputs) session
      (session.reconcileSubmittedCodexSteerFailure pendingInputIds clientUserMessageId failure now
        notifications) := by
  unfold reconcileSubmittedCodexSteerFailure
  split
  · next turn matching =>
    cases listed : session.turns[turn]? with
    | none => exact .refl
    | some found =>
      dsimp only
      split
      · exact .single (.arrange session _ session.pendingReceiptObservations)
      · next retained =>
        have finalized : Move inputs session _ := .finalize session turn notifications (by
          intro found' listed'
          refine passes turn found' ?_ listed'
          simp [finalizedBy, matching, only, listed, retained])
        exact (Relation.ReflTransGen.single finalized).tail
          (.modify _ turn _ fun found _ => steady_of_history rfl rfl (by simp [staged]))
  · exact .refl

/-- Every operation is made of the steps. -/
theorem moves_apply (operation : Operation) (handed : operation.Handed inputs)
    (passes : session.PassesOnce operation) :
    Relation.ReflTransGen (Move inputs) session (session.apply operation) := by
  cases operation with
  | recordSubmittedCodexSteerTurn expectedTurnId inputs clientUserMessageId =>
    exact moves_submitted handed expectedTurnId clientUserMessageId
  | recordSteeredCodexTurn turnId inputs clientUserMessageId now =>
    exact moves_steered handed turnId clientUserMessageId now
  | recordCodexHistoryReceiptObservation receipt now notifications =>
    exact moves_observed receipt now notifications passes
  | recordCodexHistoryIncorporationReceipt receipt now notifications =>
    exact moves_received receipt now notifications passes
  | reconcileSubmittedCodexSteerFailure pendingInputIds clientUserMessageId failure now notifications =>
    exact moves_failed pendingInputIds clientUserMessageId failure now notifications passes
  | finalizeCodexBatchBrowserHistory turn notifications =>
    exact .single (.finalize session turn notifications fun found listed => passes turn found rfl listed)

end Running

/-- A session whose inputs wait or are in the history, before any of the operations. -/
structure Starts (inputs : List PendingCodexInput) (session : Session) : Prop where
  own : OwnIds inputs
  once : Once inputs session
  handed : ∀ turn ∈ session.turns, ∀ id ∈ turn.inputIds, ∃ input ∈ inputs, input.id = id
  tracked : session.tracked = []
  finalized : session.finalized = []

theorem Starts.sound {inputs : List PendingCodexInput} {start : Session} (starts : Starts inputs start) :
    Sound inputs start where
  once := starts.once
  handed := starts.handed
  tracked := by simp [starts.tracked]
  passed := by simp [starts.tracked]
  indexes := by simp [starts.finalized]

/-- What one operation preserves. -/
theorem Sound.apply {inputs : List PendingCodexInput} {session : Session} (own : OwnIds inputs)
    (sound : Sound inputs session) {operation : Operation} (meets : Meets inputs session operation) :
    Sound inputs (session.apply operation) ∧ KeepsRecords session (session.apply operation) := by
  have moves := moves_apply operation meets.1 (meets.2.passesOnce sound)
  generalize session.apply operation = next at moves
  induction moves with
  | refl => exact ⟨sound, .refl session⟩
  | tail _ move ih => exact ⟨move.sound own ih.1, ih.2.trans move.keepsRecords⟩

theorem Starts.sound_of_reaches {inputs : List PendingCodexInput} {start session : Session}
    (starts : Starts inputs start) (reached : (machine start).Reaches (Meets inputs) session) :
    Sound inputs session := by
  induction reached with
  | start => exact starts.sound
  | step _ meets taken ih =>
    cases taken
    exact (ih.apply starts.own meets).1

/-- Every input waits or is in the history once, each position is passed on once, the turns that are
finalized list where their inputs are, and what is recorded of a turn stays. -/
theorem inputs_reach_history_once {inputs : List PendingCodexInput} {start session : Session}
    (starts : Starts inputs start) (reached : (machine start).Reaches (Meets inputs) session) :
    (∀ input ∈ inputs, session.IsPending input ∨ session.IsIncorporated input) ∧
      (session.tracked.map Prod.fst).Nodup ∧
      (∀ call ∈ session.finalized, ∃ found, session.turns[call.1]? = some found ∧
        session.Indexes found) ∧
      ∀ later, (machine start).Leads (Meets inputs) session later → KeepsRecords session later := by
  have sound := starts.sound_of_reaches reached
  refine ⟨sound.once.once, sound.tracked, sound.indexes, ?_⟩
  intro later leads
  induction leads with
  | refl => exact .refl session
  | tail before step ih =>
    obtain ⟨operation, meets, taken⟩ := step
    cases taken
    exact ih.trans ((starts.sound_of_reaches (reached.leads before)).apply starts.own meets).2

/-! ### An input that is passed on twice -/

/-- An input with a follow-up. -/
def question : PendingCodexInput where
  id := js "user-1-0"
  content := js "Why?"
  historyFollowUps := [js "A note."]

def asked : Session where
  pendingCodexInputs := [question]
  isGenerating := true

def receiptOfQuestion : Receipt where
  turnId := js "turn-1"
  clientUserMessageId := js "batch:0"
  observedAt := some 3

theorem starts_asked : Starts [question] asked where
  own := by
    refine ownIds_of_userMessageIds (by simp) ?_
    intro input listed
    rw [List.mem_singleton.mp listed]
    exact ⟨1, 0, by decide⟩
  once := by
    refine ⟨fun _ inside => inside, by simp [asked], ?_⟩
    intro input listed
    exact .inl ⟨listed, fun entry inside => absurd inside List.not_mem_nil⟩
  handed turn inside := absurd inside List.not_mem_nil
  tracked := rfl
  finalized := rfl

def submitted : Session :=
  asked.apply (.recordSubmittedCodexSteerTurn (js "turn-1") [question] (js "batch:0"))

theorem submitted_eq : submitted.turns.map (·.inputIds) = [[question.id]] ∧
    submitted.finalized = [] := by
  decide +kernel

theorem meets_submitted : Meets [question] asked
    (.recordSubmittedCodexSteerTurn (js "turn-1") [question] (js "batch:0")) := by
  refine ⟨fun input inside => inside, ?_⟩
  intro turn found finalized
  cases finalized

theorem meets_observed : Meets [question] submitted
    (.recordCodexHistoryReceiptObservation receiptOfQuestion 3 {}) := by
  refine ⟨trivial, ?_⟩
  intro turn found _ listed _
  have handed : found.inputIds ∈ submitted.turns.map (·.inputIds) :=
    List.mem_map_of_mem (List.mem_of_getElem? listed)
  rw [submitted_eq.1, List.mem_singleton] at handed
  refine ⟨?_, ?_⟩
  · rw [handed]
    exact List.nodup_singleton _
  · intro call earlier
    rw [submitted_eq.2] at earlier
    cases earlier

theorem inputs_reach_history_once_observed :
    let observed := submitted.apply (.recordCodexHistoryReceiptObservation receiptOfQuestion 3 {})
    (∀ input ∈ [question], observed.IsPending input ∨ observed.IsIncorporated input) ∧
      (observed.tracked.map Prod.fst).Nodup ∧
      (∀ call ∈ observed.finalized, ∃ found, observed.turns[call.1]? = some found ∧
        observed.Indexes found) ∧
      ∀ later, (machine asked).Leads (Meets [question]) observed later →
        KeepsRecords observed later :=
  inputs_reach_history_once starts_asked
    (.step (.step .start meets_submitted rfl) meets_observed rfl)

/-- A receipt that is observed before the provider accepts the turn, and that is received then, passes
the position of the input on twice. -/
theorem position_passed_twice :
    ∃ session, (machine asked).Reaches (fun _ operation => operation.Handed [question]) session ∧
      session.tracked.map Prod.fst = [0, 0] := by
  refine (machine asked).exists_reaches_of_admitted (fun _ _ => true)
    (fun session => session.tracked.map Prod.fst = [0, 0])
    [.recordSubmittedCodexSteerTurn (js "turn-1") [question] (js "batch:0"),
      .recordCodexHistoryReceiptObservation receiptOfQuestion 3 {},
      .recordSteeredCodexTurn (js "turn-1") [question] (js "batch:0") 4,
      .recordCodexHistoryIncorporationReceipt receiptOfQuestion 5 {}] ?_ (by decide +kernel)
  intro session _ operation inside _
  simp only [List.mem_cons, List.not_mem_nil, or_false] at inside
  rcases inside with rfl | rfl | rfl | rfl
  · exact fun input inside => inside
  · trivial
  · exact fun input inside => inside
  · trivial

end Session

end Takode.CodexInputs
