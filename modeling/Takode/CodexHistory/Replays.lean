import Takode.CodexHistory.Logs

/-!
# Replays

In every run, over any acceptances, receipts, snapshots, staged plans and dispatches, the
log of each turn is justified: an input is handed out again once at most, and only on
proof.
-/

namespace Takode.CodexHistory

open JsString

/-- The turns are sound, and the first is not completed. -/
structure Orderly (turns : PendingCodexTurns) : Prop where
  sound : ∀ pending ∈ turns, Sound pending
  current : ∀ pending, turns.head? = some pending → pending.turn.status ≠ .completed

namespace Orderly

variable {turns later : PendingCodexTurns} {pending pending' : PendingTurn}

theorem nil : Orderly [] where
  sound _ inside := by cases inside
  current _ first := by cases first

theorem cons (sound : Sound pending) (current : pending.turn.status ≠ .completed)
    (rest : ∀ pending ∈ later, Sound pending) : Orderly (pending :: later) where
  sound := List.forall_mem_cons.mpr ⟨sound, rest⟩
  current := by
    rintro _ ⟨⟩
    exact current

theorem head (orderly : Orderly (pending :: later)) : Sound pending :=
  orderly.sound pending List.mem_cons_self

theorem rest (orderly : Orderly (pending :: later)) : ∀ pending ∈ later, Sound pending :=
  fun _ inside => orderly.sound _ (List.mem_cons_of_mem _ inside)

/-! ## The queue -/

theorem removeCompleted (sound : ∀ pending ∈ turns, Sound pending) :
    Orderly (removeCompletedCodexTurns turns) where
  sound pending inside := sound pending ((List.dropWhile_sublist _).subset inside)
  current pending first := by
    have kept := List.head?_dropWhile_not (fun pending : PendingTurn =>
      decide (pending.turn.status = .completed)) turns
    rw [removeCompletedCodexTurns] at first
    rw [first] at kept
    simpa using kept

/-- A turn that is done. -/
theorem done (traced : Traced pending) :
    Sound (pending.modify fun turn => { turn with status := .completed }) :=
  .of_busy (traced.follow (traced.follows_of_eq rfl rfl (.inl rfl) rfl) fun _ staged _ => staged)
    (by rintro (same | same) <;> cases same)

theorem complete (traced : Traced pending) (rest : ∀ pending ∈ later, Sound pending) :
    Orderly (completeCodexTurn (pending :: later)) := by
  refine removeCompleted (List.forall_mem_cons.mpr ⟨done traced, ?_⟩)
  intro _ inside
  obtain ⟨pending, held, rfl⟩ := List.mem_map.mp inside
  split
  · exact done (rest pending held).toTraced
  · exact rest pending held

theorem retire (orderly : Orderly turns) (owners : Option Owners) :
    Orderly (retireCodexTurnRecoveryOwners owners turns) := by
  cases owners with
  | none => exact orderly
  | some owners =>
    have left (pending' : PendingTurn)
        (inside : pending' ∈ retireCodexTurnRecoveryOwners (some owners) turns) :
        Sound pending' ∧ pending'.turn.status ≠ .completed := by
      obtain ⟨pending, held, kept⟩ := List.mem_filterMap.mp inside
      obtain ⟨turn, left, rfl⟩ := Option.map_eq_some_iff.mp kept
      exact (orderly.sound pending held).retire left
    exact {
      sound := fun pending inside => (left pending inside).1
      current := fun pending first => (left pending (List.mem_of_mem_head? first)).2 }

theorem modifyOnly (orderly : Orderly turns) (p : PendingTurn → Bool) (f : PendingTurn → PendingTurn)
    (sound : ∀ pending ∈ turns, p pending = true → Sound (f pending))
    (status : ∀ pending, (f pending).turn.status = pending.turn.status) :
    Orderly (modifyOnly p f turns) := by
  unfold CodexHistory.modifyOnly
  split
  · refine ⟨fun pending inside => ?_, fun pending first => ?_⟩
    · obtain ⟨pending, held, rfl⟩ := List.mem_map.mp inside
      split
      · exact sound pending held ‹_›
      · exact orderly.sound pending held
    · rw [List.head?_map, Option.map_eq_some_iff] at first
      obtain ⟨pending, held, rfl⟩ := first
      split
      · rw [status]
        exact orderly.current pending held
      · exact orderly.current pending held
  · exact orderly

theorem modifyFirst (orderly : Orderly turns) {p : PendingTurn → Bool} {f : PendingTurn → PendingTurn}
    (sound : ∀ pending ∈ turns, Sound (f pending))
    (status : ∀ pending, (f pending).turn.status ≠ .completed)
    (changed : modifyFirst p f turns = some later) : Orderly later := by
  suffices both : (∀ pending ∈ later, Sound pending) ∧
      ∀ pending, later.head? = some pending → (∃ before, f before = pending) ∨
        turns.head? = some pending by
    refine ⟨both.1, fun pending first => ?_⟩
    obtain ⟨before, rfl⟩ | first := both.2 pending first
    · exact status before
    · exact orderly.current pending first
  replace orderly := orderly.sound
  induction turns generalizing later with
  | nil => cases changed
  | cons head rest ih =>
    obtain ⟨first, behind⟩ := List.forall_mem_cons.mp orderly
    rw [CodexHistory.modifyFirst] at changed
    split at changed
    · obtain rfl := Option.some.inj changed
      refine ⟨List.forall_mem_cons.mpr ⟨sound head List.mem_cons_self, behind⟩, ?_⟩
      rintro _ ⟨⟩
      exact .inl ⟨head, rfl⟩
    · obtain ⟨rest', behind', rfl⟩ := Option.map_eq_some_iff.mp changed
      have ih := ih (fun pending inside => sound pending (List.mem_cons_of_mem _ inside)) behind' behind
      refine ⟨List.forall_mem_cons.mpr ⟨first, ih.1⟩, ?_⟩
      rintro _ ⟨⟩
      exact .inr rfl

/-- A turn that is put somewhere into the queue. -/
theorem insert (orderly : Orderly turns) (sound : Sound pending)
    (current : pending.turn.status ≠ .completed) (index : Nat) :
    Orderly (turns.take index ++ pending :: turns.drop index) where
  sound pending' inside := by
    obtain before | same | after := by simpa using inside
    · exact orderly.sound pending' (List.mem_of_mem_take before)
    · exact same ▸ sound
    · exact orderly.sound pending' (List.mem_of_mem_drop after)
  current pending' first := by
    rw [List.head?_append] at first
    cases before : (turns.take index).head? with
    | none =>
      rw [before] at first
      obtain rfl := Option.some.inj first
      exact current
    | some head =>
      rw [before] at first
      obtain rfl := Option.some.inj first
      refine orderly.current head ?_
      rw [List.head?_take] at before
      split at before
      · cases before
      · exact before

/-! ## Staged plans -/

theorem advanceHead (orderly : Orderly turns) (answer : HeadAnswer) :
    Orderly (advanceHead answer turns).1 := by
  cases turns with
  | nil => exact .nil
  | cons head rest =>
    rw [CodexHistory.advanceHead]
    cases planned : head.turn.terminalHistoryReconciliation with
    | none => exact orderly
    | some plan =>
      simp only
      split
      · exact orderly
      · rename_i pending
        split
        · exact orderly.retire answer.terminal
        · split
          · exact orderly
          · -- the plan is taken off the turn before it is carried out
            have busy : ¬ head.turn.Waiting := by
              rw [not_not] at pending
              rw [CodexOutboundTurn.Waiting, pending]
              rintro (same | same) <;> cases same
            have opened : Sound (head.modify fun turn =>
                { turn with terminalHistoryReconciliation := none, historyTrackingUnknown := false }) :=
              .of_busy (orderly.head.toTraced.follow
                (orderly.head.toTraced.follows_of_eq rfl rfl (.inl rfl) rfl)
                fun _ staged _ => by cases staged) busy
            have current : head.turn.status ≠ .completed := orderly.current head rfl
            cases action : plan.action with
            | complete => exact complete opened.toTraced orderly.rest
            | actionRequired =>
              exact removeCompleted ((cons opened current orderly.rest).retire answer.failed).sound
            | «continue» =>
              refine retire (removeCompleted (List.forall_mem_cons.mpr ⟨?_, orderly.rest⟩)) answer.failed
              exact done opened.toTraced
            | replay =>
              simp only
              split
              · exact (cons opened current orderly.rest).retire answer.failed
              · rename_i turn begins
                refine cons ?_ nofun orderly.rest
                refine opened.toTraced.replay (fun state tracked first unrecorded => ?_) begins rfl rfl rfl
                exact orderly.head.staged plan planned action state tracked first unrecorded

theorem advance (orderly : Orderly turns) (answers : List HeadAnswer) :
    Orderly (advanceCodexTerminalHistoryReconciliation answers turns) := by
  induction answers generalizing turns with
  | nil => exact orderly
  | cons answer answers ih =>
    have advanced := orderly.advanceHead answer
    show Orderly (if (CodexHistory.advanceHead answer turns).2 then
      advanceCodexTerminalHistoryReconciliation answers (CodexHistory.advanceHead answer turns).1
      else (CodexHistory.advanceHead answer turns).1)
    split
    · exact ih advanced
    · exact advanced

/-! ## Resume snapshots -/

variable {texts : ResumeTexts} {snapshot : CodexResumeSnapshot} {answers : ResumeAnswers}

theorem prepareLaterTerminalBatch (sound : Sound pending) :
    Sound (texts.prepareLaterTerminalBatch snapshot answers pending) := by
  obtain ⟨untracked, found⟩ | ⟨state, evidence, tracked, found, absent, receipt, _⟩ :=
    sound.inspect snapshot
  · rw [ResumeTexts.prepareLaterTerminalBatch, found]
    refine Traced.stage (Traced.finalize (sound.toTraced.classify ?_) answers.indexes) _ nofun
    intro state tracked
    rw [untracked] at tracked
    cases tracked
  · have known : Traced (pending.classify snapshot evidence.presence) := by
      refine sound.toTraced.classify fun state' tracked' => ?_
      obtain rfl := Option.some.inj (tracked.symm.trans tracked')
      exact receipt
    have unknown (reason : JsString) (now : Nat) :
        Sound (((pending.classify snapshot evidence.presence).modify
          (finalizeBatchHistory answers.indexes)).modify fun turn =>
            stageCodexTerminalHistoryReconciliation turn
              ⟨.unknown, reason, .continue, some .verifyThenContinue, now⟩) :=
      (known.finalize answers.indexes).stage _ nofun
    rw [ResumeTexts.prepareLaterTerminalBatch, found]
    simp only
    split
    · exact (known.finalize answers.indexes).stage _ nofun
    · split
      · exact unknown evidence.reason answers.now
      · exact unknown evidence.reason answers.now
      · rename_i presence _
        rw [presence] at known ⊢
        refine known.stage_replay _ fun state' tracked' first unrecorded => ?_
        obtain rfl := Option.some.inj (tracked.symm.trans tracked')
        exact sound.toTraced.absent tracked first unrecorded (absent presence).2
      · have recorded := (known.finalize answers.indexes).record .resumeSnapshot none answers.now
        split
        · exact recorded.stage _ nofun
        · exact recorded.stage _ nofun

theorem prepareLaterTerminalBatches (turn : CodexOutboundTurn)
    (sound : ∀ pending ∈ later, Sound pending) :
    ∀ pending ∈ texts.prepareLaterTerminalBatches snapshot answers turn later, Sound pending := by
  intro _ inside
  obtain ⟨pending, held, rfl⟩ := List.mem_map.mp inside
  split
  · exact sound pending held
  · exact prepareLaterTerminalBatch (sound pending held)

theorem completeRecovered (traced : Traced pending) (rest : ∀ pending ∈ later, Sound pending)
    (mode : CodexTurnRecoveryContinuationMode) :
    Orderly (completeRecoveredCodexTurn answers mode (pending :: later)) := by
  rw [completeRecoveredCodexTurn]
  split
  · exact cons (traced.stage _ nofun) nofun rest
  · exact (complete traced rest).retire answers.failed

/-- The turn is in progress, in the turn of the provider that is listed. -/
theorem rearm (traced : Traced pending) {listed : JsString}
    (named : ∀ state, pending.turn.historyIncorporation = some state →
      ∀ id, state.providerTurnId = some id → listed = id) :
    Sound (pending.modify fun turn =>
      { turn with status := .backendAcknowledged, turnId := some listed }) := by
  refine .of_busy (traced.follow ⟨rfl, fun state tracked => ?_⟩ fun _ staged _ => staged)
    (by rintro (same | same) <;> cases same)
  have ok := traced.tracked state tracked
  exact ⟨{ ok with
    provider := fun id same => ⟨(ok.provider id same).1, fun _ held _ =>
      (Option.some.inj held).symm.trans (named state tracked id same)⟩ }, state, tracked, rfl, rfl, id⟩

theorem status_of_begin {turn begun : CodexOutboundTurn}
    (begins : beginCodexHistoryAbsentReplay turn = some begun) : begun.status = turn.status := by
  obtain ⟨_, _, begins⟩ := Option.bind_eq_some_iff.mp begins
  obtain ⟨_, _, begins⟩ := Option.bind_eq_some_iff.mp begins
  obtain rfl := Option.some.inj begins
  rfl

theorem retry (sound : Sound pending) (ready : ∀ turn : CodexOutboundTurn,
      turn.adapterMsg = pending.turn.adapterMsg → turn.inputIds = pending.turn.inputIds →
      turn.historyIncorporation = pending.turn.historyIncorporation → Sound { pending with turn })
    (current : pending.turn.status ≠ .completed) (rest : ∀ pending ∈ later, Sound pending) :
    Orderly (retryPendingCodexTurn answers (pending :: later)) := by
  rw [retryPendingCodexTurn]
  split
  · exact (cons sound current rest).retire answers.terminal
  · refine cons (ready _ rfl rfl rfl) ?_ rest
    show (if answers.broken then _ else _) ≠ CodexOutboundTurnStatus.completed
    split <;> decide

theorem reconcile (orderly : Orderly turns)
    (reconciled : reconcileEvidenceAwareCodexResume texts snapshot answers turns = some later) :
    Orderly later := by
  cases turns with
  | nil => cases reconciled
  | cons pending rest =>
    obtain ⟨evidence, found, rfl⟩ := Option.map_eq_some_iff.mp reconciled
    have sound := orderly.head
    have behind : ∀ pending' ∈ texts.prepareLaterTerminalBatches snapshot answers pending.turn rest,
        Sound pending' := prepareLaterTerminalBatches pending.turn orderly.rest
    have current : pending.turn.status ≠ .completed := orderly.current pending rfl
    obtain ⟨_, nothing⟩ | ⟨state, evidence', tracked, found', absent, receipt, named⟩ :=
      sound.inspect snapshot
    · rw [nothing] at found
      cases found
    obtain rfl := Option.some.inj (found.symm.trans found')
    have known : Sound (pending.classify snapshot evidence.presence) := by
      refine sound.classify fun state' tracked' => ?_
      obtain rfl := Option.some.inj (tracked.symm.trans tracked')
      exact receipt
    have finalized := known.toTraced.finalize answers.indexes
    have recorded := finalized.record .resumeSnapshot none answers.now
    simp only
    split
    · refine (cons (finalized.stage _ ?_) ?_ behind).advance answers.loop
      · show TerminalAction.actionRequired ≠ _
        decide
      · show CodexOutboundTurnStatus.recoveryPending ≠ _
        decide
    · split
      · rename_i listed active
        have named (state' : CodexHistoryIncorporationState)
            (tracked' : pending.turn.historyIncorporation = some state') (id : JsString)
            (provider : state'.providerTurnId = some id) : listed.id = id := by
          obtain rfl := Option.some.inj (tracked.symm.trans tracked')
          exact named listed (Option.filter_eq_some_iff.mp active).1 id provider
        split
        · refine cons (rearm recorded fun state' tracked' id provider => ?_) nofun behind
          obtain ⟨_, finalized, rfl⟩ := Option.map_eq_some_iff.mp tracked'
          obtain ⟨state, before, rfl⟩ := Option.map_eq_some_iff.mp finalized
          exact named state before id provider
        · exact cons (rearm known.toTraced named) nofun behind
      · split
        · rename_i presence
          split
          · exact (cons known current behind).retire answers.failed
          · rename_i turn begins
            have ready (state' : CodexHistoryIncorporationState)
                (tracked' : pending.turn.historyIncorporation = some state') (first : state'.attempt = 0)
                (unrecorded : state'.recordedAt = none) :
                Fresh (pending.classify snapshot .absent).log ∨
                  Proven (pending.classify snapshot .absent).log
                    (clientIdForAttempt state'.batchId 0) := by
              obtain rfl := Option.some.inj (tracked.symm.trans tracked')
              exact sound.toTraced.absent tracked first unrecorded (absent presence).2
            rw [presence] at known begins ⊢
            refine retry (known.toTraced.replay ready begins rfl rfl rfl) ?_ ?_ behind
            · intro turn' adapter inputs history
              exact known.toTraced.replay ready begins adapter inputs history
            · rw [status_of_begin begins]
              exact current
        · exact completeRecovered finalized behind _
        · exact completeRecovered finalized behind _
        · split
          · exact complete recorded behind
          · exact completeRecovered recorded behind _

/-! ## Acceptances, receipts and dispatches -/

theorem turnStarted (orderly : Orderly turns) {turnId : JsString} (named : trim turnId ≠ [])
    (receiptAwareAdapter : Bool) (now : Nat) :
    Orderly (onTurnStarted turnId receiptAwareAdapter now turns) := by
  cases turns with
  | nil => exact .nil
  | cons pending rest =>
    rw [onTurnStarted]
    split
    · have accepted := orderly.head.toTraced.accept named .backendAcknowledged now
      refine cons (.of_busy ?_ ?_) ?_ orderly.rest
      · cases receiptAwareAdapter with
        | true => exact accepted
        | false => exact accepted.follow ⟨rfl, by rintro _ ⟨⟩⟩ fun _ staged _ => staged
      · cases receiptAwareAdapter <;> rintro (same | same) <;> cases same
      · cases receiptAwareAdapter <;> exact nofun
    · exact orderly

theorem steer (orderly : Orderly turns) (turnId : JsString) (sound : Sound pending)
    (current : pending.turn.status ≠ .completed) : Orderly (insertAfterTurn turnId pending turns) :=
  orderly.insert sound current _

theorem observe (orderly : Orderly turns) {receipt : Receipt} (named : trim receipt.turnId ≠ [])
    (handed : ∀ pending ∈ turns, receipt.observes pending = true →
      some receipt.clientUserMessageId ∈ handOuts pending.log) (indexes : JsString → Option Nat) :
    Orderly (recordCodexHistoryReceiptObservation receipt indexes turns) := by
  refine orderly.modifyOnly _ _ (fun pending inside observes => ?_) fun _ => rfl
  have sound := orderly.sound pending inside
  refine .of_busy (((sound.toTraced.name named observes).finalize indexes).record _ _ _) ?_
  have handed := handed pending inside observes
  simp only [Receipt.observes, Bool.and_eq_true, Option.any_eq_true, decide_eq_true_eq] at observes
  obtain ⟨_, state, tracked, ⟨same, _⟩, _⟩ := observes
  exact sound.not_waiting tracked (same ▸ handed)

theorem incorporate (orderly : Orderly turns) (receipt : Receipt) (indexes : JsString → Option Nat)
    (activityObserved : Bool) :
    Orderly (recordCodexHistoryIncorporationReceipt receipt indexes activityObserved turns) := by
  refine orderly.modifyOnly _ _ (fun pending inside incorporates => ?_) fun _ => rfl
  have recorded := ((orderly.sound pending inside).toTraced.finalize indexes).record .live
    (some receipt.activityStartHistoryIndex) receipt.observedAt
  refine .of_busy (recorded.follow (recorded.follows_of_eq rfl rfl (.inl rfl) rfl)
    fun _ staged _ => staged) ?_
  have acknowledged : pending.turn.status = .backendAcknowledged := by
    simp only [Receipt.incorporates, Bool.and_eq_true, decide_eq_true_eq] at incorporates
    exact incorporates.1.1.1
  show ¬ (pending.turn.status = _ ∨ pending.turn.status = _)
  rw [acknowledged]
  decide

theorem prepareCodexHistoryTrackingForDispatch_status (turn : CodexOutboundTurn)
    (receiptAware : Bool) (uuid : JsString) :
    (prepareCodexHistoryTrackingForDispatch turn receiptAware uuid).status = turn.status := by
  unfold prepareCodexHistoryTrackingForDispatch
  split
  · rfl
  · split
    · rfl
    · split <;> rfl

theorem unblock_status {turn : CodexOutboundTurn} (current : turn.status ≠ .completed) :
    turn.unblock.status ≠ .completed := by
  unfold CodexOutboundTurn.unblock
  split
  · exact nofun
  · exact current

theorem dispatch (orderly : Orderly turns) (receiptAware : Bool) (uuid : JsString) (accepted : Bool) :
    Orderly (dispatchQueuedCodexTurns receiptAware uuid accepted turns) := by
  cases turns with
  | nil => exact .nil
  | cons head rest =>
    have ready := (orderly.head.prepare receiptAware uuid).unblock
    have open' : ((head.modify fun turn => prepareCodexHistoryTrackingForDispatch turn receiptAware
        uuid).modify CodexOutboundTurn.unblock).turn.status ≠ .completed := by
      refine unblock_status ?_
      show (prepareCodexHistoryTrackingForDispatch head.turn receiptAware uuid).status ≠ _
      rw [prepareCodexHistoryTrackingForDispatch_status]
      exact orderly.current head rfl
    rw [dispatchQueuedCodexTurns]
    generalize (head.modify fun turn => prepareCodexHistoryTrackingForDispatch turn receiptAware
      uuid).modify CodexOutboundTurn.unblock = pending at ready open'
    split
    · exact cons ready open' orderly.rest
    · rename_i idle
      have waiting : pending.turn.Waiting := by
        simp only [Bool.or_eq_true, decide_eq_true_eq, not_or] at idle
        rw [CodexOutboundTurn.Waiting]
        cases status : pending.turn.status <;> simp_all
      split
      · exact cons (ready.handOut waiting _) nofun orderly.rest
      · exact cons (ready.wait waiting rfl rfl (.inl rfl) rfl rfl) nofun orderly.rest

end Orderly

/-! ## New turns -/

/-- A turn of inputs that are not steered, tracked or not. -/
def queuedTurn (type : AdapterMessageType) (inputIds : List JsString) (uuid : Option JsString)
    (blocked : Bool) : PendingTurn :=
  let turn : CodexOutboundTurn := {
    adapterMsg := { type, pendingInputIds := inputIds }
    userMessageId := inputIds.head?.getD []
    pendingInputIds := some inputIds
    status := if blocked then .blockedBrokenSession else .queued }
  ⟨uuid.elim turn fun uuid => turn.track uuid inputIds, []⟩

theorem sound_queuedTurn {type : AdapterMessageType} {inputIds : List JsString}
    {uuid : Option JsString} (inputs : BatchIds inputIds)
    (message : uuid.isSome = true → type ≠ .userMessage) (blocked : Bool) :
    Sound (queuedTurn type inputIds uuid blocked) := by
  have untracked : Sound (queuedTurn type inputIds none blocked) := {
    justified := .nil
    inputs := inputs
    tracked := by rintro _ ⟨⟩
    unrecorded := by rintro _ ⟨⟩
    original := by rintro _ ⟨⟩
    staged := by rintro _ ⟨⟩
    ready := fun _ => .inl .nil
    unstaged := fun _ planned => absurd rfl planned }
  cases uuid with
  | none => exact untracked
  | some uuid => exact untracked.track .nil rfl uuid inputs (message rfl) _

theorem createCodexHistoryIncorporationForClient_eq {inputIds : List JsString} {client : JsString}
    {state : CodexHistoryIncorporationState}
    (created : createCodexHistoryIncorporationForClient inputIds client = some state) :
    ∃ attempt, (attempt = 0 ∨ attempt = 1) ∧
      client = clientIdForAttempt client.dropLast.dropLast attempt ∧
      state = ⟨client.dropLast.dropLast, inputIds, inputIds.map fun _ => none, attempt, client,
        none, none, none, none, none⟩ := by
  simp only [createCodexHistoryIncorporationForClient] at created
  obtain found | ⟨_, found⟩ := Option.or_eq_some_iff.mp created
  · split at found
    · rename_i own
      simp only [Bool.and_eq_true, decide_eq_true_eq] at own
      obtain rfl := Option.some.inj found
      exact ⟨0, .inl rfl, own.1.1, rfl⟩
    · cases found
  · split at found
    · rename_i own
      simp only [Bool.and_eq_true, decide_eq_true_eq] at own
      obtain rfl := Option.some.inj found
      exact ⟨1, .inr rfl, own.1.1, rfl⟩
    · cases found

/-- The client id of inputs that are steered. -/
def steeredClientId (uuid : JsString) (sentIds : List JsString) : JsString :=
  (createCodexHistoryIncorporation uuid sentIds).clientUserMessageId

theorem sound_steeredTurn {inputIds sentIds : List JsString} {uuid turnId : JsString}
    {state : CodexHistoryIncorporationState} (inputs : BatchIds inputIds) (named : trim turnId ≠ [])
    (created : createCodexHistoryIncorporationForClient inputIds (steeredClientId uuid sentIds) =
      some state) {status : CodexOutboundTurnStatus}
    (busy : status ≠ .queued ∧ status ≠ .blockedBrokenSession) (acknowledgedAt : Option Nat) :
    Sound (steeredTurn inputIds state status turnId acknowledgedAt) := by
  obtain ⟨attempt, once, client, rfl⟩ := createCodexHistoryIncorporationForClient_eq created
  have batch : (steeredClientId uuid sentIds).dropLast.dropLast =
      (createCodexHistoryIncorporation uuid sentIds).batchId := by
    show ((createCodexHistoryIncorporation uuid sentIds).batchId ++ js ":" ++
      js "0").dropLast.dropLast = _
    rw [show js "0" = [48] from rfl, List.dropLast_concat, show js ":" = [58] from rfl,
      List.dropLast_concat]
  refine .of_busy ?_ fun waiting => waiting.elim busy.1 busy.2
  exact {
    justified := Justified.nil.append (fun _ _ => .inl rfl) fun _ _ _ _ same => by cases same
    inputs := inputs
    tracked := by
      rintro _ ⟨⟩
      exact {
        tracked := rfl
        batch := by
          show trim (steeredClientId uuid sentIds).dropLast.dropLast ≠ []
          rw [batch]
          exact trim_batchId uuid sentIds
        inputs := inputs
        own := rfl
        indexes := List.length_map _
        attempt := once
        client := client
        adapter := rfl
        message := nofun
        provider := by
          rintro _ ⟨⟩
          refine ⟨named, ?_⟩
          rintro _ ⟨⟩ _
          rfl
        accepted := fun _ => rfl
        recorded := rfl
        activity := by rintro ⟨⟩ }
    unrecorded := by
      rintro _ ⟨⟩ _
      simp [steeredTurn, PendingTurn.handOut]
    original := by
      rintro _ ⟨⟩ rfl
      right
      show [some (steeredClientId uuid sentIds)] = [some (clientIdForAttempt
        (steeredClientId uuid sentIds).dropLast.dropLast 0)]
      rw [← client]
    staged := by rintro _ ⟨⟩ }

/-! ## Runs -/

instance (ids : List JsString) : Decidable (BatchIds ids) :=
  decidable_of_iff (ids ≠ [] ∧ (∀ id ∈ ids, trim id ≠ []) ∧ ids.Nodup)
    ⟨fun ⟨filled, named, distinct⟩ => ⟨filled, named, distinct⟩,
      fun inputs => ⟨inputs.filled, inputs.named, inputs.distinct⟩⟩

/-- What happens to the turns of a session. The ids that the provider gives to turns are not blank, and
it reports the item of an input only after the input was handed out. -/
inductive Event
  | queued (type : AdapterMessageType) (inputIds : List JsString) (uuid : Option JsString)
      (blocked : Bool) (index : Nat)
  | turnStarted (turnId : JsString) (receiptAwareAdapter : Bool) (now : Nat)
  | steerSubmitted (turnId uuid : JsString) (inputIds : List JsString)
  | steered (turnId uuid : JsString) (sentIds inputIds : List JsString) (now : Nat)
  | observed (receipt : Receipt) (indexes : JsString → Option Nat)
  | incorporated (receipt : Receipt) (indexes : JsString → Option Nat) (activityObserved : Bool)
  | resumed (snapshot : CodexResumeSnapshot) (answers : ResumeAnswers)
  | advanced (answers : List HeadAnswer)
  | recoveryFailed (owners : Owners)
  | dispatched (receiptAware : Bool) (uuid : JsString) (accepted : Bool)

def step (texts : ResumeTexts) (turns : PendingCodexTurns) : Event → Option PendingCodexTurns
  | .queued type inputIds uuid blocked index =>
    if BatchIds inputIds ∧ (uuid.isSome = true → type ≠ .userMessage) then
      some (turns.take index ++ queuedTurn type inputIds uuid blocked :: turns.drop index)
    else none
  | .turnStarted turnId receiptAwareAdapter now =>
    if trim turnId ≠ [] then some (onTurnStarted turnId receiptAwareAdapter now turns) else none
  | .steerSubmitted turnId uuid inputIds =>
    if trim turnId ≠ [] ∧ BatchIds inputIds then
      some (recordSubmittedCodexSteerTurn turnId inputIds (steeredClientId uuid inputIds) turns)
    else none
  | .steered turnId uuid sentIds inputIds now =>
    if trim turnId ≠ [] ∧ (inputIds ≠ [] → BatchIds inputIds) then
      some (recordSteeredCodexTurn turnId inputIds (steeredClientId uuid sentIds) now turns)
    else none
  | .observed receipt indexes =>
    if trim receipt.turnId ≠ [] ∧ ∀ pending ∈ turns, receipt.observes pending = true →
        some receipt.clientUserMessageId ∈ handOuts pending.log then
      some (recordCodexHistoryReceiptObservation receipt indexes turns)
    else none
  | .incorporated receipt indexes activityObserved =>
    some (recordCodexHistoryIncorporationReceipt receipt indexes activityObserved turns)
  | .resumed snapshot answers => reconcileEvidenceAwareCodexResume texts snapshot answers turns
  | .advanced answers => some (advanceCodexTerminalHistoryReconciliation answers turns)
  | .recoveryFailed owners => some (retireCodexTurnRecoveryOwners (some owners) turns)
  | .dispatched receiptAware uuid accepted =>
    some (dispatchQueuedCodexTurns receiptAware uuid accepted turns)

def machine (texts : ResumeTexts) : Machine PendingCodexTurns Event where
  start := []
  step := step texts

variable {texts : ResumeTexts} {turns turns' : PendingCodexTurns} {event : Event}

/-- What every event keeps. -/
theorem Orderly.step (orderly : Orderly turns) (taken : step texts turns event = some turns') :
    Orderly turns' := by
  cases event with
  | queued type inputIds uuid blocked index =>
    obtain ⟨⟨inputs, message⟩, same⟩ := Option.ite_none_right_eq_some.mp taken
    obtain rfl := Option.some.inj same
    refine orderly.insert (sound_queuedTurn inputs message blocked) ?_ index
    cases uuid <;> cases blocked <;> exact nofun
  | turnStarted turnId receiptAwareAdapter now =>
    obtain ⟨named, same⟩ := Option.ite_none_right_eq_some.mp taken
    obtain rfl := Option.some.inj same
    exact orderly.turnStarted named receiptAwareAdapter now
  | steerSubmitted turnId uuid inputIds =>
    obtain ⟨⟨named, inputs⟩, same⟩ := Option.ite_none_right_eq_some.mp taken
    obtain rfl := Option.some.inj same
    rw [recordSubmittedCodexSteerTurn, if_neg inputs.filled]
    split
    · rename_i state created
      refine orderly.steer turnId (sound_steeredTurn inputs named created (by decide) none) ?_
      exact nofun
    · exact orderly
  | steered turnId uuid sentIds inputIds now =>
    obtain ⟨⟨named, inputs⟩, same⟩ := Option.ite_none_right_eq_some.mp taken
    obtain rfl := Option.some.inj same
    rw [recordSteeredCodexTurn]
    split
    · rename_i later changed
      refine orderly.modifyFirst (fun pending inside => ?_) (fun _ same => ?_) changed
      · exact .of_busy ((orderly.sound pending inside).toTraced.accept named _ now)
          (by rintro (same | same) <;> cases same)
      · cases same
    · split
      · exact orderly
      · rename_i filled
        split
        · rename_i state created
          have sound : Sound (steeredTurn inputIds state .backendAcknowledged turnId (some now)) :=
            sound_steeredTurn (inputs filled) named created (by decide) (some now)
          simpa using orderly.insert sound nofun turns.length
        · exact orderly
  | observed receipt indexes =>
    obtain ⟨⟨named, handed⟩, same⟩ := Option.ite_none_right_eq_some.mp taken
    obtain rfl := Option.some.inj same
    exact orderly.observe named handed indexes
  | incorporated receipt indexes activityObserved =>
    obtain rfl := Option.some.inj taken
    exact orderly.incorporate receipt indexes activityObserved
  | resumed snapshot answers => exact orderly.reconcile taken
  | advanced answers =>
    obtain rfl := Option.some.inj taken
    exact orderly.advance answers
  | recoveryFailed owners =>
    obtain rfl := Option.some.inj taken
    exact orderly.retire (some owners)
  | dispatched receiptAware uuid accepted =>
    obtain rfl := Option.some.inj taken
    exact orderly.dispatch receiptAware uuid accepted

theorem orderly_of_reachable (reached : (machine texts).Reachable turns) : Orderly turns :=
  reached.invariant .nil fun _ orderly _ taken => orderly.step taken

/-- In every run each input is handed out twice at most, the second time after a snapshot that
proves its absence and while it is not recorded; an input with one receipt in its turn is
present. -/
theorem replayed_once_on_proof (reached : (machine texts).Reachable turns) {pending : PendingTurn}
    (inside : pending ∈ turns) :
    (handOuts pending.log).length ≤ 2 ∧ Justified pending.log := by
  have justified := ((orderly_of_reachable reached).sound pending inside).justified
  exact ⟨justified.length_handOuts, justified⟩

/-- The texts of turns of which none has ended. -/
def plainTexts : ResumeTexts where
  blocksAutomaticRecovery error := error ≠ .null
  hasFinalOutcome _ := false

/-- An input is handed out, is absent from the turn that took it, and is handed out again. -/
def replayedRun : List Event :=
  [.queued .codexStartPending [js "input"] (some (js "batch")) false 0, .dispatched true [] true,
    .turnStarted (js "turn") true 1,
    .resumed
      { turns := some [{
          id := js "turn", status := some (js "interrupted"), items := []
          itemsView := some (js "full") }]
        lastTurn := none }
      { now := 2 },
    .dispatched true [] true]

theorem replayedRun_justified : ∃ turns, (machine plainTexts).Reachable turns ∧
    ∃ pending ∈ turns, (handOuts pending.log).length = 2 ∧ Justified pending.log := by
  obtain ⟨turns, reached, pending, inside, twice⟩ :=
    (machine plainTexts).exists_reaches_of_run (fun _ _ => true)
      (fun turns => ∃ pending ∈ turns, (handOuts pending.log).length = 2) replayedRun
      (by decide +kernel)
  exact ⟨turns, reached.reachable, pending, inside, twice,
    (replayed_once_on_proof reached.reachable inside).2⟩

end Takode.CodexHistory
