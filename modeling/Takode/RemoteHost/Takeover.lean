import Takode.RemoteHost.Network

/-!
# What a takeover replays

A coordinator that takes a process over gets the stdout its predecessor had not
acknowledged, after the partial line the predecessor saw only part of. A host
therefore folds the stdout it drops into `unfinishedLine`. It does so for an
`event_ack`, but not for what a welcome of the same coordinator says it has
received.
-/

namespace Takode.RemoteHost

/-! ## Lines -/

theorem newline_notMem_afterLastNewline (bytes : Bytes) : newline ∉ afterLastNewline bytes := by
  induction bytes with
  | nil => exact List.not_mem_nil
  | cons b rest ih =>
    rw [afterLastNewline]
    split
    · exact ih
    · rename_i later
      split
      · exact later
      · rename_i other
        exact fun inside => (List.mem_cons.mp inside).elim (fun same => other same.symm) later

theorem afterLastNewline_of_notMem {bytes : Bytes} (whole : newline ∉ bytes) :
    afterLastNewline bytes = bytes := by
  cases bytes with
  | nil => rfl
  | cons b rest =>
    have other : b ≠ newline := fun same => whole (same ▸ List.mem_cons_self)
    have later : newline ∉ rest := fun inside => whole (List.mem_cons_of_mem _ inside)
    rw [afterLastNewline, if_neg later, if_neg other]

theorem afterLastNewline_append (xs ys : Bytes) :
    afterLastNewline (xs ++ ys) =
      if newline ∈ ys then afterLastNewline ys else afterLastNewline xs ++ ys := by
  induction xs with
  | nil =>
    split
    · rfl
    · rename_i whole
      exact afterLastNewline_of_notMem whole
  | cons b rest ih =>
    rw [List.cons_append, afterLastNewline, ih]
    by_cases later : newline ∈ ys
    · simp [later]
    · by_cases inside : newline ∈ rest
      · simp [later, inside, afterLastNewline]
      · by_cases here : b = newline
        · simp [later, inside, here, afterLastNewline]
        · simp [later, inside, here, afterLastNewline]

theorem afterLastNewline_idem (bytes : Bytes) :
    afterLastNewline (afterLastNewline bytes) = afterLastNewline bytes :=
  afterLastNewline_of_notMem (newline_notMem_afterLastNewline bytes)

theorem lineRemainder_eq (received : Bytes) (data : JsString) :
    lineRemainder (afterLastNewline received) data =
      afterLastNewline (received ++ fromBase64 data) := by
  rw [afterLastNewline_append]
  rfl

/-! ## The partial line -/

/-- The events a host drops when those up to `seq` are known to have arrived. -/
def HostedProcess.dropped (hosted : HostedProcess) (seq : Nat) : List PendingEvent :=
  hosted.pending.filter fun p => p.seq ≤ seq

/-- The partial line of a process is what its dropped stdout leaves of one. -/
structure Folded (hosted : HostedProcess) : Prop where
  sorted : hosted.pending.Pairwise fun p q => p.seq < q.seq
  bound : ∀ p ∈ hosted.pending, p.seq < hosted.nextSeq
  line : hosted.unfinishedLine = afterLastNewline hosted.pruned

theorem foldl_foldLine (pending : List PendingEvent) (received : Bytes) :
    pending.foldl HostAgent.foldLine (afterLastNewline received) =
      afterLastNewline (received ++ stdoutOf pending) := by
  induction pending generalizing received with
  | nil => simp [stdoutOf]
  | cons p rest ih =>
    have split : stdoutOf (p :: rest) = p.event.stdoutBytes ++ stdoutOf rest := rfl
    rw [List.foldl_cons, split, ← List.append_assoc, ← ih, HostAgent.foldLine]
    cases event : p.event with
    | stdout data =>
      dsimp only
      rw [lineRemainder_eq]
      rfl
    | _ => simp [HostedEvent.stdoutBytes]

theorem takeWhile_eq_filter {pending : List PendingEvent}
    (sorted : pending.Pairwise fun p q => p.seq < q.seq) (seq : Nat) :
    (pending.takeWhile fun p => p.seq ≤ seq) = pending.filter fun p => p.seq ≤ seq := by
  induction pending with
  | nil => rfl
  | cons p rest ih =>
    obtain ⟨above, later⟩ := List.pairwise_cons.mp sorted
    by_cases old : p.seq ≤ seq
    · simp [old, ih later]
    · have none : rest.filter (fun p => p.seq ≤ seq) = [] := by
        apply List.filter_eq_nil_iff.mpr
        intro q inside
        have := above q inside
        simp only [decide_eq_true_eq]
        omega
      simp [old, none]

namespace Folded

variable {hosted : HostedProcess}

theorem foldAcknowledged (folded : Folded hosted) (seq : Nat) :
    HostAgent.foldAcknowledged seq hosted = afterLastNewline (hosted.prune seq).pruned := by
  unfold HostAgent.foldAcknowledged
  rw [takeWhile_eq_filter folded.sorted, folded.line, foldl_foldLine]
  rfl

theorem afterLastNewline_prune (folded : Folded hosted) (seq : Nat) :
    afterLastNewline (hosted.prune seq).pruned =
      afterLastNewline (hosted.unfinishedLine ++ stdoutOf (hosted.dropped seq)) := by
  rw [folded.line, afterLastNewline_append]
  exact (afterLastNewline_append _ _).trans (by rw [afterLastNewline_idem]; rfl)

theorem fresh (spawned : Bool) : Folded { spawned := spawned } := ⟨.nil, by simp, rfl⟩

/-- Dropping events keeps the partial line right if it is set to what they leave of it. -/
theorem prune (folded : Folded hosted) {seq : Nat} {line : Bytes}
    (kept : line = afterLastNewline (hosted.prune seq).pruned) :
    Folded { hosted.prune seq with unfinishedLine := line } :=
  ⟨folded.sorted.sublist List.filter_sublist,
    fun p inside => folded.bound p (List.mem_of_mem_filter inside), kept⟩

theorem carryOver (hosted : HostedProcess) : Folded (HostAgent.carryOver hosted) := by
  refine ⟨?_, ?_, rfl⟩
  · simp only [HostAgent.carryOver, List.pairwise_iff_getElem, List.getElem_mapIdx]
    intro i j _ _ before
    omega
  · intro p inside
    obtain ⟨i, small, rfl⟩ := List.mem_iff_getElem.mp inside
    simp only [HostAgent.carryOver, List.length_mapIdx, List.getElem_mapIdx] at small ⊢
    omega

theorem emit (folded : Folded hosted) (event : HostedEvent) (exited : Bool) :
    Folded { hosted with
      exited := exited
      nextSeq := hosted.nextSeq + 1
      pending := hosted.pending ++ [⟨hosted.nextSeq, event⟩] } := by
  refine ⟨?_, ?_, folded.line⟩
  · exact List.pairwise_append.mpr ⟨folded.sorted, List.pairwise_singleton _ _,
      fun p inside q last => List.mem_singleton.mp last ▸ folded.bound p inside⟩
  · intro p inside
    rcases List.mem_append.mp inside with old | new
    · exact Nat.lt_succ_of_lt (folded.bound p old)
    · rw [List.mem_singleton.mp new]
      exact Nat.lt_succ_self _

end Folded

/-! ## What a host does to its processes -/

/-- Every partial line of a host is right. -/
def AllFolded (processes : JsMap ProcId HostedProcess) : Prop :=
  ∀ procId hosted, processes.get? procId = some hosted → Folded hosted

namespace AllFolded

variable {processes : JsMap ProcId HostedProcess}

theorem init : AllFolded ∅ := fun procId hosted found => by simp at found

theorem set (all : AllFolded processes) {procId : ProcId} {hosted : HostedProcess}
    (folded : Folded hosted) : AllFolded (processes.set procId hosted) := by
  intro other found inside
  rw [JsMap.get?_set] at inside
  split at inside
  · exact Option.some.inj inside ▸ folded
  · exact all other found inside

theorem delete (all : AllFolded processes) (procId : ProcId) :
    AllFolded (processes.delete procId) := by
  intro other found inside
  rw [JsMap.get?_delete] at inside
  split at inside
  · cases inside
  · exact all other found inside

theorem filterMap {f : ProcId → HostedProcess → Option HostedProcess}
    (each : ∀ procId hosted, processes.get? procId = some hosted →
      ∀ kept, f procId hosted = some kept → Folded kept) :
    AllFolded (processes.filterMap f) := by
  intro procId kept found
  rw [JsMap.get?_filterMap] at found
  obtain ⟨hosted, inside, result⟩ := Option.bind_eq_some_iff.mp found
  exact each procId hosted inside kept result

variable {a : HostAgent}

theorem emit (all : AllFolded a.processes) (procId : ProcId) (event : HostedEvent) :
    AllFolded (a.emit procId event).1.processes := by
  unfold HostAgent.emit
  split
  · exact all
  · rename_i hosted found
    split
    · exact all
    · exact all.set ((all procId hosted found).emit event _)

theorem emitAll (all : AllFolded a.processes) (procId : ProcId) (events : List HostedEvent) :
    AllFolded (a.emitAll procId events).1.processes := by
  induction events generalizing a with
  | nil => exact all
  | cons event rest ih => exact ih (all.emit procId event)

theorem apply (all : AllFolded a.processes) (start : StartResult) (command : HostCommand) :
    AllFolded (a.apply start command).1.processes := by
  cases command with
  | spawn procId preparedLaunchId =>
    have registered : AllFolded (a.processes.set procId {}) := all.set (.fresh false)
    show AllFolded (a.spawn procId preparedLaunchId start).1.processes
    unfold HostAgent.spawn
    extract_lets after gone
    split
    · apply emitAll
      exact registered
    · cases start with
      | started => exact registered
      | failed message =>
        apply emitAll
        exact registered
  | spawnTerminal procId cols rows =>
    cases start with
    | started =>
      apply emit
      exact all.set (.fresh true)
    | failed message =>
      apply emitAll
      exact all.set (.fresh false)
  | _ => exact all

theorem handleCommand (all : AllFolded a.processes) (start : StartResult) (q : QueuedCommand) :
    AllFolded (a.handleCommand start q).1.processes := by
  unfold HostAgent.handleCommand
  split
  · exact all
  · split
    · exact all
    · exact all.apply start q.command

theorem handleEventAck (all : AllFolded a.processes) (procId : ProcId) (seq : Nat) :
    AllFolded (a.handleEventAck procId seq).processes := by
  unfold HostAgent.handleEventAck HostAgent.forgetIfDone
  split
  · exact all
  · rename_i hosted found
    split
    · exact all.delete procId
    · have folded := all procId hosted found
      exact all.set (folded.prune (folded.foldAcknowledged seq))

theorem act (all : AllFolded a.processes) (action : HostAction) :
    AllFolded (a.act action).1.processes := by
  cases action with
  | prepareLaunch launchId => exact all
  | updateFails commit =>
    simp only [HostAgent.act, HostAgent.updateFails]
    split <;> exact all
  | childSpawned procId pid =>
    simp only [HostAgent.act, HostAgent.childSpawned]
    split
    · exact all
    · rename_i hosted found
      split
      · exact all
      · have folded := all procId hosted found
        apply emit
        exact all.set ⟨folded.sorted, folded.bound, folded.line⟩
  | childError procId message =>
    simp only [HostAgent.act, HostAgent.childError]
    split
    · exact all
    · exact all.emitAll procId _
  | childEvent procId event =>
    simp only [HostAgent.act, HostAgent.childEvent]
    split
    · exact all
    · split
      · exact all.emit procId event
      · exact all

theorem adoptBy (a : HostAgent) (coordinator : Uuid) (received : JsMap ProcId Nat) :
    AllFolded (a.adoptBy coordinator received).1.processes := by
  apply filterMap
  intro procId hosted found kept result
  obtain ⟨n, -, rfl⟩ := Option.map_eq_some_iff.mp result
  exact Folded.carryOver hosted

end AllFolded

/-! ## The runs of a host -/

/-- What happens to one host: to its connection, the frames it gets, and its children. -/
inductive HostInput where
  | connect (socket : SocketId)
  | onOpen
  | onClose
  | message (start : StartResult) (frame : CoordinatorToHost)
  | action (action : HostAction)

def HostAgent.input (a : HostAgent) : HostInput → HostAgent × List HostToCoordinator
  | .connect socket => (a.connect socket, [])
  | .onOpen => a.onOpen
  | .onClose => (a.onClose, [])
  | .message start frame => a.handleMessage start frame
  | .action action => a.act action

/-- A host that just started, with any coordinators. -/
def hostRuns (instanceId : Uuid) : Machine HostAgent HostInput where
  start := { instanceId := instanceId }
  step a input := some (a.input input).1

/-- What a welcome drops, it does not fold into the partial line; that does no harm if the
line stays the same. -/
def HostedProcess.keepsLine (hosted : HostedProcess) (seq : Nat) : Bool :=
  afterLastNewline (hosted.unfinishedLine ++ stdoutOf (hosted.dropped seq)) = hosted.unfinishedLine

/-- A welcome of the same coordinator drops no stdout that would change a partial line. -/
def HostAgent.keepsLines (a : HostAgent) : HostInput → Bool
  | .message _ (.welcome coordinator epoch received) =>
    epoch < a.highestEpoch || a.coordinatorInstanceId ≠ some coordinator ||
      a.processes.entries.all fun entry =>
        match received.get? entry.1 with
        | some lastReceived => entry.2.keepsLine lastReceived
        | none => true
  | _ => true

theorem AllFolded.handleWelcome {a : HostAgent} (all : AllFolded a.processes) (coordinator : Uuid)
    (received : JsMap ProcId Nat)
    (kept : a.coordinatorInstanceId = some coordinator → ∀ procId hosted lastReceived,
      a.processes.get? procId = some hosted → received.get? procId = some lastReceived →
        hosted.keepsLine lastReceived = true) :
    AllFolded (a.handleWelcome coordinator received).1.processes := by
  unfold HostAgent.handleWelcome
  split
  · exact .adoptBy a coordinator received
  · rename_i same
    apply filterMap
    intro procId hosted found left result
    obtain ⟨lastReceived, named, rfl⟩ := Option.map_eq_some_iff.mp result
    have folded := all procId hosted found
    have line := of_decide_eq_true
      (kept (not_not.mp same) procId hosted lastReceived found named)
    exact folded.prune (line.symm.trans (folded.afterLastNewline_prune lastReceived).symm)

theorem AllFolded.input {a : HostAgent} (all : AllFolded a.processes) {i : HostInput}
    (kept : a.keepsLines i = true) : AllFolded (a.input i).1.processes := by
  cases i with
  | message start frame =>
    cases frame with
    | welcome coordinator epoch received =>
      simp only [HostAgent.input, HostAgent.handleMessage]
      split
      · exact all
      · rename_i current
        apply AllFolded.handleWelcome (a := { a with highestEpoch := epoch }) all
        intro same procId hosted lastReceived found named
        simp only [HostAgent.keepsLines, current, decide_false, Bool.false_or, ne_eq, decide_not,
          show a.coordinatorInstanceId = some coordinator from same, decide_true, Bool.not_true,
          List.all_eq_true] at kept
        have := kept (procId, hosted) (JsMap.mem_entries.mpr found)
        simpa only [named] using this
    | command queued => exact all.handleCommand start queued
    | eventAck procId seq => exact all.handleEventAck procId seq
    | _ => exact all
  | action action => exact all.act action
  | _ => exact all

/-! ## What the new coordinator gets -/

/-- The stdout of a process among the frames a host sends. -/
def stdoutFrames (procId : ProcId) (frames : List HostToCoordinator) : Bytes :=
  frames.flatMap fun
    | .event p _ event => if p = procId then event.stdoutBytes else []
    | _ => []

/-- A coordinator that takes a process over is sent the partial line that the stdout no longer
pending leaves of it, and what is pending. -/
def HostAgent.HandsOverLines (a : HostAgent) : Prop :=
  ∀ start coordinator epoch received procId hosted,
    a.coordinatorInstanceId ≠ some coordinator → a.highestEpoch ≤ epoch →
    a.processes.get? procId = some hosted → received.has procId = true →
      stdoutFrames procId (a.handleMessage start (.welcome coordinator epoch received)).2 =
        afterLastNewline hosted.pruned ++ stdoutOf hosted.pending

theorem stdoutFrames_events (procId other : ProcId) (pending : List PendingEvent) :
    stdoutFrames procId (pending.map fun p => .event other p.seq p.event) =
      if other = procId then stdoutOf pending else [] := by
  induction pending with
  | nil => simp [stdoutFrames, stdoutOf]
  | cons p rest ih =>
    simp only [stdoutFrames, stdoutOf, List.map_cons, List.flatMap_cons] at ih ⊢
    rw [ih]
    split <;> simp

theorem stdoutFrames_replay {a : HostAgent} {procId : ProcId} {hosted : HostedProcess}
    (found : a.processes.get? procId = some hosted) :
    stdoutFrames procId a.replay = stdoutOf hosted.pending := by
  have perEntry : stdoutFrames procId a.replay = a.processes.entries.flatMap fun e =>
      if e.1 = procId then stdoutOf e.2.pending else [] := by
    rw [HostAgent.replay, stdoutFrames, List.flatMap_assoc]
    apply List.flatMap_congr
    intro entry _
    exact stdoutFrames_events procId entry.1 entry.2.pending
  rw [perEntry, JsMap.flatMap_find a.processes.nodup fun hosted => stdoutOf hosted.pending]
  exact congrArg (Option.elim · [] _) found

theorem stdoutOf_carryOver (hosted : HostedProcess) :
    stdoutOf (HostAgent.carryOver hosted).pending =
      hosted.unfinishedLine ++ stdoutOf hosted.pending := by
  have numbering (events : List HostedEvent) :
      stdoutOf (events.mapIdx fun i event => ⟨i + 1, event⟩) =
        events.flatMap HostedEvent.stdoutBytes := by
    have renumbered : (events.mapIdx fun i event => (⟨i + 1, event⟩ : PendingEvent)).map
        PendingEvent.event = events := List.ext_getElem (by simp) fun i _ _ => by simp
    calc stdoutOf (events.mapIdx fun i event => ⟨i + 1, event⟩)
      _ = ((events.mapIdx fun i event => (⟨i + 1, event⟩ : PendingEvent)).map
            PendingEvent.event).flatMap HostedEvent.stdoutBytes := (List.flatMap_map _ _ _).symm
      _ = events.flatMap HostedEvent.stdoutBytes := by rw [renumbered]
  have pending : (hosted.pending.map PendingEvent.event).flatMap HostedEvent.stdoutBytes =
      stdoutOf hosted.pending := List.flatMap_map _ _ _
  simp only [HostAgent.carryOver, numbering]
  split
  · rename_i none
    rw [pending, List.isEmpty_iff.mp none, List.nil_append]
  · rw [List.flatMap_cons, pending, HostedEvent.stdoutBytes, fromBase64_toBase64]

section Takeover

variable {a : HostAgent} {procId : ProcId} {hosted : HostedProcess}

theorem stdoutFrames_takeover (start : StartResult) {coordinator : Uuid} {epoch : Nat}
    {received : JsMap ProcId Nat} (other : a.coordinatorInstanceId ≠ some coordinator)
    (current : a.highestEpoch ≤ epoch) (found : a.processes.get? procId = some hosted)
    (taken : received.has procId = true) :
    stdoutFrames procId (a.handleMessage start (.welcome coordinator epoch received)).2 =
      hosted.unfinishedLine ++ stdoutOf hosted.pending := by
  obtain ⟨n, named⟩ := JsMap.has_eq_true.mp taken
  have adopted : ({ a with highestEpoch := epoch }.adoptBy coordinator received).1.processes.get?
      procId = some (HostAgent.carryOver hosted) := by
    simp [HostAgent.adoptBy, found, named]
  simp only [HostAgent.handleMessage, Nat.not_lt.mpr current, if_false, HostAgent.handleWelcome,
    ne_eq, other, not_false_eq_true, if_true]
  exact (stdoutFrames_replay adopted).trans (stdoutOf_carryOver hosted)

theorem AllFolded.handsOverLines (all : AllFolded a.processes) : a.HandsOverLines := by
  intro start coordinator epoch received procId hosted other current found taken
  rw [stdoutFrames_takeover start other current found taken, (all procId hosted found).line]

/-- Some coordinator would see a partial line that is wrong. -/
theorem HostAgent.HandsOverLines.line (handsOver : a.HandsOverLines)
    (found : a.processes.get? procId = some hosted) :
    hosted.unfinishedLine = afterLastNewline hosted.pruned := by
  have other : a.coordinatorInstanceId ≠ some (a.coordinatorInstanceId.getD 0 + 1) := by
    cases a.coordinatorInstanceId <;> simp
  have taken : (JsMap.empty.set procId 0).has procId = true := by simp [JsMap.has]
  have whole := handsOver .started _ _ _ procId hosted other (Nat.le_refl _) found taken
  rw [stdoutFrames_takeover .started other (Nat.le_refl _) found taken] at whole
  exact List.append_cancel_right whole

theorem AllFolded.keepsLines (all : AllFolded a.processes) {i : HostInput}
    (handsOver : (a.input i).1.HandsOverLines) : a.keepsLines i = true := by
  unfold HostAgent.keepsLines
  split
  · rename_i start coordinator epoch received
    by_cases old : epoch < a.highestEpoch
    · simp [old]
    by_cases same : a.coordinatorInstanceId = some coordinator
    · simp only [old, same, decide_false, ne_eq, not_true_eq_false, Bool.false_or,
        List.all_eq_true]
      rintro ⟨procId, hosted⟩ inside
      have found := JsMap.mem_entries.mp inside
      cases named : received.get? procId with
      | none => rfl
      | some lastReceived =>
        have kept : (a.input (.message start (.welcome coordinator epoch received))).1.processes.get?
            procId = some (hosted.prune lastReceived) := by
          simp [HostAgent.input, HostAgent.handleMessage, old, HostAgent.handleWelcome, same, found,
            named]
        apply decide_eq_true
        rw [← (all procId hosted found).afterLastNewline_prune]
        exact (handsOver.line kept).symm
    · simp [same]
  · rfl

end Takeover

/-- Every host hands over whole lines, up to the first welcome that does not meet the condition. -/
theorem takeover_keeps_lines_whole {instanceId : Uuid} {a : HostAgent}
    (reached : (hostRuns instanceId).Reaches (fun a i => a.keepsLines i = true) a) :
    a.HandsOverLines ∧ ∀ i, (a.input i).1.HandsOverLines ↔ a.keepsLines i = true := by
  have all : AllFolded a.processes := by
    refine @Machine.Reaches.invariant _ _ _ _ (fun a => AllFolded a.processes) .init ?_ a reached
    intro a input after _ all kept stepped
    exact Option.some.inj stepped ▸ all.input kept
  exact ⟨all.handsOverLines, fun i => ⟨all.keepsLines, fun kept => (all.input kept).handsOverLines⟩⟩

/-- A process writes bytes in two chunks; the coordinator acknowledges the first and comes back
having received `last` events. -/
def comingBack (first second : Bytes) (last : Nat) : List HostInput :=
  [.connect 10, .onOpen, .message .started (.welcome 1 1 ∅),
    .message .started (.command ⟨1, .spawn 7 none, 0⟩), .action (.childSpawned 7 (some 100)),
    .action (.childEvent 7 (.stdout (toBase64 first))), .message .started (.eventAck 7 2),
    .action (.childEvent 7 (.stdout (toBase64 second))), .onClose, .connect 11, .onOpen,
    .message .started (.welcome 1 1 (JsMap.empty.set 7 last))]

/-- The first chunk is acknowledged and the second one is pending when the coordinator is back. -/
theorem partial_line_kept :
    ∃ a, (hostRuns 5).Reaches (fun a i => a.keepsLines i = true) a ∧
      (∃ hosted, a.processes.get? 7 = some hosted ∧ hosted.unfinishedLine = [98] ∧
        stdoutOf hosted.pending = [99]) ∧ a.HandsOverLines := by
  obtain ⟨a, reached, found⟩ := Machine.exists_reaches_of_run (hostRuns 5) HostAgent.keepsLines
    (fun a => ((a.processes.get? 7).map fun hosted =>
      (hosted.unfinishedLine, stdoutOf hosted.pending)) = some ([98], [99]))
    (comingBack [98] [99] 2) (by decide +kernel)
  obtain ⟨hosted, present, line⟩ := Option.map_eq_some_iff.mp found
  exact ⟨a, reached, ⟨hosted, present, congrArg Prod.fst line, congrArg Prod.snd line⟩,
    (takeover_keeps_lines_whole reached).1⟩

/-- The coordinator had received the second chunk too, which the welcome says. -/
theorem partial_line_lost : ∃ a, (hostRuns 5).Reachable a ∧ ¬ a.HandsOverLines := by
  obtain ⟨a, reached, found⟩ := Machine.exists_reaches_of_run (hostRuns 5) (fun _ _ => true)
    (fun a => a.processes.get? 7 =
      some { nextSeq := 4, spawned := true, unfinishedLine := [98], pruned := [98, 99] })
    (comingBack [98] [99] 3) (by decide +kernel)
  refine ⟨a, reached.reachable, fun handsOver => ?_⟩
  have line := handsOver.line found
  revert line
  decide

end Takode.RemoteHost
