import Takode.Sessions.Flushing

/-!
# Every promise settles

A run that goes on for ever, in which every running operation ends at some time:
a queued operation gets its turn, since the sessions that are ready wait in line and
every end of an operation lets the first of them start.
-/

namespace Takode.Sessions

open Writers

variable {ok : SessionStore → SessionId → Outcome → Prop} {s t : SessionStore} {id id' : SessionId}

namespace Writers

variable {w w' : Writers} {d : Nat}

theorem settled_pump (turns : Nat) (w : Writers) : (pump turns w).settled = w.settled := by
  induction turns generalizing w with
  | zero => rfl
  | succ turns ih =>
    unfold pump
    split
    · split
      · rfl
      · exact ih _
    · rfl

theorem settledDones_pump (turns : Nat) (w : Writers) (id : SessionId) :
    (pump turns w).settledDones id = w.settledDones id := by
  rw [settledDones, settled_pump]
  rfl

theorem settled_enqueueWrite {run : Work} {coalescible : Bool} :
    (w.enqueueWrite id run coalescible).settled = w.settled := by
  unfold enqueueWrite
  split
  · rfl
  · exact settled_pump _ _

theorem Later.idxOf_add (later : Later w w') (inv : w.Orderly) (inv' : w'.Orderly)
    (queued : d ∈ w.queuedDones id) (queued' : d ∈ w'.queuedDones id) :
    (w'.queuedDones id).idxOf d + (w'.settledDones id).length =
      (w.queuedDones id).idxOf d + (w.settledDones id).length := by
  have position : ∀ {v : Writers}, v.Orderly → d ∈ v.queuedDones id →
      (v.timeline id).idxOf d = (v.queuedDones id).idxOf d + (v.settledDones id).length := by
    intro v inv waits
    have unsettled : d ∉ v.settledDones id := fun ended => inv.settled_not_queued ended waits
    rw [Writers.timeline, List.idxOf_append_of_notMem unsettled, Nat.add_comm]
  rw [← position inv queued, ← position inv' queued']
  obtain ⟨more, grown⟩ := later.timeline id
  have listed : d ∈ w.timeline id := List.mem_append_right _ queued
  rw [← grown, List.idxOf_append_of_mem listed]

/-- An active session stays active until its operation has ended. -/
theorem Move.active (move : Move w w') (same : w'.settledDones id = w.settledDones id)
    (active : w.activeWriters.has id = true) : w'.activeWriters.has id = true := by
  cases move with
  | merged | pushed => exact active
  | started => simp [startWriter, active]
  | @ended id' request success _ _ =>
    have other : id ≠ id' := by
      rintro rfl
      rw [settledDones_shift, if_pos rfl] at same
      simpa using congrArg List.length same
    simp [shift, active, other]

theorem Move.settledDones_prefix (inv : w.Orderly) (move : Move w w') (id : SessionId) :
    w.settledDones id <+: w'.settledDones id :=
  ((Later.move inv move).settled.filter _).map _

theorem Move.idxOf_ready (move : Move w w') (ready : w.readyWriters.has id = true)
    (ready' : w'.readyWriters.has id = true) :
    w'.readyWriters.keys.idxOf id ≤ w.readyWriters.keys.idxOf id := by
  have listed := (JsSet.mem_keys_iff _ _).mpr ready
  have added : ∀ id', (w.readyWriters.add id').keys.idxOf id = w.readyWriters.keys.idxOf id := by
    intro id'
    cases found : w.readyWriters.get? id' with
    | none =>
      have append : (w.readyWriters.add id').keys = w.readyWriters.keys ++ [id'] :=
        JsMap.keys_set_of_absent found
      rw [append, List.idxOf_append_of_mem listed]
    | some _ =>
      have same : (w.readyWriters.add id').keys = w.readyWriters.keys :=
        JsMap.keys_set_of_present found
      rw [same]
  cases move with
  | merged => exact le_rfl
  | @pushed id' run coalescible _ =>
    show (if w.activeWriters.has id' then w.readyWriters
      else w.readyWriters.add id').keys.idxOf id ≤ _
    split
    · exact le_rfl
    · exact (added id').le
  | @started id' _ head =>
    obtain ⟨rest, line⟩ := List.head?_eq_some_iff.mp head
    have gone : (w.startWriter id').readyWriters.keys = rest := JsMap.keys_delete_head line
    have other : id' ≠ id := by
      rintro rfl
      simp [startWriter] at ready'
    rw [gone, line, List.idxOf_cons_ne _ other]
    exact Nat.le_succ _
  | @ended id' request success _ _ =>
    show (if ((w.queue id').tail).isEmpty then w.readyWriters
      else w.readyWriters.add id').keys.idxOf id ≤ _
    split
    · exact le_rfl
    · exact (added id').le

/-- Along moves that settle nothing of a session, an active one stays active. -/
theorem Moves.active (moves : Moves w w') (inv : w.Orderly)
    (same : w'.settledDones id = w.settledDones id)
    (active : w.activeWriters.has id = true) : w'.activeWriters.has id = true := by
  induction moves with
  | refl => exact active
  | @tail v v' before move ih =>
    have first := (Later.moves inv before).settled
    have between : v.settledDones id = w.settledDones id := by
      refine List.IsPrefix.eq_of_length_le ?_ ?_ |>.symm
      · exact (first.filter _).map _
      · have last := (Move.settledDones_prefix (inv.moves before) move id).length_le
        rwa [same] at last
    exact move.active (same.trans between.symm) (ih between)

theorem Moves.idxOf_ready (moves : Moves w w') (inv : w.Orderly)
    (same : w'.settledDones id = w.settledDones id) (ready : w.readyWriters.has id = true)
    (ready' : w'.readyWriters.has id = true) :
    w'.readyWriters.keys.idxOf id ≤ w.readyWriters.keys.idxOf id := by
  induction moves using Relation.ReflTransGen.head_induction_on with
  | refl => exact le_rfl
  | @head v v' move after ih =>
    have inv' := inv.move move
    have settled : v'.settledDones id = v.settledDones id := by
      refine (List.IsPrefix.eq_of_length_le (Move.settledDones_prefix inv move id) ?_).symm
      have last := ((Later.moves inv' after).settled.filter (·.sessionId = id)).map (·.done)
      exact same ▸ last.length_le
    have held : v'.queue id ≠ [] := by
      intro empty
      have still : v.timeline id <+: v'.timeline id := (Later.move inv move).timeline id
      have waits : v.queue id ≠ [] := (inv.busy id).mpr (.inr ready)
      unfold timeline at still
      rw [settled] at still
      have fewer := (List.prefix_append_right_inj _).mp still
      simp only [queuedDones, empty, List.map_nil, List.prefix_nil, List.map_eq_nil_iff] at fewer
      exact waits fewer
    have ready_between : v'.readyWriters.has id = true := by
      rcases (inv'.busy id).mp held with active | ready_between
      · have stays := Moves.active after inv' (same.trans settled.symm) active
        rw [(inv'.moves after).apart stays] at ready'
        cases ready'
      · exact ready_between
    exact (ih inv' (same.trans settled.symm) ready_between).trans
      (move.idxOf_ready ready ready_between)

theorem idxOf_ready_pump (inv : w.Orderly) (room : w.activeWriters.size < MAX_ACTIVE_WRITERS)
    (ready : w.readyWriters.has id = true) (ready' : w.pumpWrites.readyWriters.has id = true) :
    w.pumpWrites.readyWriters.keys.idxOf id < w.readyWriters.keys.idxOf id := by
  have listed : id ∈ w.readyWriters.keys := (JsSet.mem_keys_iff _ _).mpr ready
  cases line : w.readyWriters.keys with
  | nil =>
    rw [line] at listed
    cases listed
  | cons first rest =>
    have move : Move w (w.startWriter first) := .started room (by rw [line]; rfl)
    have inv' := inv.move move
    have unrolled : w.pumpWrites = pump rest.length (w.startWriter first) := by
      have turns : w.readyWriters.size = rest.length + 1 := by
        rw [JsMap.size_eq_length_keys, line, List.length_cons]
      rw [pumpWrites, turns, pump, if_pos room, line]
    have after : Moves (w.startWriter first) w.pumpWrites := unrolled ▸ pump_moves _ _
    have same : w.pumpWrites.settledDones id = (w.startWriter first).settledDones id := by
      rw [unrolled, settledDones_pump]
    have other : first ≠ id := by
      rintro rfl
      have active : (w.startWriter first).activeWriters.has first = true := by simp [startWriter]
      rw [(inv'.moves after).apart (Moves.active after inv' same active)] at ready'
      cases ready'
    have ready_between : (w.startWriter first).readyWriters.has id = true := by
      simp [startWriter, other.symm, ready]
    have gone : (w.startWriter first).readyWriters.keys = rest := JsMap.keys_delete_head line
    have no_later := Moves.idxOf_ready after inv' same ready_between ready'
    rw [gone] at no_later
    rw [List.idxOf_cons_ne _ other]
    omega

end Writers

theorem settledDones_step (tidy : s.Tidy) {event : Event} (taken : s.step event = some t)
    (other : ∀ outcome, event ≠ .settles id outcome) :
    t.writers.settledDones id = s.writers.settledDones id := by
  have changes := step_changes (fun _ id outcome => event = .settles id outcome) tidy
    (fun _ _ same => same) taken
  clear taken tidy
  induction changes with
  | refl => rfl
  | @tail u _ _ change ih =>
    refine Eq.trans ?_ ih
    cases change with
    | called | aside | postponed | accepted | edited | cleared | flushCalled | flushAwaits
    | flushEnded => rfl
    | superseded | enqueued | removed =>
      unfold settledDones
      exact congrArg (fun l => (l.filter (·.sessionId = id)).map (·.done)) settled_enqueueWrite
    | @ended id' outcome _ same taken =>
      obtain ⟨request, _, u, success, _, _, ran, rfl, _⟩ := SessionStore.settle_ran taken
      have apart : id ≠ id' := fun eq => other outcome (eq ▸ same)
      exact (settledDones_pump _ _ _).trans (settledDones_shift.trans (if_neg apart))

theorem idxOf_ready_settle (tidy : s.Tidy) {outcome : Outcome}
    (ended : s.settle id' outcome = some t)
    (ready : s.writers.readyWriters.has id = true)
    (ready' : t.writers.readyWriters.has id = true) :
    t.writers.readyWriters.keys.idxOf id < s.writers.readyWriters.keys.idxOf id := by
  obtain ⟨request, rest, u, success, active, queued, _, rfl, _⟩ := SessionStore.settle_ran ended
  have move : Move s.writers (s.writers.shift id' request success) :=
    .ended success active (by rw [queued]; rfl)
  have inv := tidy.orderly.move move
  have room : (s.writers.shift id' request success).activeWriters.size < MAX_ACTIVE_WRITERS := by
    obtain ⟨_, present⟩ := JsMap.has_eq_true.mp active
    have fewer : (s.writers.activeWriters.delete id').size < s.writers.activeWriters.size :=
      JsMap.size_delete_of_present present
    exact lt_of_lt_of_le fewer tidy.orderly.few
  have still : (s.writers.shift id' request success).readyWriters.has id = true := by
    show (if (s.writers.queue id').tail.isEmpty then s.writers.readyWriters
      else s.writers.readyWriters.add id').has id = true
    split
    · exact ready
    · simp [ready]
  exact lt_of_lt_of_le (idxOf_ready_pump inv room still ready') (move.idxOf_ready ready still)

theorem tidy_of_reachable (reachable : sessionStore.Reachable s) : s.Tidy := by
  induction reachable with
  | start => exact .start
  | step _ _ taken tidy =>
    exact Changes.tidy (step_changes (fun _ _ _ => True) tidy (fun _ _ _ => trivial) taken) tidy

section Endless

variable (run : sessionStore.Endless)

/-- Every operation that runs ends at some time. -/
def Ends : Prop := ∀ n id, (run.state n).writers.activeWriters.has id = true →
  ∃ m ≥ n, ∃ outcome, run.label m = some (.settles id outcome)

variable {run} {n m : ℕ}

theorem endless_tidy (n : ℕ) : (run.state n).Tidy := tidy_of_reachable (run.reachable n)

theorem endless_step {event : Event} (happens : run.label n = some event) :
    (run.state n).step event = some (run.state (n + 1)) := by
  have next := run.next n
  rwa [happens, Option.elim_some] at next

theorem endless_moves (before : n ≤ m) : Moves (run.state n).writers (run.state m).writers := by
  induction m, before using Nat.le_induction with
  | base => exact .refl
  | succ m _ ih =>
    refine ih.trans ?_
    have next := run.next m
    cases happens : run.label m with
    | none =>
      rw [happens, Option.elim_none] at next
      rw [next]
    | some event =>
      exact Changes.moves (step_changes (fun _ _ _ => True) (endless_tidy m)
        (fun _ _ _ => trivial) (endless_step happens))

/-- A session with queued work that never gets its turn waits in line for ever, and would have to
move up more often than there are sessions before it. -/
theorem gets_active (ends : Ends run) (waits : ∀ m ≥ n, (run.state m).writers.queue id ≠ []) :
    ∃ m ≥ n, (run.state m).writers.activeWriters.has id = true := by
  by_contra never
  push Not at never
  have ready : ∀ m ≥ n, (run.state m).writers.readyWriters.has id = true := fun m later =>
    (((endless_tidy m).orderly.busy id).mp (waits m later)).resolve_left (never m later)
  have not_own : ∀ m ≥ n, ∀ outcome, run.label m ≠ some (.settles id outcome) := by
    intro m later outcome happens
    obtain ⟨_, _, _, _, active, _⟩ := SessionStore.settle_ran (endless_step happens)
    exact never m later active
  have up : ∀ m ≥ n, (run.state (m + 1)).writers.readyWriters.keys.idxOf id ≤
      (run.state m).writers.readyWriters.keys.idxOf id := by
    intro m later
    have next := run.next m
    cases happens : run.label m with
    | none =>
      rw [happens, Option.elim_none] at next
      rw [next]
    | some event =>
      refine Moves.idxOf_ready (endless_moves (Nat.le_succ m)) (endless_tidy m).orderly ?_
        (ready m later) (ready (m + 1) (later.trans (Nat.le_succ m)))
      refine settledDones_step (endless_tidy m) (endless_step happens) fun outcome same => ?_
      exact not_own m later outcome (same ▸ happens)
  have up_to : ∀ {m m'}, m ≥ n → m ≤ m' →
      (run.state m').writers.readyWriters.keys.idxOf id ≤
        (run.state m).writers.readyWriters.keys.idxOf id := by
    intro m m' later before
    induction m', before using Nat.le_induction with
    | base => exact le_rfl
    | succ m' between ih => exact (up m' (later.trans between)).trans ih
  have sinks : ∀ k, ∃ m ≥ n, (run.state m).writers.readyWriters.keys.idxOf id + k ≤
      (run.state n).writers.readyWriters.keys.idxOf id := by
    intro k
    induction k with
    | zero => exact ⟨n, le_rfl, le_rfl⟩
    | succ k ih =>
      obtain ⟨m, later, sunk⟩ := ih
      obtain ⟨other, active⟩ : ∃ other,
          (run.state m).writers.activeWriters.has other = true := by
        by_contra none_active
        push Not at none_active
        have size : (run.state m).writers.activeWriters.size = 0 :=
          JsMap.size_eq_zero.mpr fun k =>
            JsMap.has_eq_false.mp (Bool.not_eq_true _ ▸ none_active k)
        have idle := (endless_tidy m).pumped (by rw [size]; decide) id
        rw [ready m later] at idle
        cases idle
      obtain ⟨m', after, outcome, happens⟩ := ends m other active
      have from_start : m' ≥ n := later.trans after
      have drop := idxOf_ready_settle (endless_tidy m') (endless_step happens)
        (ready m' from_start) (ready (m' + 1) (from_start.trans (Nat.le_succ m')))
      have before := up_to later after
      exact ⟨m' + 1, from_start.trans (Nat.le_succ m'), by omega⟩
  obtain ⟨m, _, sunk⟩ := sinks ((run.state n).writers.readyWriters.keys.idxOf id + 1)
  omega

theorem leaves_queue (n : ℕ) (d : Nat) (id : SessionId) (ends : Ends run) : ∃ m ≥ n, d ∉ (run.state m).writers.queuedDones id := by
  by_contra stays
  push Not at stays
  have waits : ∀ m ≥ n, (run.state m).writers.queue id ≠ [] := by
    intro m later empty
    have queued := stays m later
    simp [queuedDones, empty] at queued
  have grows : ∀ k, ∃ m ≥ n, ((run.state n).writers.settledDones id).length + k ≤
      ((run.state m).writers.settledDones id).length := by
    intro k
    induction k with
    | zero => exact ⟨n, le_rfl, le_rfl⟩
    | succ k ih =>
      obtain ⟨m, later, grown⟩ := ih
      obtain ⟨m', after, active⟩ := gets_active ends fun i h => waits i (later.trans h)
      obtain ⟨m'', after', outcome, happens⟩ := ends m' id active
      have step := endless_step happens
      obtain ⟨request, _, u, success, _, _, _, settled, _⟩ := SessionStore.settle_ran step
      have longer : ((run.state (m'' + 1)).writers.settledDones id).length =
          ((run.state m'').writers.settledDones id).length + 1 := by
        rw [settled]
        show ((pump _ _).settledDones id).length = _
        rw [settledDones_pump, settledDones_shift, if_pos rfl, List.length_append,
          List.length_singleton]
      have kept : ((run.state m).writers.settledDones id).length ≤
          ((run.state m'').writers.settledDones id).length := by
        have moved : Later (run.state m).writers (run.state m'').writers :=
          .moves (endless_tidy m).orderly (endless_moves (after.trans after'))
        exact ((moved.settled.filter (·.sessionId = id)).map (·.done)).length_le
      exact ⟨m'' + 1, by omega, by omega⟩
  obtain ⟨m, later, grown⟩ := grows (((run.state n).writers.queuedDones id).idxOf d + 1)
  have moved : Later (run.state n).writers (run.state m).writers :=
    .moves (endless_tidy n).orderly (endless_moves later)
  have fixed := moved.idxOf_add (endless_tidy n).orderly (endless_tidy m).orderly
    (stays n le_rfl) (stays m later)
  omega

theorem promise_settles (ends : Ends run) {p : Promised}
    (made : p ∈ (run.state n).writers.promised) :
    ∃ m ≥ n, ∃ e ∈ (run.state m).writers.settled, e.sessionId = p.sessionId ∧
      e.done = p.done ∧ e.run.Carries p.run := by
  obtain ⟨m, later, gone⟩ := leaves_queue n p.done p.sessionId ends
  refine ⟨m, later, ?_⟩
  have made' := Moves.promised (endless_moves later) made
  rcases (endless_tidy m).kept.promise p made' with ⟨r, inside, done, _⟩ | settled
  · exact absurd (List.mem_map.mpr ⟨r, inside, done⟩) gone
  · exact settled

end Endless

end Takode.Sessions
