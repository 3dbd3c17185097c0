import Mathlib.Data.List.Infix
import Mathlib.Data.List.Perm.Subperm
import Mathlib.Logic.Relation
import Mathlib.Order.Nat
import Takode.Sessions.WriteQueue

/-!
# The order in which operations run

Everything that `enqueueWrite`, `pumpWrites` and the end of a run do is a chain of
four moves. The promises of a session, settled ones first and queued ones after, are
the numbers in the order in which they were made; only a new request makes this
longer, and the runs that were started are a prefix of it.
-/

namespace Takode.Sessions

/-- It is what was asked for, or a newer snapshot in place of a snapshot. -/
def Work.Carries (run asked : Work) : Prop :=
  run = asked ∨ asked.task = .snapshot ∧ run.task = .snapshot ∧ asked.stamp < run.stamp

theorem Work.Carries.trans {a b c : Work} (first : a.Carries b) (second : b.Carries c) :
    a.Carries c := by
  rcases first with rfl | ⟨snap, snap', newer⟩
  · exact second
  · rcases second with rfl | ⟨snap'', _, newer'⟩
    · exact .inr ⟨snap, snap', newer⟩
    · exact .inr ⟨snap'', snap', newer'.trans newer⟩

namespace Writers

/-- The moves, with what has been checked when they are made; the work merged into a request is a
newer snapshot. -/
inductive Move (w : Writers) : Writers → Prop
  | merged {id last run} : w.mergeable id true = some last → run.task = .snapshot →
    last.run.stamp < run.stamp → Move w (w.merge id last run)
  | pushed {id run coalescible} : (coalescible = true → run.task = .snapshot) →
    Move w (w.push id run coalescible)
  | started {id} : w.activeWriters.size < MAX_ACTIVE_WRITERS →
    w.readyWriters.keys.head? = some id → Move w (w.startWriter id)
  | ended {id request} (success) : w.activeWriters.has id = true →
    (w.queue id).head? = some request → Move w (w.shift id request success)

variable {w w' : Writers} {id id' : SessionId} {last request : WriteRequest} {run : Work}
  {coalescible success : Bool}

theorem mergeable_eq_some (found : w.mergeable id coalescible = some last) :
    (w.queue id).getLast? = some last ∧ coalescible = true ∧ last.coalescible = true ∧
      ((w.queue id).length = 1 → w.activeWriters.has id = false) := by
  obtain ⟨is_last, holds⟩ := Option.filter_eq_some_iff.mp found
  simp only [Bool.and_eq_true, Bool.not_eq_true', Bool.and_eq_false_iff, beq_eq_false_iff_ne]
    at holds
  refine ⟨is_last, holds.1.1, holds.1.2, fun single => ?_⟩
  exact holds.2.resolve_left fun other => other single

section Queues

@[simp] theorem queue_merge : (w.merge id last run).queue id' =
    if id' = id then (w.queue id).dropLast ++ [{ last with run := run }] else w.queue id' := by
  by_cases same : id' = id <;> simp [queue, merge, same]

@[simp] theorem queue_push : (w.push id run coalescible).queue id' =
    if id' = id then w.queue id ++ [⟨run, coalescible, w.promises⟩] else w.queue id' := by
  by_cases same : id' = id <;> simp [queue, push, same]

@[simp] theorem queue_startWriter : (w.startWriter id).queue id' = w.queue id' := rfl

@[simp] theorem queue_shift : (w.shift id request success).queue id' =
    if id' = id then (w.queue id).tail else w.queue id' := by
  show ((if (w.queue id).tail.isEmpty then w.writeQueues.delete id
    else w.writeQueues.set id (w.queue id).tail).get? id').getD [] = _
  by_cases same : id' = id
  · subst same
    cases (w.queue id').tail <;> simp
  · cases (w.queue id).tail <;> simp [queue, same]

end Queues

section Timelines

variable (w) (id)

def settledDones : List Nat := (w.settled.filter (·.sessionId = id)).map (·.done)
def startedDones : List Nat := (w.started.filter (·.1 = id)).map (·.2)
def queuedDones : List Nat := (w.queue id).map (·.done)

/-- The promises of a session in the order in which they settle. -/
def timeline : List Nat := w.settledDones id ++ w.queuedDones id

/-- The promise of the running operation. -/
def runningDones : List Nat :=
  if w.activeWriters.has id then (w.queuedDones id).head?.toList else []

variable {w id}

theorem queuedDones_merge (found : w.mergeable id coalescible = some last) :
    (w.merge id last run).queuedDones id' = w.queuedDones id' := by
  unfold queuedDones
  by_cases same : id' = id
  · subst same
    have is_last := (mergeable_eq_some found).1
    obtain ⟨before, queued⟩ := List.getLast?_eq_some_iff.mp is_last
    simp [queued]
  · simp [same]

theorem timeline_merge (found : w.mergeable id coalescible = some last) :
    (w.merge id last run).timeline id' = w.timeline id' := by
  unfold timeline
  rw [queuedDones_merge found]
  rfl

theorem timeline_push : (w.push id run coalescible).timeline id' =
    if id' = id then w.timeline id ++ [w.promises] else w.timeline id' := by
  unfold timeline queuedDones
  rw [queue_push]
  by_cases same : id' = id
  · subst same
    simp [settledDones, push]
  · simp [settledDones, push, same]

theorem settledDones_shift : (w.shift id request success).settledDones id' =
    if id' = id then w.settledDones id ++ [request.done] else w.settledDones id' := by
  unfold settledDones shift
  by_cases same : id' = id
  · subst same
    simp
  · have other : ¬id = id' := fun eq => same eq.symm
    simp [same, other]

theorem timeline_shift (head : (w.queue id).head? = some request) :
    (w.shift id request success).timeline id' = w.timeline id' := by
  unfold timeline queuedDones
  rw [settledDones_shift, queue_shift]
  by_cases same : id' = id
  · subst same
    obtain ⟨rest, queued⟩ := List.head?_eq_some_iff.mp head
    simp [queued]
  · simp [same]

theorem startedDones_startWriter : (w.startWriter id).startedDones id' =
    if id' = id then w.startedDones id ++ (w.queuedDones id).head?.toList
    else w.startedDones id' := by
  unfold startedDones startWriter queuedDones
  by_cases same : id' = id
  · subst same
    cases w.queue id' <;> simp
  · have other : ¬id = id' := fun eq => same eq.symm
    cases w.queue id <;> simp [same, other]

end Timelines

theorem readyWriters_has_head (head : w.readyWriters.keys.head? = some id) :
    w.readyWriters.has id = true :=
  (JsSet.mem_keys_iff _ _).mp (List.mem_of_head? head)

/-- What the collections say of one another, whatever has been queued and has ended. -/
structure Orderly (w : Writers) : Prop where
  busy : ∀ id, w.queue id ≠ [] ↔ w.activeWriters.has id = true ∨ w.readyWriters.has id = true
  apart : ∀ {id}, w.activeWriters.has id = true → w.readyWriters.has id = false
  few : w.activeWriters.size ≤ MAX_ACTIVE_WRITERS
  sorted : ∀ id, (w.timeline id).Pairwise (· < ·)
  fresh : ∀ {id d}, d ∈ w.timeline id → d < w.promises
  own : ∀ {id id' d}, d ∈ w.timeline id → d ∈ w.timeline id' → id = id'
  running : ∀ id, w.startedDones id = w.settledDones id ++ w.runningDones id
  inflight : ∀ d, w.inflightWrites.has d = true ↔ ∃ id, d ∈ w.queuedDones id
  snapshots : ∀ {id r}, r ∈ w.queue id → r.coalescible = true → r.run.task = .snapshot

theorem Orderly.start : Orderly {} where
  busy := by simp [queue]
  apart := by simp
  few := Nat.zero_le _
  sorted := by simp [timeline, settledDones, queuedDones, queue]
  fresh := by simp [timeline, settledDones, queuedDones, queue]
  own := by simp [timeline, settledDones, queuedDones, queue]
  running := by simp [startedDones, settledDones, runningDones]
  inflight := by simp [queuedDones, queue]
  snapshots := by simp [queue]

namespace Orderly

variable (inv : w.Orderly)
include inv

theorem merge (found : w.mergeable id true = some last) (snapshot : run.task = .snapshot) :
    (w.merge id last run).Orderly where
  busy := by
    intro id'
    rw [queue_merge]
    by_cases same : id' = id
    · subst same
      have held : w.queue id' ≠ [] := by
        intro empty
        simp [mergeable, empty] at found
      simpa [Writers.merge] using (inv.busy id').mp held
    · simpa [Writers.merge, same] using inv.busy id'
  apart := inv.apart
  few := inv.few
  sorted := by
    intro id'
    rw [timeline_merge found]
    exact inv.sorted id'
  fresh := by
    intro id' d inside
    rw [timeline_merge found] at inside
    exact inv.fresh inside
  own := by
    intro id' id'' d inside inside'
    rw [timeline_merge found] at inside inside'
    exact inv.own inside inside'
  running := by
    intro id'
    unfold runningDones
    rw [queuedDones_merge found]
    exact inv.running id'
  inflight := by
    intro d
    simp only [queuedDones_merge found]
    exact inv.inflight d
  snapshots := by
    intro id' r inside mergeable
    rw [queue_merge] at inside
    by_cases same : id' = id
    · subst same
      rw [if_pos rfl] at inside
      rcases List.mem_append.mp inside with before | new
      · exact inv.snapshots (List.dropLast_subset _ before) mergeable
      · obtain rfl := List.mem_singleton.mp new
        exact snapshot
    · rw [if_neg same] at inside
      exact inv.snapshots inside mergeable

theorem push (allowed : coalescible = true → run.task = .snapshot) :
    (w.push id run coalescible).Orderly where
  busy := by
    intro id'
    rw [queue_push]
    by_cases same : id' = id
    · subst same
      by_cases active : w.activeWriters.has id' = true <;> simp [Writers.push, active]
    · have before := inv.busy id'
      by_cases active : w.activeWriters.has id = true <;>
        simpa [Writers.push, active, same] using before
  apart := by
    intro id' active
    have apart := inv.apart active
    by_cases held : w.activeWriters.has id = true
    · simpa [Writers.push, held] using apart
    · have other : id' ≠ id := fun same => held (same ▸ active)
      simpa [Writers.push, held, other] using apart
  few := inv.few
  sorted := by
    intro id'
    rw [timeline_push]
    split
    · refine List.pairwise_append.mpr ⟨inv.sorted id, List.pairwise_singleton _ _, ?_⟩
      intro d inside d' new
      rw [List.mem_singleton.mp new]
      exact inv.fresh inside
    · exact inv.sorted id'
  fresh := by
    intro id' d inside
    rw [timeline_push] at inside
    show d < w.promises + 1
    split at inside
    · rcases List.mem_append.mp inside with before | new
      · exact (inv.fresh before).trans (Nat.lt_succ_self _)
      · rw [List.mem_singleton.mp new]
        exact Nat.lt_succ_self _
    · exact (inv.fresh inside).trans (Nat.lt_succ_self _)
  own := by
    have new_or_old : ∀ {id' d}, d ∈ (w.push id run coalescible).timeline id' →
        d = w.promises ∧ id' = id ∨ d ∈ w.timeline id' := by
      intro id' d inside
      rw [timeline_push] at inside
      split at inside
      · rename_i same
        subst same
        rcases List.mem_append.mp inside with before | new
        · exact .inr before
        · exact .inl ⟨List.mem_singleton.mp new, rfl⟩
      · exact .inr inside
    intro id' id'' d inside inside'
    rcases new_or_old inside with ⟨rfl, rfl⟩ | before
    · rcases new_or_old inside' with ⟨_, rfl⟩ | before'
      · rfl
      · exact absurd (inv.fresh before') (lt_irrefl _)
    · rcases new_or_old inside' with ⟨rfl, rfl⟩ | before'
      · exact absurd (inv.fresh before) (lt_irrefl _)
      · exact inv.own before before'
  running := by
    intro id'
    have before := inv.running id'
    unfold runningDones queuedDones at before ⊢
    rw [queue_push]
    by_cases same : id' = id
    · subst same
      by_cases active : w.activeWriters.has id' = true
      · have held := (inv.busy id').mpr (.inl active)
        obtain ⟨head, rest, queued⟩ := List.exists_cons_of_ne_nil held
        simpa [startedDones, settledDones, Writers.push, active, queued] using before
      · simpa [startedDones, settledDones, Writers.push, active] using before
    · simpa [startedDones, settledDones, Writers.push, same] using before
  inflight := by
    intro d
    have before := inv.inflight d
    unfold queuedDones at before ⊢
    show (w.inflightWrites.add w.promises).has d = true ↔ _
    rw [JsSet.has_add, Bool.or_eq_true, before]
    constructor
    · rintro (new | ⟨id', inside⟩)
      · refine ⟨id, ?_⟩
        rw [queue_push, if_pos rfl, List.map_append]
        exact List.mem_append_right _ (by simpa using new)
      · refine ⟨id', ?_⟩
        rw [queue_push]
        split
        · rename_i same
          subst same
          rw [List.map_append]
          exact List.mem_append_left _ inside
        · exact inside
    · rintro ⟨id', inside⟩
      rw [queue_push] at inside
      split at inside
      · rename_i same
        subst same
        rw [List.map_append] at inside
        rcases List.mem_append.mp inside with old | new
        · exact .inr ⟨id', old⟩
        · exact .inl (by simpa using new)
      · exact .inr ⟨id', inside⟩
  snapshots := by
    intro id' r inside mergeable
    rw [queue_push] at inside
    split at inside
    · rcases List.mem_append.mp inside with before | new
      · exact inv.snapshots before mergeable
      · obtain rfl := List.mem_singleton.mp new
        exact allowed mergeable
    · exact inv.snapshots inside mergeable

theorem startWriter (room : w.activeWriters.size < MAX_ACTIVE_WRITERS)
    (ready : w.readyWriters.has id = true) : (w.startWriter id).Orderly where
  busy := by
    intro id'
    have before := inv.busy id'
    rw [queue_startWriter]
    by_cases same : id' = id
    · subst same
      simpa [Writers.startWriter, ready] using before
    · simpa [Writers.startWriter, same] using before
  apart := by
    intro id' active
    by_cases same : id' = id
    · simp [Writers.startWriter, same]
    · have before : w.activeWriters.has id' = true := by
        simpa [Writers.startWriter, same] using active
      simp [Writers.startWriter, inv.apart before]
  few := by
    have grown : (w.startWriter id).activeWriters.size ≤ w.activeWriters.size + 1 :=
      JsMap.size_set_le
    omega
  sorted := inv.sorted
  fresh := inv.fresh
  own := inv.own
  running := by
    intro id'
    have before := inv.running id'
    rw [startedDones_startWriter]
    by_cases same : id' = id
    · subst same
      have idle : w.activeWriters.has id' = false := by
        by_contra active
        have busy := inv.apart (Bool.not_eq_false _ ▸ active)
        rw [ready] at busy
        cases busy
      have was : w.startedDones id' = w.settledDones id' := by
        simpa [runningDones, idle] using before
      simp [runningDones, Writers.startWriter, settledDones, queuedDones, was, queue]
    · simpa [runningDones, Writers.startWriter, settledDones, queuedDones, same, queue]
        using before
  inflight := inv.inflight
  snapshots := inv.snapshots

theorem shift (active : w.activeWriters.has id = true)
    (head : (w.queue id).head? = some request) : (w.shift id request success).Orderly := by
  obtain ⟨rest, queued⟩ := List.head?_eq_some_iff.mp head
  have calm := inv.apart active
  have same_timeline : ∀ id', (w.shift id request success).timeline id' = w.timeline id' :=
    fun id' => timeline_shift head
  refine ⟨?_, ?_, ?_, ?_, ?_, ?_, ?_, ?_, ?_⟩
  · intro id'
    rw [queue_shift]
    by_cases same : id' = id
    · subst same
      cases rest <;> simp [Writers.shift, queued, calm]
    · have before := inv.busy id'
      cases rest <;> simpa [Writers.shift, queued, same] using before
  · intro id' busy
    have other : id' ≠ id := by
      rintro rfl
      simp [Writers.shift] at busy
    have before : w.activeWriters.has id' = true := by
      simpa [Writers.shift, other] using busy
    have apart := inv.apart before
    cases rest <;> simpa [Writers.shift, queued, other] using apart
  · exact JsMap.size_delete_le.trans inv.few
  · intro id'
    rw [same_timeline]
    exact inv.sorted id'
  · intro id' d inside
    rw [same_timeline] at inside
    exact inv.fresh inside
  · intro id' id'' d inside inside'
    rw [same_timeline] at inside inside'
    exact inv.own inside inside'
  · intro id'
    have before := inv.running id'
    rw [settledDones_shift]
    unfold runningDones queuedDones at before ⊢
    rw [queue_shift]
    by_cases same : id' = id
    · subst same
      simpa [startedDones, Writers.shift, active, queued] using before
    · simpa [startedDones, Writers.shift, same] using before
  · intro d
    have before := inv.inflight d
    unfold queuedDones at before ⊢
    show (w.inflightWrites.delete request.done).has d = true ↔ _
    rw [JsSet.has_delete, Bool.and_eq_true, before]
    have in_line : ∀ {id' d}, d ∈ (w.queue id').map (·.done) → d ∈ w.timeline id' :=
      fun inside => List.mem_append_right _ inside
    have first : request.done ∈ (w.queue id).map (·.done) := by simp [queued]
    constructor
    · rintro ⟨other, id', inside⟩
      refine ⟨id', ?_⟩
      rw [queue_shift]
      split
      · rename_i same
        subst same
        rw [queued] at inside ⊢
        rcases List.mem_cons.mp inside with gone | kept
        · simp [gone] at other
        · exact kept
      · exact inside
    · rintro ⟨id', inside⟩
      rw [queue_shift] at inside
      split at inside
      · rename_i same
        subst same
        rw [queued] at inside
        have sorted := (List.pairwise_append.mp (inv.sorted id')).2.1
        unfold queuedDones at sorted
        rw [queued, List.map_cons, List.pairwise_cons] at sorted
        have later : request.done < d := sorted.1 d inside
        refine ⟨by simpa using later.ne', id', ?_⟩
        rw [queued]
        exact List.mem_cons_of_mem _ inside
      · rename_i other
        refine ⟨?_, id', inside⟩
        simp only [decide_eq_true_eq]
        rintro rfl
        exact other (inv.own (in_line inside) (in_line first))
  · intro id' r inside mergeable
    rw [queue_shift] at inside
    split at inside
    · exact inv.snapshots (List.mem_of_mem_tail inside) mergeable
    · exact inv.snapshots inside mergeable

theorem move (move : Move w w') : w'.Orderly := by
  cases move with
  | merged found snapshot _ => exact inv.merge found snapshot
  | pushed allowed => exact inv.push allowed
  | started room head => exact inv.startWriter room (readyWriters_has_head head)
  | ended success active head => exact inv.shift active head

end Orderly

/-- A chain of moves. -/
abbrev Moves : Writers → Writers → Prop := Relation.ReflTransGen Move

theorem Orderly.moves (inv : w.Orderly) (moves : Moves w w') : w'.Orderly := by
  induction moves with
  | refl => exact inv
  | tail _ move ih => exact ih.move move

section Pump

/-- A session is left ready only when as many as may are writing. -/
def Pumped (w : Writers) : Prop :=
  w.activeWriters.size < MAX_ACTIVE_WRITERS → ∀ id, w.readyWriters.has id = false

theorem pump_moves (turns : Nat) (w : Writers) : Moves w (pump turns w) := by
  induction turns generalizing w with
  | zero => exact .refl
  | succ turns ih =>
    unfold pump
    split
    · rename_i room
      cases listed : w.readyWriters.keys with
      | nil => exact .refl
      | cons id rest => exact .head (.started room (by rw [listed]; rfl)) (ih _)
    · exact .refl

theorem pumpWrites_moves (w : Writers) : Moves w w.pumpWrites := pump_moves _ w

theorem pump_pumped {turns : Nat} (enough : w.readyWriters.size ≤ turns) :
    (pump turns w).Pumped := by
  induction turns generalizing w with
  | zero =>
    intro _ id
    have none_ready := JsMap.size_eq_zero.mp (Nat.le_zero.mp enough) id
    exact JsMap.has_eq_false.mpr none_ready
  | succ turns ih =>
    unfold pump
    split
    · cases listed : w.readyWriters.keys with
      | nil =>
        intro _ id
        apply JsMap.has_eq_false.mpr
        refine JsMap.size_eq_zero.mp ?_ id
        simp [JsMap.size_eq_length_keys, listed]
      | cons id rest =>
        apply ih
        have fewer : (w.startWriter id).readyWriters.keys = rest := JsMap.keys_delete_head listed
        rw [JsMap.size_eq_length_keys] at enough ⊢
        rw [listed, List.length_cons] at enough
        rw [fewer]
        omega
    · rename_i full
      exact fun room => absurd room full

theorem pumpWrites_pumped (w : Writers) : w.pumpWrites.Pumped := pump_pumped le_rfl

theorem enqueueWrite_moves (allowed : coalescible = true → run.task = .snapshot)
    (newer : coalescible = true → ∀ r ∈ w.queue id, r.coalescible = true →
      r.run.stamp < run.stamp) : Moves w (w.enqueueWrite id run coalescible) := by
  unfold enqueueWrite
  cases found : w.mergeable id coalescible with
  | none => exact .head (.pushed allowed) (pumpWrites_moves _)
  | some last =>
    obtain ⟨is_last, merges, merged, _⟩ := mergeable_eq_some found
    have before : last.run.stamp < run.stamp :=
      newer merges last (List.mem_of_getLast? is_last) merged
    exact .single (.merged (merges ▸ found) (allowed merges) before)

theorem enqueueWrite_pumped (pumped : w.Pumped) :
    (w.enqueueWrite id run coalescible).Pumped := by
  unfold enqueueWrite
  split
  · exact pumped
  · exact pumpWrites_pumped _

end Pump

section Later

/-- The run of a request may still be replaced. -/
def Open (w : Writers) (id : SessionId) (r : WriteRequest) : Prop :=
  (w.queue id).getLast? = some r ∧ r.coalescible = true ∧ r.done ∉ w.startedDones id

/-- What a chain of moves keeps: the orders only grow at their ends, and a request keeps its run
unless that may be replaced. -/
structure Later (w w' : Writers) : Prop where
  timeline : ∀ id, w.timeline id <+: w'.timeline id
  started : ∀ id, w.startedDones id <+: w'.startedDones id
  settled : w.settled <+: w'.settled
  queued : ∀ {id r r'}, r ∈ w.queue id → r' ∈ w'.queue id → r'.done = r.done →
    r'.coalescible = r.coalescible ∧ (r'.run = r.run ∨ w.Open id r ∧ r'.run.Carries r.run)

theorem mem_timeline {r : WriteRequest} (inside : r ∈ w.queue id) : r.done ∈ w.timeline id :=
  List.mem_append_right _ (List.mem_map_of_mem inside)

namespace Orderly

variable (inv : w.Orderly)
include inv

theorem queue_sorted (id) : (w.queue id).Pairwise (·.done < ·.done) := by
  have sorted := (List.pairwise_append.mp (inv.sorted id)).2.1
  exact List.pairwise_map.mp sorted

theorem queue_inj {r r' : WriteRequest} (inside : r ∈ w.queue id) (inside' : r' ∈ w.queue id)
    (same : r'.done = r.done) : r' = r := by
  have nodup : (w.queuedDones id).Nodup :=
    (List.pairwise_append.mp (inv.sorted id)).2.1.imp fun less => less.ne
  exact List.inj_on_of_nodup_map nodup inside' inside same

theorem le_last (is_last : (w.queue id).getLast? = some last) {d : Nat}
    (inside : d ∈ w.timeline id) : d ≤ last.done := by
  obtain ⟨before, queued⟩ := List.getLast?_eq_some_iff.mp is_last
  have sorted := inv.sorted id
  have ends : w.timeline id
      = (w.settledDones id ++ before.map (·.done)) ++ [last.done] := by
    simp [timeline, queuedDones, queued]
  rw [ends] at sorted inside
  rcases List.mem_append.mp inside with earlier | equal
  · exact ((List.pairwise_append.mp sorted).2.2 d earlier _ (List.mem_singleton_self _)).le
  · exact (List.mem_singleton.mp equal).le

theorem settled_not_queued {d : Nat} (ended : d ∈ w.settledDones id) :
    d ∉ w.queuedDones id := fun waiting =>
  lt_irrefl _ ((List.pairwise_append.mp (inv.sorted id)).2.2 d ended d waiting)

theorem startedDones_prefix (id) : w.startedDones id <+: w.timeline id := by
  rw [inv.running id]
  unfold Writers.timeline runningDones
  refine List.prefix_append_right_inj _ |>.mpr ?_
  split
  · cases w.queuedDones id with
    | nil => exact List.nil_prefix
    | cons d rest => exact List.prefix_cons_inj d |>.mpr List.nil_prefix
  · exact List.nil_prefix

theorem not_started (found : w.mergeable id coalescible = some last) :
    last.done ∉ w.startedDones id := by
  obtain ⟨is_last, _, _, idle⟩ := mergeable_eq_some found
  have waiting : last.done ∈ w.queuedDones id :=
    List.mem_map_of_mem (List.mem_of_getLast? is_last)
  rw [inv.running id]
  intro inside
  rcases List.mem_append.mp inside with ended | running
  · exact inv.settled_not_queued ended waiting
  · unfold runningDones at running
    split at running
    · rename_i active
      obtain ⟨before, queued⟩ := List.getLast?_eq_some_iff.mp is_last
      cases before with
      | nil =>
        have single : (w.queue id).length = 1 := by simp [queued]
        rw [idle single] at active
        cases active
      | cons head rest =>
        have sorted := inv.queue_sorted id
        rw [queued, List.cons_append, List.pairwise_cons] at sorted
        have less : head.done < last.done :=
          sorted.1 last (List.mem_append_right _ (List.mem_singleton_self _))
        have same : last.done = head.done := by
          simpa [queuedDones, queued] using running
        omega
    · cases running

end Orderly

theorem Later.refl (inv : w.Orderly) : Later w w where
  timeline := fun _ => List.prefix_rfl
  started := fun _ => List.prefix_rfl
  settled := List.prefix_rfl
  queued := by
    intro id r r' inside inside' same
    obtain rfl := inv.queue_inj inside inside' same
    exact ⟨rfl, .inl rfl⟩

theorem Later.move (inv : w.Orderly) (move : Move w w') : Later w w' := by
  cases move with
  | @merged id last run found snapshot newer =>
    obtain ⟨is_last, _, coalescible, _⟩ := mergeable_eq_some found
    refine ⟨fun id' => ?_, fun id' => List.prefix_rfl, List.prefix_rfl, ?_⟩
    · rw [timeline_merge found]
    · intro id' r r' inside inside' same
      rw [queue_merge] at inside'
      split at inside'
      · rename_i eq
        subst eq
        rcases List.mem_append.mp inside' with before | new
        · obtain rfl := inv.queue_inj inside (List.dropLast_subset _ before) same
          exact ⟨rfl, .inl rfl⟩
        · obtain rfl := List.mem_singleton.mp new
          have was : last = r := inv.queue_inj inside (List.mem_of_getLast? is_last) same
          subst was
          have asked := inv.snapshots inside coalescible
          exact ⟨rfl, .inr ⟨⟨is_last, coalescible, inv.not_started found⟩,
            .inr ⟨asked, snapshot, newer⟩⟩⟩
      · obtain rfl := inv.queue_inj inside inside' same
        exact ⟨rfl, .inl rfl⟩
  | @pushed id run coalescible _ =>
    refine ⟨fun id' => ?_, fun id' => List.prefix_rfl, List.prefix_rfl, ?_⟩
    · rw [timeline_push]
      split
      · rename_i eq
        subst eq
        exact List.prefix_append _ _
      · exact List.prefix_rfl
    · intro id' r r' inside inside' same
      have old : r' ∈ w.queue id' := by
        rw [queue_push] at inside'
        split at inside'
        · rename_i eq
          subst eq
          rcases List.mem_append.mp inside' with before | new
          · exact before
          · obtain rfl := List.mem_singleton.mp new
            exact absurd (inv.fresh (mem_timeline inside)) (same ▸ lt_irrefl _)
        · exact inside'
      obtain rfl := inv.queue_inj inside old same
      exact ⟨rfl, .inl rfl⟩
  | @started id room ready =>
    refine ⟨fun id' => List.prefix_rfl, fun id' => ?_, List.prefix_rfl, ?_⟩
    · rw [startedDones_startWriter]
      split
      · rename_i eq
        subst eq
        exact List.prefix_append _ _
      · exact List.prefix_rfl
    · exact (Later.refl inv).queued
  | @ended id request success active head =>
    refine ⟨fun id' => ?_, fun id' => List.prefix_rfl, List.prefix_append _ _, ?_⟩
    · rw [timeline_shift head]
    · intro id' r r' inside inside' same
      have old : r' ∈ w.queue id' := by
        rw [queue_shift] at inside'
        split at inside'
        · rename_i eq
          subst eq
          exact List.mem_of_mem_tail inside'
        · exact inside'
      obtain rfl := inv.queue_inj inside old same
      exact ⟨rfl, .inl rfl⟩

theorem Later.trans {w₁ w₂ w₃ : Writers} (inv₁ : w₁.Orderly) (inv₂ : w₂.Orderly)
    (inv₃ : w₃.Orderly) (first : Later w₁ w₂) (second : Later w₂ w₃) : Later w₁ w₃ where
  timeline := fun id => (first.timeline id).trans (second.timeline id)
  started := fun id => (first.started id).trans (second.started id)
  settled := first.settled.trans second.settled
  queued := by
    intro id r₁ r₃ inside₁ inside₃ same
    -- The request was queued between: what has settled by then does not come back.
    have known : r₁.done ∈ w₂.timeline id := (first.timeline id).subset (mem_timeline inside₁)
    obtain ⟨r₂, inside₂, done₂⟩ : ∃ r₂ ∈ w₂.queue id, r₂.done = r₁.done := by
      rcases List.mem_append.mp known with ended | waiting
      · have still : r₁.done ∈ w₃.settledDones id :=
          ((second.settled.filter _).map _).subset ended
        exact absurd (List.mem_map.mpr ⟨r₃, inside₃, same⟩) (inv₃.settled_not_queued still)
      · exact List.mem_map.mp waiting
    obtain ⟨kind, change⟩ := first.queued inside₁ inside₂ done₂
    obtain ⟨kind', change'⟩ := second.queued inside₂ inside₃ (same.trans done₂.symm)
    refine ⟨kind'.trans kind, ?_⟩
    rcases change' with same_run | ⟨⟨is_last, coalescible, unstarted⟩, newer⟩
    · rw [same_run]
      exact change
    · -- What is last later on and was there before was last before.
      have was_last : (w₁.queue id).getLast? = some r₁ := by
        obtain ⟨last, is_last₁⟩ : ∃ last, (w₁.queue id).getLast? = some last := by
          have held : w₁.queue id ≠ [] := List.ne_nil_of_mem inside₁
          exact ⟨_, List.getLast?_eq_some_getLast held⟩
        have member := List.mem_of_getLast? is_last₁
        have upper := inv₁.le_last is_last₁ (mem_timeline inside₁)
        have lower := inv₂.le_last is_last
          ((first.timeline id).subset (mem_timeline member))
        rw [done₂] at lower
        rw [is_last₁, inv₁.queue_inj inside₁ member (le_antisymm lower upper)]
      have earlier : r₁.done ∉ w₁.startedDones id := fun begun =>
        unstarted (done₂ ▸ (first.started id).subset begun)
      refine .inr ⟨⟨was_last, kind ▸ coalescible, earlier⟩, ?_⟩
      rcases change with same_run | ⟨_, carried⟩
      · exact same_run ▸ newer
      · exact newer.trans carried

theorem Later.moves (inv : w.Orderly) (moves : Moves w w') : Later w w' := by
  induction moves with
  | refl => exact .refl inv
  | tail before move ih =>
    have inv' := inv.moves before
    exact .trans inv inv' (inv'.move move) ih (.move inv' move)

end Later

section Promises

/-- Every promise waits in the queue for a run that carries what it was made for, or has settled
with the end of one; a later promise of a session is not settled before an earlier one. -/
structure Kept (w : Writers) : Prop where
  promise : ∀ p ∈ w.promised,
    (∃ r ∈ w.queue p.sessionId, r.done = p.done ∧ r.run.Carries p.run) ∨
      ∃ e ∈ w.settled, e.sessionId = p.sessionId ∧ e.done = p.done ∧ e.run.Carries p.run
  inOrder : w.promised.Pairwise fun p p' => p.sessionId = p'.sessionId → p.done ≤ p'.done

theorem Kept.start : Kept {} := ⟨by simp, List.Pairwise.nil⟩

theorem Kept.mem_timeline (kept : w.Kept) {p : Promised} (made : p ∈ w.promised) :
    p.done ∈ w.timeline p.sessionId := by
  rcases kept.promise p made with ⟨r, inside, done, _⟩ | ⟨e, ended, session, done, _⟩
  · exact List.mem_append_right _ (List.mem_map.mpr ⟨r, inside, done⟩)
  · refine List.mem_append_left _ (List.mem_map.mpr ⟨e, ?_, done⟩)
    exact List.mem_filter.mpr ⟨ended, by simpa using session⟩

theorem Kept.inOrder_append (kept : w.Kept) {new : Promised}
    (last : ∀ d ∈ w.timeline new.sessionId, d ≤ new.done) :
    (w.promised ++ [new]).Pairwise fun p p' => p.sessionId = p'.sessionId → p.done ≤ p'.done := by
  refine List.pairwise_append.mpr ⟨kept.inOrder, List.pairwise_singleton _ _, ?_⟩
  intro p made p' is_new same
  obtain rfl := List.mem_singleton.mp is_new
  exact last _ (same ▸ kept.mem_timeline made)

theorem Kept.move (kept : w.Kept) (inv : w.Orderly) (move : Move w w') : w'.Kept := by
  cases move with
  | @merged id last run found snapshot newer =>
    obtain ⟨is_last, _, coalescible, _⟩ := mergeable_eq_some found
    obtain ⟨before, queued⟩ := List.getLast?_eq_some_iff.mp is_last
    have was := inv.snapshots (List.mem_of_getLast? is_last) coalescible
    refine ⟨fun p made => ?_, kept.inOrder_append fun d inside => inv.le_last is_last inside⟩
    rcases List.mem_append.mp made with old | new
    · rcases kept.promise p old with ⟨r, inside, done, carries⟩ | ended
      · refine .inl ?_
        rw [queue_merge]
        split
        · rename_i eq
          rw [eq, queued] at inside
          rw [queued, List.dropLast_concat]
          rcases List.mem_append.mp inside with earlier | equal
          · exact ⟨r, List.mem_append_left _ earlier, done, carries⟩
          · obtain rfl := List.mem_singleton.mp equal
            have newer_run : run.Carries r.run := .inr ⟨was, snapshot, newer⟩
            exact ⟨_, List.mem_append_right _ (List.mem_singleton_self _), done,
              newer_run.trans carries⟩
        · exact ⟨r, inside, done, carries⟩
      · exact .inr ended
    · obtain rfl := List.mem_singleton.mp new
      refine .inl ⟨{ last with run }, ?_, rfl, .inl rfl⟩
      rw [queue_merge, if_pos rfl]
      exact List.mem_append_right _ (List.mem_singleton_self _)
  | @pushed id run coalescible _ =>
    refine ⟨fun p made => ?_, kept.inOrder_append fun d inside => (inv.fresh inside).le⟩
    rcases List.mem_append.mp made with old | new
    · rcases kept.promise p old with ⟨r, inside, done, carries⟩ | ended
      · refine .inl ⟨r, ?_, done, carries⟩
        rw [queue_push]
        split
        · rename_i eq
          exact List.mem_append_left _ (eq ▸ inside)
        · exact inside
      · exact .inr ended
    · obtain rfl := List.mem_singleton.mp new
      refine .inl ⟨⟨run, coalescible, w.promises⟩, ?_, rfl, .inl rfl⟩
      rw [queue_push, if_pos rfl]
      exact List.mem_append_right _ (List.mem_singleton_self _)
  | @started id room ready => exact ⟨kept.promise, kept.inOrder⟩
  | @ended id request success active head =>
    obtain ⟨rest, queued⟩ := List.head?_eq_some_iff.mp head
    refine ⟨fun p made => ?_, kept.inOrder⟩
    rcases kept.promise p made with ⟨r, inside, done, carries⟩ | ⟨e, ended, settled⟩
    · by_cases eq : p.sessionId = id
      · rw [eq, queued] at inside
        rcases List.mem_cons.mp inside with rfl | later
        · exact .inr ⟨_, List.mem_append_right _ (List.mem_singleton_self _), eq.symm, done,
            carries⟩
        · refine .inl ⟨r, ?_, done, carries⟩
          rw [queue_shift, if_pos eq, queued]
          exact later
      · refine .inl ⟨r, ?_, done, carries⟩
        rw [queue_shift, if_neg eq]
        exact inside
    · exact .inr ⟨e, List.mem_append_left _ ended, settled⟩

end Promises

theorem Moves.promised (moves : Moves w w') : w.promised ⊆ w'.promised := by
  induction moves with
  | refl => exact fun _ made => made
  | tail _ move ih =>
    intro p made
    cases move with
    | merged | pushed => exact List.mem_append_left _ (ih made)
    | started | ended => exact ih made

section Running

/-- The operations that have been started and have not ended. -/
def running (w : Writers) : List (SessionId × Nat) :=
  w.started.filter fun e => e.2 ∉ w.settledDones e.1

theorem pairwise_of_parts {α β : Type*} [DecidableEq α] {R : β → β → Prop} {l : List (α × β)}
    (parts : ∀ a, ((l.filter (·.1 = a)).map (·.2)).Pairwise R) :
    l.Pairwise fun e e' => e.1 = e'.1 → R e.2 e'.2 := by
  induction l with
  | nil => exact .nil
  | cons e rest ih =>
    refine List.pairwise_cons.mpr ⟨fun e' inside same => ?_, ih fun a => ?_⟩
    · have part := parts e.1
      rw [List.filter_cons_of_pos (by simp), List.map_cons, List.pairwise_cons] at part
      apply part.1
      exact List.mem_map_of_mem (List.mem_filter.mpr ⟨inside, by simpa using same.symm⟩)
    · have part := parts a
      by_cases here : e.1 = a
      · rw [List.filter_cons_of_pos (by simpa using here), List.map_cons,
          List.pairwise_cons] at part
        exact part.2
      · rwa [List.filter_cons_of_neg (by simpa using here)] at part

namespace Orderly

variable (inv : w.Orderly)
include inv

theorem started_pairwise : w.started.Pairwise fun e e' => e.1 = e'.1 → e.2 < e'.2 :=
  pairwise_of_parts fun id => (inv.sorted id).sublist (inv.startedDones_prefix id).sublist

theorem active_of_running {e : SessionId × Nat} (runs : e ∈ w.running) :
    w.activeWriters.has e.1 = true ∧ (w.queuedDones e.1).head? = some e.2 := by
  obtain ⟨begun, unsettled⟩ := List.mem_filter.mp runs
  have listed : e.2 ∈ w.startedDones e.1 :=
    List.mem_map_of_mem (List.mem_filter.mpr ⟨begun, by simp⟩)
  rw [inv.running e.1] at listed
  rcases List.mem_append.mp listed with ended | current
  · simp [ended] at unsettled
  · unfold runningDones at current
    split at current
    · rename_i active
      exact ⟨active, by simpa using current⟩
    · cases current

theorem running_sessions_nodup : (w.running.map (·.1)).Nodup := by
  refine List.pairwise_map.mpr ?_
  have ordered : w.running.Pairwise fun e e' => e.1 = e'.1 → e.2 < e'.2 :=
    inv.started_pairwise.sublist List.filter_sublist
  refine ordered.imp_of_mem ?_
  intro e e' runs runs' less same
  have head := (inv.active_of_running runs).2
  have head' := (inv.active_of_running runs').2
  rw [← same, head] at head'
  exact (less same).ne (Option.some.inj head')

theorem running_length_le : w.running.length ≤ MAX_ACTIVE_WRITERS := by
  have inside : w.running.map (·.1) ⊆ w.activeWriters.keys := by
    intro id listed
    obtain ⟨e, runs, rfl⟩ := List.mem_map.mp listed
    exact (JsSet.mem_keys_iff _ _).mpr (inv.active_of_running runs).1
  have bound := (List.Nodup.subperm inv.running_sessions_nodup inside).length_le
  rw [List.length_map, ← JsMap.size_eq_length_keys] at bound
  exact bound.trans inv.few

end Orderly

end Running

end Writers

end Takode.Sessions
