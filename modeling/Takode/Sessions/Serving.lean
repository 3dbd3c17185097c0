import Takode.Sessions.Settling

/-!
# The write queues serve every session

What holds of the queues in every run, and what holds of `flushAll` in the runs where
no write clears the failure of a newer state. `setArchived` rewrites what the files
hold, and so does the repair of a load: when a state could not be written, such a
write succeeds without it and clears the failure that `flushAll` would report.
-/

namespace Takode.Sessions

open Writers

variable {s t : SessionStore} {id : SessionId}

namespace Writers

variable {w : Writers}

/-- At most two operations run, at most one of a session, in the order in which they were accepted;
a session with queued work is running its first operation, or it is ready and as many as may are
running; every promise waits for, or has settled with, a run that carries what it was made for. -/
structure Serves (w : Writers) : Prop where
  few : w.running.length ≤ MAX_ACTIVE_WRITERS
  oneEach : (w.running.map (·.1)).Nodup
  inOrder : w.started.Pairwise fun e e' => e.1 = e'.1 → e.2 < e'.2
  accepted : w.promised.Pairwise fun p p' => p.sessionId = p'.sessionId → p.done ≤ p'.done
  noneLost : ∀ id, w.queue id ≠ [] →
    (∃ r, (w.queue id).head? = some r ∧ (id, r.done) ∈ w.running) ∨
      w.readyWriters.has id = true ∧ w.running.length = MAX_ACTIVE_WRITERS
  settles : ∀ p ∈ w.promised,
    (∃ r ∈ w.queue p.sessionId, r.done = p.done ∧ r.run.Carries p.run) ∨
      ∃ e ∈ w.settled, e.sessionId = p.sessionId ∧ e.done = p.done ∧ e.run.Carries p.run
  once : ∀ id, (w.settledDones id).Nodup

/-- A run is replaced only while it is that of the last request and has not started, and only by a
newer snapshot. -/
def Replaces (w w' : Writers) : Prop := ∀ {id r r'}, r ∈ w.queue id → r' ∈ w'.queue id →
  r'.done = r.done → r'.run = r.run ∨ w.Open id r ∧ r'.run.Carries r.run

theorem Orderly.running_of_active (inv : w.Orderly) (active : w.activeWriters.has id = true) :
    ∃ r, (w.queue id).head? = some r ∧ (id, r.done) ∈ w.running := by
  obtain ⟨r, rest, queued⟩ := List.exists_cons_of_ne_nil ((inv.busy id).mpr (.inl active))
  refine ⟨r, by rw [queued]; rfl, List.mem_filter.mpr ⟨?_, ?_⟩⟩
  · have listed : r.done ∈ w.startedDones id := by
      rw [inv.running id]
      exact List.mem_append_right _ (by simp [runningDones, active, queuedDones, queued])
    obtain ⟨e, inside, done⟩ := List.mem_map.mp listed
    obtain ⟨begun, same⟩ := List.mem_filter.mp inside
    have eq : e = (id, r.done) := Prod.ext (by simpa using same) done
    exact eq ▸ begun
  · have waits : r.done ∈ w.queuedDones id := by simp [queuedDones, queued]
    simpa using fun ended => inv.settled_not_queued ended waits

theorem Orderly.running_full (inv : w.Orderly) (pumped : w.Pumped)
    (ready : w.readyWriters.has id = true) : w.running.length = MAX_ACTIVE_WRITERS := by
  have full : MAX_ACTIVE_WRITERS ≤ w.activeWriters.size := by
    by_contra room
    have idle := pumped (Nat.lt_of_not_le room) id
    rw [ready] at idle
    cases idle
  have inside : w.activeWriters.keys ⊆ w.running.map (·.1) := by
    intro id' listed
    obtain ⟨r, _, runs⟩ := inv.running_of_active ((JsSet.mem_keys_iff _ _).mp listed)
    exact List.mem_map.mpr ⟨_, runs, rfl⟩
  have distinct : w.activeWriters.keys.Nodup := w.activeWriters.nodup
  have bound := (distinct.subperm inside).length_le
  rw [List.length_map, ← JsMap.size_eq_length_keys] at bound
  exact le_antisymm inv.running_length_le (full.trans bound)

end Writers

theorem SessionStore.Tidy.serves (tidy : s.Tidy) : s.writers.Serves where
  few := tidy.orderly.running_length_le
  oneEach := tidy.orderly.running_sessions_nodup
  inOrder := tidy.orderly.started_pairwise
  accepted := tidy.kept.inOrder
  noneLost := by
    intro id held
    rcases (tidy.orderly.busy id).mp held with active | ready
    · exact .inl (tidy.orderly.running_of_active active)
    · exact .inr ⟨ready, tidy.orderly.running_full tidy.pumped ready⟩
  settles := tidy.kept.promise
  once := fun id =>
    (List.pairwise_append.mp (tidy.orderly.sorted id)).1.imp fun less => less.ne

/-- The condition on an event. -/
def SessionStore.admits (s : SessionStore) : Event → Bool
  | .settles id outcome => s.heeds id outcome
  | _ => true

theorem owes_of_reaches (reached : sessionStore.Reaches (fun s event => s.admits event = true) s) :
    s.Tidy ∧ s.Owes := by
  induction reached with
  | start => exact ⟨.start, .start⟩
  | step _ admitted taken ih =>
    obtain ⟨tidy, owes⟩ := ih
    have changes := step_changes Heeded tidy
      (fun id outcome same => by subst same; exact admitted) taken
    exact ⟨Changes.tidy changes tidy, Changes.owes changes tidy owes⟩

/-- The queues serve every session in every run, every promise settles when the operations that run
end, and what a `flushAll` owed when it was called has been written or withdrawn when it resolves,
as long as the ends of the runs heed what has failed. -/
theorem write_queues_serve (s : SessionStore) :
    (sessionStore.Reachable s → s.writers.Serves ∧
      ∀ event t, s.step event = some t → s.writers.Replaces t.writers) ∧
    (∀ run : sessionStore.Endless, Ends run → ∀ n, ∀ p ∈ (run.state n).writers.promised,
      ∃ m ≥ n, ∃ e ∈ (run.state m).writers.settled, e.sessionId = p.sessionId ∧
        e.done = p.done ∧ e.run.Carries p.run) ∧
    (sessionStore.Reaches (fun s event => s.admits event = true) s →
      ∀ flush ∈ s.flushes, flush.resolved = some true → ∀ e ∈ flush.owed, s.Saved e.1 e.2) := by
  refine ⟨fun reachable => ?_, fun run ends n p made => promise_settles ends made, ?_⟩
  · have tidy := tidy_of_reachable reachable
    refine ⟨tidy.serves, fun event t taken id r r' inside inside' same => ?_⟩
    have changes := step_changes (fun _ _ _ => True) tidy (fun _ _ _ => trivial) taken
    exact ((Later.moves tidy.orderly (Changes.moves changes)).queued inside inside' same).2
  · exact fun reached flush inside resolved e owed =>
      (owes_of_reaches reached).2.resolved flush inside resolved e owed

section Runs

private def grown (sessionId : SessionId) (length : Nat) : PersistedSession :=
  ⟨sessionId, length, none⟩

/-- Two sessions are saved, one of them twice while its first write runs, and then flushed. -/
def flushedRun : List Event :=
  [.saveSync (grown "a" 1), .saveSync (grown "a" 2), .saveSync (grown "a" 3), .save (grown "b" 1),
    .flushAll, .settles "a" (.wrote (.hotFailed false)), .settles "b" (.wrote .written),
    .settles "a" (.wrote .written), .flushAwakes 0]

theorem flushed_serves : ∃ s, sessionStore.Reaches (fun s event => s.admits event = true) s ∧
    s.writers.Serves ∧ s.Saved "a" 3 ∧ s.Saved "b" 4 := by
  obtain ⟨s, reached, resolved⟩ := sessionStore.exists_reaches_of_run SessionStore.admits
    (fun s => (⟨[("a", 3), ("b", 4)], [0, 1, 2], some true⟩ : Flush) ∈ s.flushes) flushedRun
    (by decide +kernel)
  have owed := (write_queues_serve s).2.2 reached _ resolved rfl
  refine ⟨s, reached, ((write_queues_serve s).1 reached.reachable).1, ?_, ?_⟩
  · exact owed ("a", 3) (by simp)
  · exact owed ("b", 4) (by simp)

/-- A save fails, the session is archived, and `flushAll` resolves. -/
def forgottenRun : List Event :=
  [.saveSync (grown "a" 1), .settles "a" (.wrote .written), .saveSync (grown "a" 2),
    .settles "a" (.wrote (.hotFailed false)), .setArchived "a",
    .settles "a" (.archived .intact .written), .flushAll, .flushAwakes 0]

/-- The archived session is the one that the files held, and the state that failed is lost. -/
theorem flush_forgets : ∃ s, sessionStore.Reachable s ∧ ∃ flush ∈ s.flushes,
    flush.resolved = some true ∧ ("a", 2) ∈ flush.owed ∧ ¬s.Saved "a" 2 := by
  obtain ⟨s, reached, resolved, written, removed⟩ := sessionStore.exists_reaches_of_run
    (fun _ _ => true)
    (fun s => (⟨[("a", 2)], [], some true⟩ : Flush) ∈ s.flushes ∧ s.ledger.written = [("a", 1)] ∧
      s.ledger.removed.get? "a" = none) forgottenRun (by decide +kernel)
  refine ⟨s, reached.reachable, _, resolved, rfl, List.mem_singleton_self _, ?_⟩
  rintro (⟨later, found, _⟩ | ⟨later, inside, bound⟩)
  · rw [removed] at found
    cases found
  · rw [written] at inside
    obtain rfl : later = 1 := by simpa using inside
    omega

end Runs

end Takode.Sessions
