import Mathlib.Tactic.IntervalCases
import Takode.DirectoryLock.Exclusion

/-!
# A lock whose holder is gone is taken over

In a fair run the lock of a holder that has crashed is broken: a waiter finds it stale
before its own time is out, and a caller that has removed it creates the next one.
-/

namespace Takode.DirectoryLock

variable {staleMs : Nat}

abbrev Run (staleMs : Nat) := (directoryLock staleMs).Endless

/-- From `n` on time goes on, and each caller without the lock has its turn, until it has ended. The
holders may stop at any time. -/
structure Fair (run : Run staleMs) (n : Nat) : Prop where
  time : ∀ t, ∃ m, t ≤ (run.state m).shared.now
  turns : ∀ (m i : Nat) (c : Caller), (run.state m).procs[i]? = some c → c.lock = none →
    c.phase ≠ .ended → ∃ k, m ≤ k ∧ run.label k = some (.resume i)
  goesOn : ∀ (m i : Nat) (c : Caller), n ≤ m → (run.state m).procs[i]? = some c → c.lock = none →
    run.label m ≠ some (.fail i) ∧ run.label m ≠ some (.crash i)

/-- At `m` a caller finds no lock and creates it. -/
def TakesOver (run : Run staleMs) (m : Nat) : Prop :=
  (run.state m).shared.lockDir = none ∧
    ∃ i lock c, run.label m = some (.resume i) ∧ (run.state (m + 1)).procs[i]? = some c ∧
      c.lock = some lock ∧ (run.state (m + 1)).shared.lockDir = some lock

namespace State

variable {s t : State} {i : Nat} {c : Caller} {event : Event}

/-- What a step does: one caller goes on, or fails or crashes and leaves the path alone. -/
theorem step_cases (taken : s.step staleMs event = some t) :
    (event = .start ∧ t = s.spawn ⟨s.shared.now, .trying⟩) ∨
    (∃ ms, event = .tick ms ∧ t = { s with shared := { s.shared with now := s.shared.now + ms } }) ∨
    ∃ i c disk c', s.procs[i]? = some c ∧ t = ⟨disk, s.procs.set i c'⟩ ∧
      ((event = .resume i ∧ c.resume staleMs s.shared = some (disk, c')) ∨
        ((event = .fail i ∨ event = .crash i) ∧ disk = s.shared ∧ c'.lock = none)) := by
  cases event with
  | start =>
    cases taken
    exact .inl ⟨rfl, rfl⟩
  | tick ms =>
    cases taken
    exact .inr (.inl ⟨ms, rfl, rfl⟩)
  | resume i =>
    rw [State.step] at taken
    obtain ⟨c, disk, c', found, became, rfl⟩ := Processes.stepAt_eq_some.mp taken
    exact .inr (.inr ⟨i, c, disk, c', found, rfl, .inl ⟨rfl, became⟩⟩)
  | fail i =>
    rw [State.step] at taken
    obtain ⟨⟨startedAt, phase⟩, disk, c', found, became, rfl⟩ := Processes.stepAt_eq_some.mp taken
    refine .inr (.inr ⟨i, _, disk, c', found, rfl, .inr ⟨.inl rfl, ?_⟩⟩)
    cases phase with
    | trying | releasing | checking | removing =>
      cases became
      exact ⟨rfl, rfl⟩
    | judging | waiting | holding | ended => cases became
  | crash i =>
    rw [State.step] at taken
    obtain ⟨c, disk, c', found, became, rfl⟩ := Processes.stepAt_eq_some.mp taken
    cases became
    exact .inr (.inr ⟨i, c, _, _, found, rfl, .inr ⟨.inr rfl, rfl, rfl⟩⟩)

theorem step_other (taken : s.step staleMs event = some t) (found : s.procs[i]? = some c)
    (resumes : event ≠ .resume i) (fails : event ≠ .fail i) (crashes : event ≠ .crash i) :
    t.procs[i]? = some c := by
  rcases step_cases taken with ⟨_, rfl⟩ | ⟨ms, _, rfl⟩ | ⟨j, q, disk, q', there, rfl, told⟩
  · exact Processes.getElem?_spawn_eq_some.mpr (.inl found)
  · exact found
  · refine (Processes.getElem?_set_eq_some there).mpr (.inr ⟨fun same => ?_, found⟩)
    subst same
    rcases told with ⟨told, _⟩ | ⟨told | told, _⟩
    · exact resumes told
    · exact fails told
    · exact crashes told

end State

theorem Caller.resume_cases {c c' : Caller} {disk disk' : Disk} (free : c.lock = none)
    (became : c.resume staleMs disk = some (disk', c')) :
    (disk.lockDir = none ∧ ∃ lock, c'.lock = some lock ∧ disk'.lockDir = some lock) ∨
    (c'.phase = .trying ∧ disk'.lockDir = none) ∨
    (disk' = disk ∧ c'.lock = none) := by
  obtain ⟨startedAt, phase⟩ := c
  cases phase with
  | trying =>
    simp only [Caller.resume] at became
    split at became
    · cases became
      exact .inl ⟨‹_›, _, rfl, rfl⟩
    · cases became
      exact .inr (.inr ⟨rfl, rfl⟩)
  | checking =>
    cases became
    exact .inr (.inr ⟨rfl, rfl⟩)
  | judging stat =>
    refine .inr (.inr ?_)
    simp only [Caller.resume] at became
    split at became
    · split at became
      · cases became
        exact ⟨rfl, rfl⟩
      · cases became
        exact ⟨rfl, (Fair.retry _ _ disk).1⟩
    · cases became
      exact ⟨rfl, (Fair.retry _ _ disk).1⟩
  | removing stale =>
    cases became
    exact .inr (.inl ⟨rfl, rfl⟩)
  | waiting time =>
    simp only [Caller.resume] at became
    split at became
    · cases became
      exact .inr (.inr ⟨rfl, rfl⟩)
    · cases became
  | holding | releasing => cases free
  | ended => cases became

/-- Nobody has the lock. -/
def Free (s : State) : Prop := s.Each fun _ c => c.lock = none

/-- A caller is about to try to create the lock. -/
def Tries (s : State) : Prop := ∃ (i : Nat) (c : Caller), s.procs[i]? = some c ∧ c.phase = .trying

theorem Free.step {s t : State} {event : Event} (free : Free s)
    (taken : s.step staleMs event = some t) :
    (s.shared.lockDir = none ∧ ∃ i lock c, event = .resume i ∧ t.procs[i]? = some c ∧
      c.lock = some lock ∧ t.shared.lockDir = some lock) ∨
    Free t ∧ (t.shared.lockDir = s.shared.lockDir ∨
      t.shared.lockDir = none ∧ Tries t) := by
  rcases State.step_cases taken with ⟨_, rfl⟩ | ⟨ms, _, rfl⟩ | ⟨i, c, disk, c', found, rfl, told⟩
  · exact .inr ⟨Processes.Each.spawn free rfl, .inl rfl⟩
  · exact .inr ⟨free, .inl rfl⟩
  · have here : (s.procs.set i c')[i]? = some c' :=
      (Processes.getElem?_set_eq_some found).mpr (.inl ⟨rfl, rfl⟩)
    have stays (idle : c'.lock = none) : Free ⟨disk, s.procs.set i c'⟩ :=
      Processes.Each.step free found idle fun _ _ _ _ => id
    rcases told with ⟨rfl, became⟩ | ⟨_, rfl, idle⟩
    · rcases Caller.resume_cases (free i c found) became with
        ⟨absent, lock, held, there⟩ | ⟨tries, gone⟩ | ⟨rfl, idle⟩
      · exact .inl ⟨absent, i, lock, c', rfl, here, held, there⟩
      · refine .inr ⟨stays ?_, .inr ⟨gone, i, c', here, tries⟩⟩
        simp [Caller.lock, tries]
      · exact .inr ⟨stays idle, .inl rfl⟩
    · exact .inr ⟨stays idle, .inl rfl⟩

section Runs

variable {run : Run staleMs} {n : Nat}

theorem Fair.next_turn (fair : Fair run n) {m i : Nat} {c : Caller} (late : n ≤ m)
    (found : (run.state m).procs[i]? = some c) (free : c.lock = none) (lives : c.phase ≠ .ended) :
    ∃ k, m ≤ k ∧ run.label k = some (.resume i) ∧ (run.state k).procs[i]? = some c := by
  classical
  have turn := fair.turns m i c found free lives
  obtain ⟨after, resumes⟩ := Nat.find_spec turn
  refine ⟨Nat.find turn, after, resumes, ?_⟩
  have stays : ∀ k, m ≤ k → k ≤ Nat.find turn → (run.state k).procs[i]? = some c := by
    intro k after
    induction k, after using Nat.le_induction with
    | base => exact fun _ => found
    | succ k after ih =>
      intro before
      have here := ih (Nat.le_of_succ_le before)
      have next := run.next k
      cases told : run.label k with
      | none =>
        rw [told, Option.elim_none] at next
        rwa [next]
      | some event =>
        rw [told, Option.elim_some] at next
        have goesOn := fair.goesOn k i c (le_trans late after) here free
        rw [told] at goesOn
        refine State.step_other next here (fun same => ?_) (fun same => goesOn.1 (same ▸ rfl))
          fun same => goesOn.2 (same ▸ rfl)
        exact Nat.find_min turn before ⟨after, same ▸ told⟩
  exact stays _ after le_rfl

theorem resumed {m i : Nat} {c : Caller} (turn : run.label m = some (.resume i))
    (found : (run.state m).procs[i]? = some c) : ∃ disk c',
      c.resume staleMs (run.state m).shared = some (disk, c') ∧
      run.state (m + 1) = ⟨disk, (run.state m).procs.set i c'⟩ ∧
      (run.state (m + 1)).procs[i]? = some c' := by
  have next := run.next m
  rw [turn, Option.elim_some] at next
  obtain ⟨q, disk, c', there, became, same⟩ := Processes.stepAt_eq_some.mp
    (show (run.state m).stepAt i (fun disk c => c.resume staleMs disk) = _ from next)
  obtain rfl := Option.some.inj (found.symm.trans there)
  refine ⟨disk, c', became, same, ?_⟩
  rw [same]
  exact (Processes.getElem?_set_eq_some found).mpr (.inl ⟨rfl, rfl⟩)

theorem free_of_no_takeover (never : ∀ m, n ≤ m → ¬TakesOver run m) (free : Free (run.state n))
    {m : Nat} (late : n ≤ m) : Free (run.state m) ∧
      ((run.state m).shared.lockDir = (run.state n).shared.lockDir ∨
        (run.state m).shared.lockDir = none ∧
          ∃ k, n ≤ k ∧ (run.state k).shared.lockDir = none ∧ Tries (run.state k)) := by
  induction m, late using Nat.le_induction with
  | base => exact ⟨free, .inl rfl⟩
  | succ m late ih =>
    obtain ⟨free, there⟩ := ih
    have next := run.next m
    cases told : run.label m with
    | none =>
      rw [told, Option.elim_none] at next
      rw [next]
      exact ⟨free, there⟩
    | some event =>
      rw [told, Option.elim_some] at next
      rcases free.step next with ⟨absent, i, lock, c, rfl, found, held, there⟩ | ⟨free, same | removed⟩
      · exact absurd ⟨absent, i, lock, c, told, found, held, there⟩ (never m late)
      · rw [same]
        exact ⟨free, there⟩
      · exact ⟨free, .inr ⟨removed.1, m + 1, Nat.le_succ_of_le late, removed⟩⟩

theorem Fair.taken_over (fair : Fair run n) (free : Free (run.state n))
    (absent : (run.state n).shared.lockDir = none) (tries : Tries (run.state n)) :
    ∃ m, n ≤ m ∧ TakesOver run m := by
  by_contra! never
  obtain ⟨i, ⟨startedAt, phase⟩, found, rfl⟩ := tries
  obtain ⟨m, late, turn, found⟩ := fair.next_turn le_rfl found rfl fun same => by cases same
  have absent : (run.state m).shared.lockDir = none := by
    rcases (free_of_no_takeover never free late).2 with same | ⟨gone, _⟩
    · rw [same, absent]
    · exact gone
  obtain ⟨disk, c', became, same, after⟩ := resumed turn found
  simp only [Caller.resume, absent] at became
  cases became
  let lock : LockDir := ⟨(run.state m).shared.made, (run.state m).shared.now⟩
  refine never m late ⟨absent, i, lock, Caller.become ⟨startedAt, .trying⟩ (.holding lock), turn,
    after, rfl, ?_⟩
  rw [same]

/-- The caller waits for the lock, and its own time is not out before the lock is stale. -/
def Waits (staleMs : Nat) (lock : LockDir) (c : Caller) : Prop :=
  lock.mtimeMs ≤ c.startedAt + staleMs ∧
    match c.phase with
    | .trying | .checking | .removing _ | .waiting _ => True
    | .judging stat => stat = some lock
    | .holding _ | .releasing _ | .ended => False

theorem Waits.lives {lock : LockDir} {c : Caller} (waits : Waits staleMs lock c) :
    c.lock = none ∧ c.phase ≠ .ended := by
  obtain ⟨startedAt, phase⟩ := c
  cases phase with
  | trying | checking | judging | removing | waiting => exact ⟨rfl, fun same => by cases same⟩
  | holding | releasing | ended => exact absurd waits.2 id

/-- The turns a caller has before it removes a stale lock. -/
def turnsLeft : Phase → Nat
  | .removing _ => 0
  | .judging _ => 1
  | .checking => 2
  | .trying => 3
  | .waiting _ => 4
  | .holding _ | .releasing _ | .ended => 5

/-- The turn of a caller that waits: it goes on waiting, and comes nearer to the removal once the
lock is stale. -/
theorem Waits.resume {lock : LockDir} {disk disk' : Disk} {c c' : Caller}
    (waits : Waits staleMs lock c) (there : disk.lockDir = some lock)
    (became : c.resume staleMs disk = some (disk', c')) :
    disk'.lockDir = none ∨ Waits staleMs lock c' ∧
      (staleMs < disk.now - lock.mtimeMs → turnsLeft c'.phase < turnsLeft c.phase) := by
  obtain ⟨startedAt, phase⟩ := c
  obtain ⟨early, waits⟩ := waits
  cases phase with
  | trying =>
    simp only [Caller.resume, there] at became
    cases became
    exact .inr ⟨⟨early, trivial⟩, fun _ => Nat.lt_succ_self 2⟩
  | checking =>
    cases became
    exact .inr ⟨⟨early, there⟩, fun _ => Nat.lt_succ_self 1⟩
  | judging stat =>
    obtain rfl : stat = some lock := waits
    simp only [Caller.resume] at became
    split at became
    · cases became
      exact .inr ⟨⟨early, trivial⟩, fun _ => Nat.one_pos⟩
    · rename_i fresh
      have fresh : disk.now - lock.mtimeMs ≤ staleMs := by simpa [Caller.isStale] using fresh
      have inTime : ¬disk.now - startedAt > staleMs * 2 := by
        simp only at early
        omega
      simp only [Caller.retry, if_neg inTime] at became
      cases became
      exact .inr ⟨⟨early, trivial⟩, fun stale => absurd fresh (not_le_of_gt stale)⟩
  | removing stale =>
    cases became
    exact .inl rfl
  | waiting time =>
    simp only [Caller.resume] at became
    split at became
    · cases became
      exact .inr ⟨⟨early, trivial⟩, fun _ => Nat.lt_succ_self 3⟩
    · cases became
  | holding | releasing | ended => exact absurd waits id

theorem Caller.now_of_resume {c c' : Caller} {disk disk' : Disk}
    (became : c.resume staleMs disk = some (disk', c')) : disk'.now = disk.now := by
  obtain ⟨startedAt, phase⟩ := c
  cases phase with
  | trying | waiting =>
    simp only [Caller.resume] at became
    split at became <;> cases became <;> rfl
  | checking | removing | holding | releasing =>
    cases became
    rfl
  | judging stat =>
    simp only [Caller.resume] at became
    split at became
    · split at became <;> cases became <;> rfl
    · cases became
      rfl
  | ended => cases became

theorem now_le_now (run : Run staleMs) {m k : Nat} (late : m ≤ k) :
    (run.state m).shared.now ≤ (run.state k).shared.now := by
  induction k, late using Nat.le_induction with
  | base => exact le_rfl
  | succ k _ ih =>
    refine le_trans ih ?_
    have next := run.next k
    cases told : run.label k with
    | none =>
      rw [told, Option.elim_none] at next
      rw [next]
    | some event =>
      rw [told, Option.elim_some] at next
      rcases State.step_cases next with ⟨_, same⟩ | ⟨ms, _, same⟩ | ⟨i, c, disk, c', _, same, told⟩
      · rw [same]
        exact le_rfl
      · rw [same]
        exact Nat.le_add_right _ _
      · rw [same]
        rcases told with ⟨_, became⟩ | ⟨_, rfl, _⟩
        · exact (Caller.now_of_resume became).ge
        · exact le_rfl

theorem Fair.still_waits (fair : Fair run n) {lock : LockDir} {i : Nat} {w : Caller}
    (found : (run.state n).procs[i]? = some w) (waits : Waits staleMs lock w)
    (stays : ∀ m, n ≤ m → (run.state m).shared.lockDir = some lock) {m : Nat} (late : n ≤ m) :
    ∃ c, (run.state m).procs[i]? = some c ∧ Waits staleMs lock c := by
  induction m, late using Nat.le_induction with
  | base => exact ⟨w, found, waits⟩
  | succ m late ih =>
    obtain ⟨c, here, waits⟩ := ih
    have next := run.next m
    cases told : run.label m with
    | none =>
      rw [told, Option.elim_none] at next
      rw [next]
      exact ⟨c, here, waits⟩
    | some event =>
      rw [told, Option.elim_some] at next
      have goesOn := fair.goesOn m i c late here waits.lives.1
      rw [told] at goesOn
      by_cases turn : event = .resume i
      · subst turn
        obtain ⟨disk, c', became, same, after⟩ := resumed told here
        rcases waits.resume (stays m late) became with gone | ⟨waits, _⟩
        · have there := stays (m + 1) (Nat.le_succ_of_le late)
          rw [same] at there
          cases gone.symm.trans there
        · exact ⟨c', after, waits⟩
      · exact ⟨c, State.step_other next here turn (fun same => goesOn.1 (same ▸ rfl))
          fun same => goesOn.2 (same ▸ rfl), waits⟩

theorem Fair.not_for_ever (fair : Fair run n) {lock : LockDir} {i : Nat} {w : Caller}
    (found : (run.state n).procs[i]? = some w) (waits : Waits staleMs lock w) :
    ∃ m, n ≤ m ∧ (run.state m).shared.lockDir ≠ some lock := by
  by_contra! stays
  obtain ⟨N, old⟩ := fair.time (lock.mtimeMs + staleMs + 1)
  -- From then on each of its turns brings the caller nearer to the removal.
  have turns : ∀ (left m : Nat) (c : Caller), n ≤ m → N ≤ m → (run.state m).procs[i]? = some c →
      Waits staleMs lock c → turnsLeft c.phase = left → False := by
    intro left
    induction left using Nat.strong_induction_on with
    | _ left ih =>
      intro m c late afterN here waits same
      obtain ⟨k, after, turn, here⟩ := fair.next_turn late here waits.lives.1 waits.lives.2
      obtain ⟨disk, c', became, after', here'⟩ := resumed turn here
      have late' : n ≤ k + 1 := Nat.le_succ_of_le (le_trans late after)
      have there := stays (k + 1) late'
      rcases waits.resume (stays k (le_trans late after)) became with gone | ⟨waits, nearer⟩
      · rw [after'] at there
        cases gone.symm.trans there
      · have stale : staleMs < (run.state k).shared.now - lock.mtimeMs := by
          have := le_trans old (now_le_now run (le_trans afterN after))
          omega
        refine ih (turnsLeft c'.phase) (same ▸ nearer stale) (k + 1) c' late' ?_ here' waits rfl
        exact Nat.le_succ_of_le (le_trans afterN after)
  obtain ⟨c, here, waits⟩ := fair.still_waits found waits stays (le_max_left n N)
  exact turns _ _ c (le_max_left n N) (le_max_right n N) here waits rfl

theorem Fair.eventually_taken_over (fair : Fair run n) (free : Free (run.state n)) {lock : LockDir}
    {i : Nat} {w : Caller} (there : (run.state n).shared.lockDir = some lock)
    (found : (run.state n).procs[i]? = some w) (waits : Waits staleMs lock w) :
    ∃ m, n ≤ m ∧ TakesOver run m := by
  by_contra! never
  obtain ⟨m, late, changed⟩ := fair.not_for_ever found waits
  rcases (free_of_no_takeover never free late).2 with same | ⟨_, k, after, absent, tries⟩
  · exact changed (same.trans there)
  · have fairLater : Fair run k :=
      ⟨fair.time, fair.turns, fun m i c late => fair.goesOn m i c (le_trans after late)⟩
    have freeLater := (free_of_no_takeover never free after).1
    obtain ⟨m, late, taken⟩ := fairLater.taken_over freeLater absent tries
    exact never m (le_trans after late) taken

theorem Keeps.abandoned {s t : State} {i : Nat} {c : Caller} {lock : LockDir}
    (inv : Keeps staleMs s) (found : s.procs[i]? = some c) (held : c.lock = some lock)
    (taken : s.step staleMs (.crash i) = some t) : t.shared.lockDir = some lock ∧ Free t := by
  obtain ⟨q, disk, q', there, became, rfl⟩ := Processes.stepAt_eq_some.mp
    (show s.stepAt i (fun disk c => some (disk, c.become .ended)) = some t from taken)
  cases became
  refine ⟨((inv.fair i c found).holds lock held).1, fun j r here => ?_⟩
  rcases (Processes.getElem?_set_eq_some there).mp here with ⟨_, rfl⟩ | ⟨other, was⟩
  · rfl
  · exact inv.apart i j c r (Ne.symm other) found was (by simp [held])

/-- In every run that meets the condition nobody shares the lock, and what a holder that crashes
leaves is taken over in every fair run by a caller that waits for it. -/
theorem directory_lock_exclusive (staleMs : Nat) :
    (∀ s, (directoryLock staleMs).Reaches (fun s event => admits staleMs s event = true) s →
      Sound s ∧ ∀ i c lock t, s.procs[i]? = some c → c.lock = some lock →
        s.step staleMs (.crash i) = some t → t.shared.lockDir = some lock ∧ Free t) ∧
    ∀ (run : Run staleMs) (n : Nat), Fair run n → Free (run.state n) →
      ∀ (lock : LockDir) (i : Nat) (w : Caller), (run.state n).shared.lockDir = some lock →
        (run.state n).procs[i]? = some w → w.phase = .trying →
          lock.mtimeMs ≤ w.startedAt + staleMs → ∃ m, n ≤ m ∧ TakesOver run m := by
  refine ⟨fun s reached => ?_, fun run n fair free lock i w there found tries early => ?_⟩
  · have keeps := keeps_of_reaches reached
    exact ⟨keeps.sound, fun i c lock t found held taken => keeps.abandoned found held taken⟩
  · refine fair.eventually_taken_over free there found ⟨early, ?_⟩
    rw [tries]
    trivial

end Runs

section Runs

/-- The first caller crashes with the lock, and the second one finds it stale. -/
def crashedRun : List Event :=
  [.start, .start, .resume 0, .crash 0, .resume 1, .tick 6, .resume 1, .resume 1, .resume 1,
    .resume 1, .resume 1, .resume 1]

/-- Then the time goes on. -/
def crashed : Run 5 := (directoryLock 5).play fun n => crashedRun[n]?.getD (.tick 1)

theorem crashed_state (n : Nat) : crashed.state (n + 12) =
    ⟨⟨none, n + 6, 2⟩, [⟨0, .ended⟩, ⟨0, .ended⟩]⟩ := by
  induction n with
  | zero =>
    show crashed.state 12 = _
    decide +kernel
  | succ n ih =>
    have later : crashedRun[n + 12]? = none := List.getElem?_eq_none (Nat.le_add_left 12 n)
    have next : crashed.state (n + 12 + 1) = ((directoryLock 5).step (crashed.state (n + 12))
      (crashedRun[n + 12]?.getD (.tick 1))).getD (crashed.state (n + 12)) := rfl
    rw [ih, later] at next
    rw [Nat.add_right_comm, next]
    show (Processes.mk (Disk.mk none (n + 6 + 1) 2) [⟨0, .ended⟩, ⟨0, .ended⟩] : State) = _
    rw [Nat.add_right_comm]

theorem crashed_turns : ∀ m < 12, (crashed.state m).procs.length ≤ 2 ∧
    ∀ i < 2, ((crashed.state m).procs[i]?).all (fun c => c.lock.isSome || c.phase = .ended ||
      (List.range 12).any fun k => m ≤ k && crashed.label k = some (.resume i)) = true := by
  decide +kernel

theorem crashed_fair : Fair crashed 4 where
  time := fun t => ⟨t + 12, by simp [crashed_state]⟩
  turns := by
    intro m i c found free lives
    by_cases early : m < 12
    · obtain ⟨short, turns⟩ := crashed_turns m early
      have inside : i < 2 := lt_of_lt_of_le (List.getElem?_eq_some_iff.mp found).1 short
      have turn := turns i inside
      simp only [found, Option.all_some, free, lives, Option.isSome_none, decide_false,
        Bool.false_or, List.any_eq_true, Bool.and_eq_true, decide_eq_true_eq] at turn
      obtain ⟨k, _, late, told⟩ := turn
      exact ⟨k, late, told⟩
    · obtain ⟨k, rfl⟩ := Nat.exists_eq_add_of_le' (Nat.le_of_not_lt early)
      rw [crashed_state] at found
      rcases i with _ | _ | i <;> cases found <;> exact absurd rfl lives
  goesOn := by
    intro m i c late _ _
    have kind : crashedRun[m]?.getD (.tick 1) ≠ .fail i ∧
        crashedRun[m]?.getD (.tick 1) ≠ .crash i := by
      by_cases early : m < 12
      · interval_cases m <;> simp [crashedRun]
      · rw [List.getElem?_eq_none (Nat.le_of_not_lt early)]
        simp
    refine ⟨fun told => ?_, fun told => ?_⟩
    · obtain ⟨_, _, same⟩ := Option.map_eq_some_iff.mp told
      exact kind.1 same
    · obtain ⟨_, _, same⟩ := Option.map_eq_some_iff.mp told
      exact kind.2 same

theorem crashed_lock_taken_over : (∃ m, 4 ≤ m ∧ TakesOver crashed m) ∧
    ∃ s, (directoryLock 5).Reaches (fun s event => admits 5 s event = true) s ∧ Sound s ∧
      s.procs = [⟨0, .ended⟩, ⟨0, .holding ⟨1, 6⟩⟩] := by
  constructor
  · have free : Free (crashed.state 4) := by
      intro i c found
      rcases i with _ | _ | i <;> cases found <;> rfl
    exact (directory_lock_exclusive 5).2 crashed 4 crashed_fair free ⟨0, 0⟩ 1 ⟨0, .trying⟩ rfl rfl
      rfl (Nat.zero_le _)
  · obtain ⟨s, reached, procs⟩ := (directoryLock 5).exists_reaches_of_run (admits 5)
      (fun s => s.procs = [⟨0, .ended⟩, ⟨0, .holding ⟨1, 6⟩⟩]) (crashedRun.take 10)
      (by decide +kernel)
    exact ⟨s, reached, ((directory_lock_exclusive 5).1 s reached).1, procs⟩

/-- Two callers have found the same lock stale; the slower one removes the lock of the faster one,
which then removes the lock of the slower one. -/
def brokenRun : List Event :=
  [.start, .start, .start, .resume 0, .crash 0, .resume 1, .resume 2, .tick 6, .resume 1, .resume 2,
    .resume 1, .resume 2, .resume 1, .resume 1, .resume 2, .resume 2]

theorem directory_lock_broken : ∃ s t, (directoryLock 5).Reachable s ∧
    s.procs = [⟨0, .ended⟩, ⟨0, .holding ⟨1, 6⟩⟩, ⟨0, .holding ⟨2, 6⟩⟩] ∧
    s.shared.lockDir = some ⟨2, 6⟩ ∧
    (s.step 5 (.resume 1)).bind (fun s => s.step 5 (.resume 1)) = some t ∧
    t.shared.lockDir = none ∧ t.procs[2]? = some ⟨0, .holding ⟨2, 6⟩⟩ := by
  obtain ⟨s, reached, procs, there, after⟩ := (directoryLock 5).exists_reaches_of_run
    (fun _ _ => true) (fun s =>
      s.procs = [⟨0, .ended⟩, ⟨0, .holding ⟨1, 6⟩⟩, ⟨0, .holding ⟨2, 6⟩⟩] ∧
      s.shared.lockDir = some ⟨2, 6⟩ ∧
      ((s.step 5 (.resume 1)).bind (fun s => s.step 5 (.resume 1))).any (fun t =>
        t.shared.lockDir = none && t.procs[2]? = some ⟨0, .holding ⟨2, 6⟩⟩) = true) brokenRun
    (by decide +kernel)
  obtain ⟨t, taken, outcome⟩ := (Option.any_eq_true _ _).mp after
  obtain ⟨gone, holds⟩ := (Bool.and_eq_true _ _).mp outcome
  exact ⟨s, t, reached.reachable, procs, there, taken, of_decide_eq_true gone,
    of_decide_eq_true holds⟩

end Runs

end Takode.DirectoryLock
