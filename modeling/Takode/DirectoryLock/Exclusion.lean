import Mathlib.Order.Nat
import Takode.DirectoryLock.Callers

/-!
# One caller holds the directory lock

A caller that runs its operation holds the directory that is there, and not for longer
than the stale time; a lock that has been judged stale stays so. So the removal of a
stale lock hurts nobody, as long as it removes the lock that was judged.
-/

namespace Takode.DirectoryLock

variable {staleMs : Nat}

/-- The condition: what is removed as stale is the directory that was judged, or nothing. The second
part is the assumption on the holders: none keeps the lock for longer than the stale time. -/
def admits (staleMs : Nat) (s : State) : Event → Bool
  | .resume i => s.procs[i]?.all fun c =>
    match c.phase with
    | .removing stale => s.shared.lockDir.all fun lock => lock = stale
    | _ => true
  | .tick ms => s.procs.all fun c => c.lock.all fun lock =>
    s.shared.now + ms - lock.mtimeMs ≤ staleMs
  | _ => true

namespace Caller

/-- What holds of a caller in a run that meets the condition. -/
structure Fair (staleMs : Nat) (disk : Disk) (c : Caller) : Prop where
  holds : ∀ lock, c.lock = some lock →
    disk.lockDir = some lock ∧ disk.now - lock.mtimeMs ≤ staleMs
  stale : ∀ lock, c.phase = .removing lock → staleMs < disk.now - lock.mtimeMs

/-- It has no lock and removes none: nothing is known of it. -/
theorem Fair.idle {disk : Disk} {c : Caller} (free : c.lock = none)
    (keeps : ∀ lock, c.phase ≠ .removing lock) : c.Fair staleMs disk where
  holds := fun lock held => by cases free.symm.trans held
  stale := fun lock removes => absurd removes (keeps lock)

theorem Fair.retry (c : Caller) (now : Nat) (disk : Disk) :
    (c.retry staleMs now).lock = none ∧ (c.retry staleMs now).Fair staleMs disk := by
  unfold Caller.retry
  split
  · exact ⟨rfl, .idle rfl fun _ same => by cases same⟩
  · exact ⟨rfl, .idle rfl fun _ same => by cases same⟩

/-- The directory of another one is removed, or created. -/
theorem Fair.other {disk disk' : Disk} {c : Caller} (fair : c.Fair staleMs disk)
    (free : c.lock = none) (now : disk'.now = disk.now) : c.Fair staleMs disk' where
  holds := fun lock held => by cases free.symm.trans held
  stale := fun lock removes => now ▸ fair.stale lock removes

end Caller

/-- What holds in every state of a run that meets the condition. -/
structure Keeps (staleMs : Nat) (s : State) : Prop where
  older : ∀ lock, s.shared.lockDir = some lock → lock.id < s.shared.made
  fair : s.Each (Caller.Fair staleMs)
  apart : s.Pairs fun p q => p.lock.isSome = true → q.lock = none

namespace Keeps

variable {s t : State} {i : Nat} {c c' : Caller} (inv : Keeps staleMs s)
include inv

theorem become (found : s.procs[i]? = some c) (fair : c'.Fair staleMs s.shared)
    (free : c.lock = none → c'.lock = none) : Keeps staleMs ⟨s.shared, s.procs.set i c'⟩ where
  older := inv.older
  fair := inv.fair.step found fair fun _ _ _ _ => id
  apart := by
    refine inv.apart.step found fun j q other here => ⟨fun mine => ?_, fun theirs => ?_⟩
    · refine inv.apart i j c q (Ne.symm other) found here ?_
      by_contra none
      simp [free (by simpa using none)] at mine
    · exact free (inv.apart j i q c other here found theirs)

theorem create (found : s.procs[i]? = some c) (absent : s.shared.lockDir = none) :
    Keeps staleMs ⟨⟨some ⟨s.shared.made, s.shared.now⟩, s.shared.now, s.shared.made + 1⟩,
      s.procs.set i (c.become (.holding ⟨s.shared.made, s.shared.now⟩))⟩ := by
  have free (j : Nat) (q : Caller) (here : s.procs[j]? = some q) : q.lock = none := by
    cases held : q.lock with
    | none => rfl
    | some lock => cases absent.symm.trans ((inv.fair j q here).holds lock held).1
  refine ⟨?_, inv.fair.step found ⟨?_, ?_⟩ ?_, inv.apart.step found ?_⟩
  · rintro _ ⟨⟩
    exact Nat.lt_succ_self _
  · rintro _ ⟨⟩
    refine ⟨rfl, ?_⟩
    show s.shared.now - s.shared.now ≤ staleMs
    rw [Nat.sub_self]
    exact Nat.zero_le _
  · intro lock removes
    cases removes
  · exact fun j q _ here fair => fair.other (free j q here) rfl
  · exact fun j q _ here => ⟨fun _ => free j q here, fun theirs => by simp [free j q here] at theirs⟩

theorem remove (found : s.procs[i]? = some c) (idle : c'.lock = none)
    (keeps : ∀ lock, c'.phase ≠ .removing lock)
    (free : ∀ j q, j ≠ i → s.procs[j]? = some q → q.lock = none) :
    Keeps staleMs ⟨{ s.shared with lockDir := none }, s.procs.set i c'⟩ where
  older := fun _ there => by cases there
  fair := inv.fair.step found (.idle idle keeps) fun j q other here fair =>
    fair.other (free j q other here) rfl
  apart := inv.apart.step found fun j q other here =>
    ⟨fun mine => by simp [idle] at mine, fun _ => idle⟩

theorem resume (admitted : admits staleMs s (.resume i) = true)
    (taken : s.stepAt i (fun disk c => c.resume staleMs disk) = some t) : Keeps staleMs t := by
  obtain ⟨c, disk, c', found, became, rfl⟩ := Processes.stepAt_eq_some.mp taken
  simp only [admits, found, Option.all_some] at admitted
  have fair := inv.fair i c found
  obtain ⟨startedAt, phase⟩ := c
  cases phase with
  | trying =>
    simp only [Caller.resume] at became
    split at became
    · cases became
      exact inv.create found ‹_›
    · cases became
      exact inv.become found (.idle rfl fun _ same => by cases same) fun _ => rfl
  | checking =>
    cases became
    exact inv.become found (.idle rfl fun _ same => by cases same) fun _ => rfl
  | judging stat =>
    have again : Keeps staleMs ⟨s.shared, s.procs.set i
        (Caller.retry ⟨startedAt, .judging stat⟩ staleMs s.shared.now)⟩ :=
      have retried := Caller.Fair.retry ⟨startedAt, .judging stat⟩ s.shared.now s.shared
      inv.become found retried.2 fun _ => retried.1
    simp only [Caller.resume] at became
    split at became
    · split at became
      · rename_i lock old
        cases became
        refine inv.become found ⟨fun _ none => (by cases none), ?_⟩ fun _ => rfl
        rintro _ ⟨⟩
        simpa [Caller.isStale] using old
      · cases became
        exact again
    · cases became
      exact again
  | removing stale =>
    cases became
    refine inv.remove found rfl (fun _ same => by cases same) fun j q _ here => ?_
    cases held : q.lock with
    | none => rfl
    | some lock =>
      obtain ⟨there, recent⟩ := (inv.fair j q here).holds lock held
      obtain rfl : lock = stale := by simpa [there] using admitted
      exact absurd recent (not_le_of_gt (fair.stale lock rfl))
  | waiting time =>
    simp only [Caller.resume] at became
    split at became
    · cases became
      exact inv.become found (.idle rfl fun _ same => by cases same) fun _ => rfl
    · cases became
  | holding lock =>
    cases became
    exact inv.become found ⟨fair.holds, fun _ same => by cases same⟩ fun none => by cases none
  | releasing lock =>
    cases became
    exact inv.remove found rfl (fun _ same => by cases same) fun j q other here =>
      inv.apart i j _ q (Ne.symm other) found here rfl
  | ended => cases became

theorem fail (taken : s.stepAt i (fun disk c => c.fail disk) = some t) : Keeps staleMs t := by
  obtain ⟨c, disk, c', found, became, rfl⟩ := Processes.stepAt_eq_some.mp taken
  obtain ⟨startedAt, phase⟩ := c
  cases phase with
  | trying | releasing | checking | removing =>
    cases became
    exact inv.become found (.idle rfl fun _ same => by cases same) fun _ => rfl
  | judging | waiting | holding | ended => cases became

theorem crash (taken : s.stepAt i (fun disk c => some (disk, c.become .ended)) = some t) :
    Keeps staleMs t := by
  obtain ⟨c, disk, c', found, became, rfl⟩ := Processes.stepAt_eq_some.mp taken
  cases became
  exact inv.become found (.idle rfl fun _ same => by cases same) fun _ => rfl

/-- Time passes, and no holder has the lock for longer than the stale time. -/
theorem tick {ms : Nat} (admitted : admits staleMs s (.tick ms) = true) :
    Keeps staleMs { s with shared := { s.shared with now := s.shared.now + ms } } where
  older := inv.older
  fair := by
    intro j q here
    have fair := inv.fair j q here
    refine ⟨fun lock held => ⟨(fair.holds lock held).1, ?_⟩, fun lock removes => ?_⟩
    · have within := List.all_eq_true.mp admitted q (List.mem_of_getElem? here)
      simpa [held] using within
    · exact lt_of_lt_of_le (fair.stale lock removes) (Nat.sub_le_sub_right (Nat.le_add_right _ _) _)
  apart := inv.apart

theorem step {event : Event} (admitted : admits staleMs s event = true)
    (taken : s.step staleMs event = some t) : Keeps staleMs t := by
  cases event with
  | start =>
    cases taken
    refine ⟨inv.older, inv.fair.spawn (.idle rfl fun _ same => by cases same), inv.apart.spawn ?_⟩
    exact fun q => ⟨fun none => (by cases none), fun _ => rfl⟩
  | resume i => exact inv.resume admitted taken
  | fail i => exact inv.fail taken
  | crash i => exact inv.crash taken
  | tick ms =>
    cases taken
    exact inv.tick admitted

end Keeps

theorem keeps_of_reaches {s : State}
    (reached : (directoryLock staleMs).Reaches (fun s event => admits staleMs s event = true) s) :
    Keeps staleMs s := by
  induction reached with
  | start =>
    refine ⟨fun _ none => ?_, fun i c here => ?_, fun i j p q _ here => ?_⟩
    · cases none
    · cases here
    · cases here
  | step _ admitted taken inv => exact inv.step admitted taken

/-- No two callers run their operation at the same time, and a caller that releases the lock removes
the directory that it has created. -/
structure Sound (s : State) : Prop where
  exclusive : ∀ (i j : Nat) (p q : Caller), s.procs[i]? = some p → s.procs[j]? = some q →
    p.lock.isSome = true → q.lock.isSome = true → i = j
  own : ∀ (i : Nat) (c : Caller) (lock : LockDir), s.procs[i]? = some c → c.lock = some lock →
    s.shared.lockDir = some lock

theorem Keeps.sound {s : State} (inv : Keeps staleMs s) : Sound s where
  exclusive := by
    intro i j p q first second mine theirs
    by_contra different
    simp [inv.apart i j p q different first second mine] at theirs
  own := fun i c lock found held => ((inv.fair i c found).holds lock held).1

end Takode.DirectoryLock
