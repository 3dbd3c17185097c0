import Mathlib.Order.Nat
import Takode.Coordinator.Lock

/-!
# No epoch is shared

As long as no rename falls between the read and the rename of a claim, each claim takes
the epoch after all earlier ones, and a start that looks at the file after the last
claim knows whether that claim was its own.
-/

namespace Takode.Coordinator

/-- The condition: a rename moves what the call itself has written, over an epoch that is still the
one it has read, or for `raiseCoordinatorEpoch` not above the one it writes. -/
def admits (s : State) : Event → Bool
  | .resume i => s.procs[i]?.all fun p =>
    match p.phase with
    | .written read mine => (s.shared.temps p.pid).all fun candidate =>
      candidate = mine &&
        match p.call with
        | .claim => s.shared.epoch = read
        | .raise _ => s.shared.epoch ≤ mine.epoch
    | _ => true
  | _ => true

namespace Process

/-- The epoch that the start has claimed. -/
def claimed (p : Process) : Option Nat :=
  match p.phase with
  | .running mine _ => some mine.epoch
  | _ => none

/-- What holds of a process in a run that meets the condition: what a call is about to write, and
what a start knows that has looked at the file since the last claim. -/
def Fair (dir : Directory) (p : Process) : Prop :=
  match p.phase with
  | .writing read mine | .written read mine =>
    match p.call with
    | .claim => mine.epoch = read + 1
    | .raise _ => True
  | .running mine polled =>
    mine.epoch ∈ dir.claims ∧ polled ≤ dir.claims.length ∧
      (polled = dir.claims.length → ∀ epoch ∈ dir.claims, epoch ≤ mine.epoch)
  | .reading | .ended => True

end Process

/-- What holds in every state of a run that meets the condition. -/
structure Keeps (s : State) : Prop where
  stored : ∀ epoch ∈ s.shared.claims, 0 < epoch ∧ epoch ≤ s.shared.epoch
  ordered : s.shared.claims.Pairwise (· < ·)
  fair : s.Each Process.Fair
  apart : s.Pairs fun p q => ∀ epoch, p.claimed = some epoch → q.claimed ≠ some epoch

namespace Keeps

variable {s t : State} (inv : Keeps s)
include inv

theorem spawn (pid : Nat) (call : Call) : Keeps (s.spawn ⟨pid, call, .reading⟩) where
  stored := inv.stored
  ordered := inv.ordered
  fair := inv.fair.spawn trivial
  apart := inv.apart.spawn fun _ => ⟨by simp [Process.claimed], by simp [Process.claimed]⟩

/-- A process goes on, and neither the file nor the claims change. -/
theorem become {i : Nat} {p p' : Process} {dir : Directory} (found : s.procs[i]? = some p)
    (file : dir.file = s.shared.file) (claims : dir.claims = s.shared.claims)
    (fair : p'.Fair s.shared) (claimed : ∀ epoch, p'.claimed = some epoch → p.claimed = some epoch) :
    Keeps ⟨dir, s.procs.set i p'⟩ where
  stored := by
    show ∀ epoch ∈ dir.claims, 0 < epoch ∧ epoch ≤ dir.file.elim 0 (·.epoch)
    rw [claims, file]
    exact inv.stored
  ordered := by
    show dir.claims.Pairwise _
    rw [claims]
    exact inv.ordered
  fair := by
    have same : ∀ q : Process, q.Fair s.shared → q.Fair dir := by
      intro q
      simp only [Process.Fair, claims]
      exact id
    exact inv.fair.step found (same p' fair) fun _ q _ _ => same q
  apart := by
    refine inv.apart.step found fun j q other here => ⟨fun epoch mine => ?_, fun epoch theirs => ?_⟩
    · exact inv.apart i j p q (Ne.symm other) found here epoch (claimed epoch mine)
    · exact fun mine => inv.apart j i q p other here found epoch theirs (claimed epoch mine)

/-- A claim takes the epoch after the one in the file. -/
theorem claim {i : Nat} {p : Process} {mine : CoordinatorHolder} (found : s.procs[i]? = some p)
    (next : mine.epoch = s.shared.epoch + 1) (temps : Nat → Option CoordinatorHolder) :
    Keeps ⟨⟨some mine, temps, s.shared.claims ++ [mine.epoch]⟩,
      s.procs.set i (p.become (.running mine 0))⟩ where
  stored := by
    intro epoch listed
    show 0 < epoch ∧ epoch ≤ mine.epoch
    rcases List.mem_append.mp listed with old | is_new
    · obtain ⟨positive, bound⟩ := inv.stored epoch old
      exact ⟨positive, next ▸ Nat.le_succ_of_le bound⟩
    · obtain rfl := List.mem_singleton.mp is_new
      exact ⟨next ▸ Nat.succ_pos _, le_rfl⟩
  ordered := by
    refine List.pairwise_append.mpr ⟨inv.ordered, List.pairwise_singleton _ _, ?_⟩
    intro epoch old epoch' is_new
    rw [List.mem_singleton.mp is_new, next]
    exact Nat.lt_succ_of_le (inv.stored epoch old).2
  fair := by
    refine inv.fair.step found ?_ ?_
    · refine ⟨List.mem_append_right _ (List.mem_singleton_self _), Nat.zero_le _, fun none_made => ?_⟩
      simp at none_made
    · intro j q _ _ fair
      obtain ⟨pid, call, phase⟩ := q
      cases phase with
      | running theirs polled =>
        obtain ⟨listed, bound, _⟩ := fair
        have older : polled < (s.shared.claims ++ [mine.epoch]).length := by
          simpa using Nat.lt_succ_of_le bound
        exact ⟨List.mem_append_left _ listed, le_of_lt older, fun recent => absurd recent older.ne⟩
      | reading | ended => trivial
      | writing | written => exact fair
  apart := by
    refine inv.apart.step found fun j q other here => ?_
    have older : ∀ epoch, q.claimed = some epoch → epoch < mine.epoch := by
      intro epoch theirs
      have listed : epoch ∈ s.shared.claims := by
        have fair := inv.fair j q here
        obtain ⟨pid, call, phase⟩ := q
        cases phase with
        | running holder polled =>
          obtain rfl := Option.some.inj theirs
          exact fair.1
        | reading | ended | writing | written => cases theirs
      rw [next]
      exact Nat.lt_succ_of_le (inv.stored epoch listed).2
    refine ⟨fun epoch new theirs => ?_, fun epoch theirs new => ?_⟩
    · obtain rfl := Option.some.inj new
      exact absurd (older _ theirs) (lt_irrefl _)
    · obtain rfl := Option.some.inj new
      exact absurd (older _ theirs) (lt_irrefl _)

/-- The epoch in the file is raised. -/
theorem raise {i : Nat} {p : Process} {mine : CoordinatorHolder} (found : s.procs[i]? = some p)
    (higher : s.shared.epoch ≤ mine.epoch) (temps : Nat → Option CoordinatorHolder) :
    Keeps ⟨⟨some mine, temps, s.shared.claims⟩, s.procs.set i (p.become .ended)⟩ where
  stored := fun epoch listed => (inv.stored epoch listed).imp_right fun bound => bound.trans higher
  ordered := inv.ordered
  fair := inv.fair.step found trivial fun _ _ _ _ => id
  apart := by
    refine inv.apart.step found fun _ _ _ _ => ⟨fun _ none => ?_, fun _ _ none => ?_⟩
    · cases none
    · cases none

theorem resume {i : Nat} (admitted : admits s (.resume i) = true)
    (taken : s.stepAt i (fun dir p => p.resume dir) = some t) :
    Keeps t ∧ s.shared.epoch ≤ t.shared.epoch := by
  obtain ⟨p, dir, p', found, became, rfl⟩ := Processes.stepAt_eq_some.mp taken
  simp only [admits, found, Option.all_some] at admitted
  have fair := inv.fair i p found
  obtain ⟨pid, call, phase⟩ := p
  cases phase with
  | reading =>
    cases call with
    | claim =>
      cases became
      exact ⟨inv.become found rfl rfl rfl fun _ none => (by cases none), le_rfl⟩
    | raise epoch =>
      simp only [Process.resume] at became
      split at became
      · cases became
        exact ⟨inv.become found rfl rfl trivial fun _ none => (by cases none), le_rfl⟩
      · cases became
        exact ⟨inv.become found rfl rfl trivial fun _ none => (by cases none), le_rfl⟩
  | writing read mine =>
    cases became
    exact ⟨inv.become found rfl rfl fair fun _ none => (by cases none), le_rfl⟩
  | written read mine =>
    simp only [Process.resume] at became
    cases candidate : s.shared.temps pid with
    | none =>
      rw [candidate] at became
      cases became
      exact ⟨inv.become found rfl rfl trivial fun _ none => (by cases none), le_rfl⟩
    | some holder =>
      simp only [candidate, Option.all_some, Bool.and_eq_true, decide_eq_true_eq] at admitted
      obtain ⟨rfl, unchanged⟩ := admitted
      rw [candidate] at became
      cases call with
      | claim =>
        have next : holder.epoch = s.shared.epoch + 1 := by
          rw [of_decide_eq_true unchanged]
          exact fair
        cases became
        refine ⟨inv.claim found next _, ?_⟩
        show s.shared.epoch ≤ holder.epoch
        exact next ▸ Nat.le_succ _
      | raise epoch =>
        cases became
        exact ⟨inv.raise found (of_decide_eq_true unchanged) _, of_decide_eq_true unchanged⟩
  | running | ended => cases became

theorem poll {i : Nat} (taken : s.stepAt i (fun dir p => p.poll dir) = some t) :
    Keeps t ∧ s.shared.epoch ≤ t.shared.epoch := by
  obtain ⟨p, dir, p', found, became, rfl⟩ := Processes.stepAt_eq_some.mp taken
  have fair := inv.fair i p found
  obtain ⟨pid, call, phase⟩ := p
  cases phase with
  | running mine polled =>
    have bound := inv.stored mine.epoch fair.1
    simp only [Process.poll] at became
    cases file : s.shared.file with
    | none =>
      rw [Directory.epoch, file] at bound
      exact absurd bound.2 (not_le_of_gt bound.1)
    | some holder =>
      simp only [file] at became
      split at became
      · rename_i same
        cases became
        refine ⟨inv.become found rfl rfl ⟨fair.1, le_rfl, fun _ epoch listed => ?_⟩
          fun _ same => same, le_rfl⟩
        have stored := (inv.stored epoch listed).2
        rw [Directory.epoch, file] at stored
        exact stored.trans same.1.le
      · cases became
        exact ⟨inv.become found rfl rfl trivial fun _ none => (by cases none), le_rfl⟩
  | reading | writing | written | ended => cases became

theorem stop {i : Nat}
    (taken : s.stepAt i (fun dir p => some (dir, p.become .ended)) = some t) :
    Keeps t ∧ s.shared.epoch ≤ t.shared.epoch := by
  obtain ⟨p, dir, p', found, became, rfl⟩ := Processes.stepAt_eq_some.mp taken
  cases became
  exact ⟨inv.become found rfl rfl trivial fun _ none => (by cases none), le_rfl⟩

theorem step {event : Event} (admitted : admits s event = true) (taken : s.step event = some t) :
    Keeps t ∧ s.shared.epoch ≤ t.shared.epoch := by
  cases event with
  | start pid =>
    cases taken
    exact ⟨inv.spawn pid .claim, le_rfl⟩
  | raise pid epoch =>
    cases taken
    exact ⟨inv.spawn pid (.raise epoch), le_rfl⟩
  | resume i => exact inv.resume admitted taken
  | poll i => exact inv.poll taken
  | stop i => exact inv.stop taken

end Keeps

/-- Of any two claims, the later one has the larger epoch; and of the starts that run, at most one
is left once each has looked at the file since the last claim. -/
structure Sound (s : State) : Prop where
  ordered : s.shared.claims.Pairwise (· < ·)
  claimed : ∀ (i : Nat) (p : Process) (epoch : Nat), s.procs[i]? = some p →
    p.claimed = some epoch → epoch ∈ s.shared.claims
  distinct : ∀ (i j : Nat) (p q : Process) (epoch : Nat), s.procs[i]? = some p →
    s.procs[j]? = some q → p.claimed = some epoch → q.claimed = some epoch → i = j
  single : (∀ (i : Nat) (pid : Nat) (call : Call) (mine : CoordinatorHolder) (polled : Nat),
      s.procs[i]? = some ⟨pid, call, .running mine polled⟩ → polled = s.shared.claims.length) →
    ∀ (i j : Nat) (p q : Process), s.procs[i]? = some p → s.procs[j]? = some q →
      p.claimed.isSome = true → q.claimed.isSome = true → i = j

theorem Keeps.sound {s : State} (inv : Keeps s) : Sound s := by
  have distinct : ∀ (i j : Nat) (p q : Process) (epoch : Nat), s.procs[i]? = some p →
      s.procs[j]? = some q → p.claimed = some epoch → q.claimed = some epoch → i = j := by
    intro i j p q epoch first second mine theirs
    by_contra different
    exact inv.apart i j p q different first second epoch mine theirs
  refine ⟨inv.ordered, ?_, distinct, ?_⟩
  · intro i p epoch found mine
    have fair := inv.fair i p found
    obtain ⟨pid, call, phase⟩ := p
    cases phase with
    | running holder polled =>
      obtain rfl := Option.some.inj mine
      exact fair.1
    | reading | writing | written | ended => cases mine
  · intro polled i j p q first second mine theirs
    have last : ∀ (k : Nat) (r : Process), s.procs[k]? = some r → r.claimed.isSome = true →
        ∃ epoch, r.claimed = some epoch ∧ epoch ∈ s.shared.claims ∧
          ∀ epoch' ∈ s.shared.claims, epoch' ≤ epoch := by
      intro k r here runs
      have fair := inv.fair k r here
      obtain ⟨pid, call, phase⟩ := r
      cases phase with
      | running holder count =>
        exact ⟨holder.epoch, rfl, fair.1, fair.2.2 (polled k pid call holder count here)⟩
      | reading | writing | written | ended => cases runs
    obtain ⟨epoch, claimed, listed, above⟩ := last i p first mine
    obtain ⟨epoch', claimed', listed', above'⟩ := last j q second theirs
    obtain rfl : epoch = epoch' := le_antisymm (above' epoch listed) (above epoch' listed')
    exact distinct i j p q epoch first second claimed claimed'

/-- In every run whose steps meet the condition. -/
theorem epochs_unshared (s : State)
    (reached : coordinators.Reaches (fun s event => admits s event = true) s) :
    Sound s ∧ ∀ (event : Event) (t : State), admits s event = true → s.step event = some t →
      s.shared.epoch ≤ t.shared.epoch := by
  suffices Keeps s from ⟨this.sound, fun event t admitted taken => (this.step admitted taken).2⟩
  induction reached with
  | start =>
    refine ⟨fun _ none => ?_, .nil, fun i p here => ?_, fun i j p q _ here => ?_⟩
    · cases none
    · cases here
    · cases here
  | step _ admitted taken inv => exact (inv.step admitted taken).1

section Runs

/-- A start, a raised epoch and another start, which the first one finds in the file. -/
def plainRun : List Event :=
  [.start 7, .resume 0, .resume 0, .resume 0, .poll 0, .raise 8 5, .resume 1, .resume 1, .resume 1,
    .start 9, .resume 2, .resume 2, .resume 2, .poll 2, .poll 0]

theorem plain_epochs_unshared : ∃ s,
    coordinators.Reaches (fun s event => admits s event = true) s ∧ Sound s ∧
      s.shared.claims = [1, 6] ∧ s.procs.map (·.claimed) = [none, none, some 6] := by
  obtain ⟨s, reached, claims, procs⟩ := coordinators.exists_reaches_of_run admits
    (fun s => s.shared.claims = [1, 6] ∧ s.procs.map (·.claimed) = [none, none, some 6]) plainRun
    (by decide +kernel)
  exact ⟨s, reached, (epochs_unshared s reached).1, claims, procs⟩

/-- Two starts read the file before either has renamed its candidate. -/
def sharedRun : List Event :=
  [.start 7, .start 9, .resume 0, .resume 1, .resume 0, .resume 0, .resume 1, .resume 1]

/-- A start reads the file, and renames its candidate after two others have started. -/
def loweredRun : List Event :=
  [.start 7, .resume 0, .resume 0, .start 8, .resume 1, .resume 1, .resume 1, .start 9, .resume 2,
    .resume 2, .resume 2, .resume 0, .start 10, .resume 3, .resume 3, .resume 3]

/-- Two starts whose processes have the same id on two machines. -/
def sameProcessRun : List Event :=
  [.start 7, .start 7, .resume 0, .resume 1, .resume 0, .resume 0, .resume 1, .resume 1, .poll 0,
    .poll 1]

theorem epochs_shared :
    (∃ s, coordinators.Reachable s ∧ s.procs.map (·.claimed) = [some 1, some 1]) ∧
    (∃ s t, coordinators.Reachable s ∧ s.step (.resume 0) = some t ∧ s.shared.epoch = 2 ∧
      t.shared.epoch = 1) ∧
    (∃ s, coordinators.Reachable s ∧ s.shared.claims = [1, 2, 1, 2]) ∧
    ∃ s, coordinators.Reachable s ∧ s.shared.claims.length = 2 ∧
      s.procs = [⟨7, .claim, .running ⟨1, 7⟩ 2⟩, ⟨7, .claim, .running ⟨1, 7⟩ 2⟩] := by
  refine ⟨?_, ?_, ?_, ?_⟩
  · obtain ⟨s, reached, shared⟩ := coordinators.exists_reaches_of_run (fun _ _ => true)
      (fun s => s.procs.map (·.claimed) = [some 1, some 1]) sharedRun (by decide +kernel)
    exact ⟨s, reached.reachable, shared⟩
  · obtain ⟨s, reached, before, after⟩ := coordinators.exists_reaches_of_run (fun _ _ => true)
      (fun s => s.shared.epoch = 2 ∧
        ((s.step (.resume 0)).any fun t => decide (t.shared.epoch = 1)) = true)
      (loweredRun.take 11) (by decide +kernel)
    obtain ⟨t, taken, lowered⟩ := (Option.any_eq_true _ _).mp after
    exact ⟨s, t, reached.reachable, taken, before, of_decide_eq_true lowered⟩
  · obtain ⟨s, reached, claims⟩ := coordinators.exists_reaches_of_run (fun _ _ => true)
      (fun s => s.shared.claims = [1, 2, 1, 2]) loweredRun (by decide +kernel)
    exact ⟨s, reached.reachable, claims⟩
  · obtain ⟨s, reached, both⟩ := coordinators.exists_reaches_of_run (fun _ _ => true)
      (fun s => s.shared.claims.length = 2 ∧
        s.procs = [⟨7, .claim, .running ⟨1, 7⟩ 2⟩, ⟨7, .claim, .running ⟨1, 7⟩ 2⟩])
      sameProcessRun (by decide +kernel)
    exact ⟨s, reached.reachable, both⟩

end Runs

end Takode.Coordinator
