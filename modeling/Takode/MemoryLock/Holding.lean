import Takode.MemoryLock.Calls

/-!
# The memory lock has one holder

An empty lock directory reads as unlocked, and what a take-over or a release removes may
not be what it has found. Where a removal hits only a lock of the own session, and
nobody comes in between the two halves of a take-over, the lock has one holder.
-/

namespace Takode.MemoryLock

variable {SERVER_RUN : String}

/-- The directory names its owner. -/
def Disk.ownedBy (disk : Disk) (holder : Holder) : Bool :=
  disk.all fun dir => dir.info.any fun file => file.session = holder

/-- The condition: an `rm` finds no lock or one that names its own session, no `mkdir` comes in
between the `rm` and the `mkdir` of another session, and no session asserts its lock while an
acquire of its own renews it. -/
def admits (s : State) : Event → Bool
  | .resume i => s.procs[i]?.all fun c =>
    match c.phase with
    | .removing => s.shared.ownedBy c.holder
    | .making | .remaking => s.shared.isSome ||
      s.procs.all fun q => q.phase ≠ .remaking || q.holder = c.holder
    | _ => true
  | .rm i => s.procs[i]?.all fun c => s.shared.ownedBy c.holder
  | .assertHolder holder => s.procs.all fun c =>
    c.holder ≠ holder || (c.phase ≠ .remaking && c.phase ≠ .writing)
  | _ => true

/-- What holds of each call in a run that meets the condition. -/
structure Call.Fair (disk : Disk) (c : Call) : Prop where
  writes : c.phase = .writing → disk = some {}
  late : c.past = true → c.phase = .confirming ∨ ∃ info, c.phase = .acquired info
  named : c.holds = true → ∀ file, disk = some ⟨some file⟩ → file.session = c.holder

theorem Call.Fair.holds {disk : Disk} {c : Call} (fair : c.Fair disk) (writes : c.phase = .writing) :
    c.holds = true := by
  cases past : c.past with
  | false => simp [Call.holds, Call.taken, writes, past]
  | true =>
    rcases fair.late past with same | ⟨info, same⟩
    · cases writes.symm.trans same
    · cases writes.symm.trans same

/-- A call that has not made the lock. -/
theorem Call.Fair.idle {disk : Disk} {c : Call} (free : c.taken = false) (past : c.past = false) :
    c.Fair disk where
  writes := fun writes => by simp [Call.taken, writes] at free
  late := fun late => by cases past.symm.trans late
  named := fun holds => by simp [Call.holds, free] at holds

/-- What has not been taken has not been released. -/
theorem Call.Fair.early {disk : Disk} {c : Call} (fair : c.Fair disk) (free : c.taken = false) :
    c.past = false := by
  by_contra past
  rcases fair.late (by simpa using past) with same | ⟨info, same⟩
  · simp [Call.taken, same] at free
  · simp [Call.taken, same] at free

namespace Call

variable {c : Call} {holder : Holder}

@[simp] theorem release_phase (c : Call) (holder : Holder) : (c.release holder).phase = c.phase := by
  unfold Call.release
  split <;> rfl

@[simp] theorem release_holder (c : Call) (holder : Holder) :
    (c.release holder).holder = c.holder := by
  unfold Call.release
  split <;> rfl

theorem holds_of_release (holds : (c.release holder).holds = true) :
    c.holds = true ∧ c.holder ≠ holder := by
  unfold Call.release at holds
  split at holds
  · simp [Call.holds] at holds
  · rename_i kept
    refine ⟨holds, fun same => kept ?_⟩
    simp only [Call.holds, Bool.and_eq_true] at holds
    simp [same, holds.1]

theorem Fair.late_of_release {disk : Disk} (fair : c.Fair disk) (idle : c.phase ≠ .writing)
    (past : (c.release holder).past = true) :
    c.phase = .confirming ∨ ∃ info, c.phase = .acquired info := by
  unfold Call.release at past
  split at past
  · rename_i released
    have taken := (Bool.and_eq_true _ _).mp released |>.2
    unfold Call.taken at taken
    split at taken
    · exact absurd ‹_› idle
    · exact .inl ‹_›
    · exact .inr ⟨_, ‹_›⟩
    · cases taken
  · exact fair.late past

end Call

/-- What holds between each two calls. -/
structure Call.Apart (p q : Call) : Prop where
  same : p.holds = true → q.holds = true → p.holder = q.holder
  single : p.phase = .writing → q.phase ≠ .writing

/-- What holds in every state of a run that meets the condition. -/
structure Keeps (s : State) : Prop where
  fair : s.Each Call.Fair
  apart : s.Pairs Call.Apart
  absent : s.shared = none → ∀ (i : Nat) (c : Call), s.procs[i]? = some c → c.holds = true →
    ∃ (j : Nat) (q : Call), s.procs[j]? = some q ∧ q.phase = .remaking ∧ q.holder = c.holder
  bare : s.shared = some {} → ∃ (i : Nat) (c : Call), s.procs[i]? = some c ∧ c.phase = .writing

/-- Another session than the one that has the lock is rejected, and its own is accepted unless it is
renewing the lock. -/
structure Sound (s : State) : Prop where
  exclusive : ∀ (i j : Nat) (p q : Call), s.procs[i]? = some p → s.procs[j]? = some q →
    p.holds = true → q.holds = true → p.holder = q.holder
  accepts : ∀ (i : Nat) (c : Call), s.procs[i]? = some c → c.holds = true →
    admits s (.assertHolder c.holder) = true → assertMemoryLockHolder s.shared c.holder = .ok ()
  rejects : ∀ (i : Nat) (c : Call), s.procs[i]? = some c → c.holds = true →
    ∀ holder, holder ≠ c.holder → assertMemoryLockHolder s.shared holder ≠ .ok ()

theorem assertMemoryLockHolder_eq_ok {disk : Disk} {holder : Holder} :
    assertMemoryLockHolder disk holder = .ok () ↔
      ∃ file, disk = some ⟨some file⟩ ∧ file.session = holder := by
  rcases disk with _ | ⟨_ | file⟩
  · simp [assertMemoryLockHolder, readLockInfo]
  · simp [assertMemoryLockHolder, readLockInfo]
  · by_cases same : file.session = holder <;> simp [assertMemoryLockHolder, readLockInfo, same]

theorem Keeps.sound {s : State} (inv : Keeps s) : Sound s where
  exclusive := by
    intro i j p q first second mine theirs
    by_cases same : i = j
    · subst same
      rw [Option.some.inj (first.symm.trans second)]
    · exact (inv.apart i j p q same first second).same mine theirs
  accepts := by
    intro i c found holds admitted
    have calm := List.all_eq_true.mp admitted
    rw [assertMemoryLockHolder_eq_ok]
    rcases there : s.shared with _ | ⟨_ | file⟩
    · obtain ⟨j, q, here, renews, same⟩ := inv.absent there i c found holds
      simpa [same, renews] using calm q (List.mem_of_getElem? here)
    · obtain ⟨j, w, here, writes⟩ := inv.bare there
      have same : w.holder = c.holder := by
        by_cases mine : j = i
        · subst mine
          rw [Option.some.inj (here.symm.trans found)]
        · exact (inv.apart j i w c mine here found).same ((inv.fair j w here).holds writes) holds
      simpa [same, writes] using calm w (List.mem_of_getElem? here)
    · exact ⟨file, rfl, (inv.fair i c found).named holds file there⟩
  rejects := by
    intro i c found holds holder other accepted
    obtain ⟨file, there, rfl⟩ := assertMemoryLockHolder_eq_ok.mp accepted
    exact other ((inv.fair i c found).named holds file there)

theorem Disk.ownedBy_cases {disk : Disk} {holder : Holder} (owned : disk.ownedBy holder = true) :
    disk = none ∨ ∃ file, disk = some ⟨some file⟩ ∧ file.session = holder := by
  rcases disk with _ | ⟨_ | file⟩
  · exact .inl rfl
  · cases owned
  · exact .inr ⟨file, rfl, of_decide_eq_true owned⟩

namespace Keeps

variable {s t : State} {i : Nat} {c c' : Call} (inv : Keeps s)
include inv

/-- A call goes on that neither makes nor writes the lock. -/
theorem become (found : s.procs[i]? = some c) (fair : c'.Fair s.shared)
    (free : c'.holds = true → c.holds = true) (same : c'.holder = c.holder)
    (before : c.phase ≠ .writing) (after : c'.phase ≠ .writing)
    (renews : s.shared = none → c.phase ≠ .remaking) : Keeps ⟨s.shared, s.procs.set i c'⟩ where
  fair := inv.fair.step found fair fun _ _ _ _ => id
  apart := by
    refine inv.apart.step found fun j q other here => ?_
    have one := inv.apart i j c q (Ne.symm other) found here
    have two := inv.apart j i q c other here found
    refine ⟨⟨fun mine theirs => ?_, fun writes => absurd writes after⟩,
      ⟨fun theirs mine => ?_, fun _ => after⟩⟩
    · exact same.trans (one.same (free mine) theirs)
    · exact (two.same theirs (free mine)).trans same.symm
  absent := by
    intro none j q here holds
    have kept {k : Nat} {r : Call} (there : s.procs[k]? = some r) (renewing : r.phase = .remaking) :
        (s.procs.set i c')[k]? = some r := by
      refine (Processes.getElem?_set_eq_some found).mpr (.inr ⟨fun mine => ?_, there⟩)
      subst mine
      obtain rfl := Option.some.inj (there.symm.trans found)
      exact renews none renewing
    rcases (Processes.getElem?_set_eq_some found).mp here with ⟨rfl, rfl⟩ | ⟨_, was⟩
    · obtain ⟨k, r, there, renewing, owner⟩ := inv.absent none j c found (free holds)
      exact ⟨k, r, kept there renewing, renewing, owner.trans same.symm⟩
    · obtain ⟨k, r, there, renewing, owner⟩ := inv.absent none j q was holds
      exact ⟨k, r, kept there renewing, renewing, owner⟩
  bare := by
    intro empty
    obtain ⟨j, w, here, writes⟩ := inv.bare empty
    refine ⟨j, w, (Processes.getElem?_set_eq_some found).mpr (.inr ⟨fun mine => ?_, here⟩), writes⟩
    subst mine
    obtain rfl := Option.some.inj (here.symm.trans found)
    exact before writes

/-- The lock directory is made, and no session comes in between. -/
theorem make (found : s.procs[i]? = some c) (absent : s.shared = none) (past : c.past = false)
    (alone : ∀ (j : Nat) (q : Call), s.procs[j]? = some q → q.phase = .remaking →
      q.holder = c.holder) : Keeps ⟨some {}, s.procs.set i (c.become .writing)⟩ where
  fair := by
    refine inv.fair.step found ⟨fun _ => rfl, fun late => ?_, fun _ file named => ?_⟩ ?_
    · cases past.symm.trans late
    · cases named
    · intro j q _ here fair
      refine ⟨fun writes => ?_, fair.late, fun _ file named => ?_⟩
      · cases absent.symm.trans (fair.writes writes)
      · cases named
  apart := by
    refine inv.apart.step found fun j q other here => ?_
    have owner (holds : q.holds = true) : q.holder = c.holder := by
      obtain ⟨k, r, there, renewing, same⟩ := inv.absent absent j q here holds
      exact same.symm.trans (alone k r there renewing)
    have idle : q.phase ≠ .writing := fun writes => by
      cases absent.symm.trans ((inv.fair j q here).writes writes)
    exact ⟨⟨fun _ theirs => (owner theirs).symm, fun _ => idle⟩,
      ⟨fun theirs _ => owner theirs, fun writes => absurd writes idle⟩⟩
  absent := fun none => by cases none
  bare := fun _ => ⟨i, _, (Processes.getElem?_set_eq_some found).mpr (.inl ⟨rfl, rfl⟩), rfl⟩

/-- A lock of the own session is taken over. -/
theorem remove (found : s.procs[i]? = some c) (removing : c.phase = .removing)
    (past : c.past = false) (owned : s.shared.ownedBy c.holder = true) :
    Keeps ⟨none, s.procs.set i (c.become .remaking)⟩ where
  fair := by
    refine inv.fair.step found ⟨fun writes => ?_, fun late => ?_, fun _ file named => ?_⟩ ?_
    · cases writes
    · cases past.symm.trans late
    · cases named
    · intro j q _ here fair
      refine ⟨fun writes => ?_, fair.late, fun _ file named => ?_⟩
      · rcases Disk.ownedBy_cases owned with none | ⟨file, there, _⟩
        · cases none.symm.trans (fair.writes writes)
        · cases there.symm.trans (fair.writes writes)
      · cases named
  apart := by
    refine inv.apart.step found fun j q other here => ⟨⟨fun mine => ?_, fun writes => ?_⟩,
      ⟨fun _ mine => ?_, fun _ writes => ?_⟩⟩
    · cases mine
    · cases writes
    · cases mine
    · cases writes
  absent := by
    intro _ j q here holds
    have mine : (s.procs.set i (c.become .remaking))[i]? = some (c.become .remaking) :=
      (Processes.getElem?_set_eq_some found).mpr (.inl ⟨rfl, rfl⟩)
    rcases (Processes.getElem?_set_eq_some found).mp here with ⟨rfl, rfl⟩ | ⟨_, was⟩
    · cases holds
    rcases Disk.ownedBy_cases owned with none | ⟨file, there, same⟩
    · obtain ⟨k, r, there, renewing, owner⟩ := inv.absent none j q was holds
      refine ⟨k, r, (Processes.getElem?_set_eq_some found).mpr (.inr ⟨fun self => ?_, there⟩),
        renewing, owner⟩
      subst self
      obtain rfl := Option.some.inj (there.symm.trans found)
      cases removing.symm.trans renewing
    · exact ⟨i, _, mine, rfl, same.symm.trans ((inv.fair j q was).named holds file there)⟩
  bare := fun empty => by cases empty

/-- The owner file is written to the directory that the call has made. -/
theorem write (found : s.procs[i]? = some c) (writing : c.phase = .writing) :
    Keeps ⟨some ⟨some ⟨c.holder, SERVER_RUN⟩⟩, s.procs.set i (c.become .confirming)⟩ where
  fair := by
    have holds := (inv.fair i c found).holds writing
    refine inv.fair.step found ⟨fun writes => ?_, fun _ => .inl rfl, fun _ file named => ?_⟩ ?_
    · cases writes
    · cases named
      rfl
    · intro j q other here fair
      have apart := inv.apart i j c q (Ne.symm other) found here
      refine ⟨fun writes => absurd writes (apart.single writing), fair.late, ?_⟩
      rintro theirs _ ⟨⟩
      exact apart.same holds theirs
  apart := by
    have holds := (inv.fair i c found).holds writing
    refine inv.apart.step found fun j q other here => ?_
    have apart := inv.apart i j c q (Ne.symm other) found here
    refine ⟨⟨fun _ theirs => apart.same holds theirs, fun writes => ?_⟩,
      ⟨fun theirs _ => (apart.same holds theirs).symm, fun _ writes => ?_⟩⟩
    · cases writes
    · cases writes
  absent := fun none => by cases none
  bare := fun empty => by cases empty

/-- What a release does to the calls of its session. -/
theorem release {holder : Holder} (owned : s.shared.ownedBy holder = true) :
    Keeps ⟨none, s.procs.map fun q => q.release holder⟩ := by
  have was (j : Nat) (q : Call) (here : (s.procs.map fun q => q.release holder)[j]? = some q) :
      ∃ r, s.procs[j]? = some r ∧ r.release holder = q := by
    rw [List.getElem?_map] at here
    exact Option.map_eq_some_iff.mp here
  have idle (j : Nat) (r : Call) (here : s.procs[j]? = some r) : r.phase ≠ .writing := by
    intro writes
    rcases Disk.ownedBy_cases owned with none | ⟨file, there, _⟩
    · cases none.symm.trans ((inv.fair j r here).writes writes)
    · cases there.symm.trans ((inv.fair j r here).writes writes)
  refine ⟨fun j q here => ?_, fun j k p q distinct first second => ?_, fun _ j q here holds => ?_,
    fun empty => ?_⟩
  · obtain ⟨r, there, rfl⟩ := was j q here
    refine ⟨fun writes => ?_, fun past => ?_, fun _ file named => ?_⟩
    · exact absurd ((r.release_phase holder).symm.trans writes) (idle j r there)
    · rw [Call.release_phase]
      exact (inv.fair j r there).late_of_release (idle j r there) past
    · cases named
  · obtain ⟨p, first', rfl⟩ := was j p first
    obtain ⟨q, second', rfl⟩ := was k q second
    have apart := inv.apart j k p q distinct first' second'
    refine ⟨fun mine theirs => ?_, fun writes => ?_⟩
    · rw [Call.release_holder, Call.release_holder]
      exact apart.same (Call.holds_of_release mine).1 (Call.holds_of_release theirs).1
    · rw [Call.release_phase] at writes ⊢
      exact apart.single writes
  · obtain ⟨r, there, rfl⟩ := was j q here
    obtain ⟨holds, other⟩ := Call.holds_of_release holds
    rcases Disk.ownedBy_cases owned with none | ⟨file, named, same⟩
    · obtain ⟨k, q, renewing, owner⟩ := inv.absent none j r there holds
      refine ⟨k, q.release holder, ?_, ?_⟩
      · rw [List.getElem?_map, renewing, Option.map_some]
      · rw [Call.release_phase, Call.release_holder, Call.release_holder]
        exact owner
    · exact absurd (((inv.fair j r there).named holds file named).symm.trans same) other
  · cases empty

theorem rm (admitted : admits s (.rm i) = true) (taken : s.rm i = some t) : Keeps t := by
  obtain ⟨c, found, became⟩ := Option.bind_eq_some_iff.mp taken
  simp only [admits, found, Option.all_some] at admitted
  split at became
  · rename_i releasing
    cases became
    have past := (inv.fair i c found).early (by simp [Call.taken, releasing])
    have ended : Keeps ⟨s.shared, s.procs.set i (c.become .released)⟩ :=
      inv.become found (.idle rfl past) (fun holds => by simp [Call.holds, Call.taken, Call.become] at holds)
        rfl (by simp [releasing]) (fun same => by cases same) (fun _ => by simp [releasing])
    exact ended.release admitted
  · cases became

/-- A call that goes on without the lock. -/
theorem idle (found : s.procs[i]? = some c) (before : c.taken = false) {phase : Phase}
    (after : (c.become phase).taken = false) (renews : s.shared = none → c.phase ≠ .remaking) :
    Keeps ⟨s.shared, s.procs.set i (c.become phase)⟩ := by
  refine inv.become found (.idle after ((inv.fair i c found).early before)) (fun holds => ?_) rfl
    (fun same => ?_) (fun same => ?_) renews
  · simp [Call.holds, after] at holds
  · simp [Call.taken, same] at before
  · simp [Call.taken, same] at after

theorem resume (admitted : admits s (.resume i) = true)
    (taken : s.stepAt i (fun disk c => c.resume SERVER_RUN disk) = some t) : Keeps t := by
  obtain ⟨c, disk, c', found, became, rfl⟩ := Processes.stepAt_eq_some.mp taken
  simp only [admits, found, Option.all_some] at admitted
  have fair := inv.fair i c found
  have alone (free : s.shared = none) (making : c.phase = .making ∨ c.phase = .remaking) (j : Nat)
      (q : Call) (here : s.procs[j]? = some q) (renews : q.phase = .remaking) :
      q.holder = c.holder := by
    rcases making with making | making <;>
    · simp only [making, free, Option.isSome_none, Bool.false_or] at admitted
      simpa [renews] using List.all_eq_true.mp admitted q (List.mem_of_getElem? here)
  obtain ⟨holder, stealStale, phase, past⟩ := c
  cases phase with
  | making | remaking =>
    simp only [Call.resume] at became
    split at became
    · rename_i free
      cases became
      exact inv.make found free (fair.early rfl) (alone free (by simp))
    · rename_i there
      cases became
      exact inv.idle found rfl rfl fun none => by cases none.symm.trans there
  | reading =>
    simp only [Call.resume] at became
    split at became
    all_goals
      cases became
      exact inv.idle found rfl rfl fun _ same => by cases same
  | removing =>
    cases became
    exact inv.remove found rfl (fair.early rfl) admitted
  | writing =>
    simp only [Call.resume, fair.writes rfl] at became
    cases became
    exact inv.write found rfl
  | confirming =>
    cases became
    refine inv.become found ⟨fun writes => ?_, fun _ => .inr ⟨_, rfl⟩, fun holds => ?_⟩ id rfl
      (fun same => ?_) (fun same => ?_) fun _ same => ?_
    · cases writes
    · exact fair.named holds
    · cases same
    · cases same
    · cases same
  | acquired | refused | releasing | released => cases became

theorem spawn {c : Call} (free : c.taken = false) (past : c.past = false) : Keeps (s.spawn c) where
  fair := inv.fair.spawn (.idle free past)
  apart := by
    refine inv.apart.spawn fun q => ⟨⟨fun mine => ?_, fun writes => ?_⟩, fun _ mine => ?_, ?_⟩
    · simp [Call.holds, free] at mine
    · simp [Call.taken, writes] at free
    · simp [Call.holds, free] at mine
    · exact fun _ writes => by simp [Call.taken, writes] at free
  absent := by
    intro none j q here holds
    rcases Processes.getElem?_spawn_eq_some.mp here with was | ⟨_, rfl⟩
    · obtain ⟨k, r, there, renews⟩ := inv.absent none j q was holds
      exact ⟨k, r, Processes.getElem?_spawn_eq_some.mpr (.inl there), renews⟩
    · simp [Call.holds, free] at holds
  bare := by
    intro empty
    obtain ⟨j, w, here, writes⟩ := inv.bare empty
    exact ⟨j, w, Processes.getElem?_spawn_eq_some.mpr (.inl here), writes⟩

theorem step {event : Event} (admitted : admits s event = true)
    (taken : s.step SERVER_RUN event = some t) : Keeps t := by
  cases event with
  | acquire holder stealStale =>
    cases taken
    exact inv.spawn rfl rfl
  | resume i => exact inv.resume admitted taken
  | release i =>
    obtain ⟨c, found, became⟩ := Option.bind_eq_some_iff.mp taken
    split at became
    · split at became
      · cases became
      · cases became
        exact inv.spawn rfl rfl
    · cases became
  | rm i => exact inv.rm admitted taken
  | assertHolder holder =>
    cases taken
    exact inv

end Keeps

/-- In every run that meets the condition the lock has one holder. -/
theorem memory_lock_has_one_holder (SERVER_RUN : String) (s : State)
    (reached : (memoryLock SERVER_RUN).Reaches (fun s event => admits s event = true) s) :
    Sound s := by
  suffices Keeps s from this.sound
  induction reached with
  | start =>
    refine ⟨fun i c here => ?_, fun i j p q _ here => ?_, fun _ i c here => ?_, fun empty => ?_⟩
    · cases here
    · cases here
    · cases here
    · cases empty
  | step _ admitted taken inv => exact inv.step admitted taken

section Runs

/-- A session takes the lock, asserts it, takes it again and releases it to another session. -/
def plainRun : List Event :=
  [.acquire (some "a") none, .resume 0, .resume 0, .resume 0, .assertHolder (some "a"),
    .acquire (some "a") none, .resume 1, .resume 1, .resume 1, .resume 1, .resume 1, .resume 1,
    .acquire (some "b") none, .resume 2, .resume 2, .release 1, .rm 3, .acquire (some "b") none,
    .resume 4, .resume 4, .resume 4]

theorem plain_lock_has_one_holder : ∃ s,
    (memoryLock "run").Reaches (fun s event => admits s event = true) s ∧ Sound s ∧
      s.shared = some ⟨some ⟨some "b", "run"⟩⟩ ∧
      s.procs.map (fun c => (c.holder, c.holds)) = [(some "a", false), (some "a", false),
        (some "b", false), (some "a", false), (some "b", true)] := by
  obtain ⟨s, reached, there, procs⟩ := (memoryLock "run").exists_reaches_of_run admits
    (fun s => s.shared = some ⟨some ⟨some "b", "run"⟩⟩ ∧
      s.procs.map (fun c => (c.holder, c.holds)) = [(some "a", false), (some "a", false),
        (some "b", false), (some "a", false), (some "b", true)]) plainRun (by decide +kernel)
  exact ⟨s, reached, memory_lock_has_one_holder "run" s reached, there, procs⟩

/-- A session reads the directory of another one before the owner file is written. -/
def emptyRun : List Event :=
  [.acquire (some "a") none, .acquire (some "b") none, .resume 0, .resume 1, .resume 1, .resume 0,
    .resume 0, .resume 1, .resume 1, .resume 1, .resume 1]

/-- A session comes in between the two halves of another one's renewal. -/
def renewedRun : List Event :=
  [.acquire (some "a") none, .resume 0, .resume 0, .resume 0, .acquire (some "a") none, .resume 1,
    .resume 1, .resume 1, .acquire (some "b") none, .resume 2, .resume 2, .resume 2]

/-- Both sessions have the lock after either run, and in the second one the first session is rejected
before the other one comes in. -/
theorem memory_lock_shared :
    (∀ ls ∈ [emptyRun, renewedRun], ∃ s, (memoryLock "run").Reachable s ∧
      ∃ p ∈ s.procs, ∃ q ∈ s.procs, p.holds = true ∧ q.holds = true ∧
        p.holder = some "a" ∧ p.phase = .acquired ⟨true, some "a", false, some "run"⟩ ∧
        q.holder = some "b" ∧ q.phase = .acquired ⟨true, some "b", false, some "run"⟩) ∧
    ∃ s, (memoryLock "run").Reachable s ∧
      (∃ p ∈ s.procs, p.holds = true ∧ p.holder = some "a" ∧
        p.phase = .acquired ⟨true, some "a", false, some "run"⟩) ∧
      ∃ error, assertMemoryLockHolder s.shared (some "a") = .error error := by
  refine ⟨fun ls inside => ?_, ?_⟩
  · obtain ⟨s, reached, both⟩ := (memoryLock "run").exists_reaches_of_run (fun _ _ => true)
      (fun s => ∃ p ∈ s.procs, ∃ q ∈ s.procs, p.holds = true ∧ q.holds = true ∧
        p.holder = some "a" ∧ p.phase = .acquired ⟨true, some "a", false, some "run"⟩ ∧
        q.holder = some "b" ∧ q.phase = .acquired ⟨true, some "b", false, some "run"⟩) ls
      (by
        rcases List.mem_pair.mp inside with rfl | rfl
        · decide +kernel
        · decide +kernel)
    exact ⟨s, reached.reachable, both⟩
  · obtain ⟨s, reached, free, first⟩ := (memoryLock "run").exists_reaches_of_run
      (fun _ _ => true) (fun s => s.shared = none ∧ ∃ p ∈ s.procs, p.holds = true ∧
        p.holder = some "a" ∧ p.phase = .acquired ⟨true, some "a", false, some "run"⟩)
      (renewedRun.take 8) (by decide +kernel)
    exact ⟨s, reached.reachable, first, .notLocked, by rw [free]; rfl⟩

end Runs

end Takode.MemoryLock
