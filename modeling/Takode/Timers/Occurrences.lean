import Mathlib.Algebra.BigOperators.Group.List.Basic
import Mathlib.Data.Int.ConditionallyCompleteOrder
import Mathlib.Data.Int.Interval
import Mathlib.Tactic.Linarith
import Mathlib.Tactic.Ring
import Takode.Timers.Manager

/-!
# Occurrences of recurring timers

What a sweep fires, and when. The grid of a recurring timer is its first fire time plus
the multiples of its interval; a firing accounts for the grid points that are due.
-/

namespace Takode.Timers

/-- What a sweep reads and writes of a `SessionTimer`, at any integer times. -/
structure SweptTimer where
  id : Nat
  type : TimerType
  nextFireAt : ℤ
  intervalMs : Option ℤ := none
  lastFiredAt : Option ℤ := none
  fireCount : Nat := 0
deriving DecidableEq, Repr

structure TimerFireContext where
  scheduledFireAt : ℤ
  skippedCount : Option ℤ := none
deriving DecidableEq, Repr

/-- A timer that was fired, at the `now` of the sweep, and its next time after that. -/
structure Firing where
  timerId : Nat
  now : ℤ
  context : TimerFireContext
  nextFireAt : ℤ
deriving DecidableEq, Repr

namespace SweptTimer

/-- `timer.type === "recurring" && timer.intervalMs && timer.intervalMs > 0`. -/
def repeats (timer : SweptTimer) : Bool := timer.type = .recurring && 0 < timer.intervalMs.getD 0

def resolveRecurringFireContext (timer : SweptTimer) (now : ℤ) : TimerFireContext :=
  let intervalMs := timer.intervalMs.getD 0
  if intervalMs ≤ 0 then { scheduledFireAt := timer.nextFireAt }
  else
    let skippedCount := (now - timer.nextFireAt) / intervalMs
    { scheduledFireAt := timer.nextFireAt + skippedCount * intervalMs, skippedCount }

def fireContext (timer : SweptTimer) (now : ℤ) : TimerFireContext :=
  if timer.repeats then timer.resolveRecurringFireContext now
  else { scheduledFireAt := timer.nextFireAt }

/-- It is due, and the session is not paused at its turn. -/
def fires (timer : SweptTimer) (now : ℤ) (paused : List Nat) : Bool :=
  timer.nextFireAt ≤ now && timer.id ∉ paused

/-- The timer after it was fired. -/
def fired (timer : SweptTimer) (now : ℤ) : SweptTimer :=
  { timer with
    lastFiredAt := some now
    fireCount := timer.fireCount + 1
    nextFireAt := if timer.repeats then (timer.fireContext now).scheduledFireAt + timer.intervalMs.getD 0
      else timer.nextFireAt }

def firing (timer : SweptTimer) (now : ℤ) : Firing where
  timerId := timer.id
  now
  context := timer.fireContext now
  nextFireAt := (timer.fired now).nextFireAt

/-- The timer after its turn in a sweep. -/
def turn (timer : SweptTimer) (now : ℤ) (paused : List Nat) : SweptTimer :=
  if timer.fires now paused then timer.fired now else timer

/-- The integer times of a timer of the manager. -/
def ofTimer (timer : SessionTimer) : SweptTimer where
  id := timer.id
  type := timer.type
  nextFireAt := timer.nextFireAt
  intervalMs := timer.intervalMs.map Int.ofNat
  lastFiredAt := timer.lastFiredAt.map Int.ofNat
  fireCount := timer.fireCount

end SweptTimer

/-- The timers of a session, what was fired, and the time of the last sweep. -/
structure Sweeps where
  timers : List SweptTimer
  firings : List Firing := []
  last : Option ℤ := none
deriving DecidableEq, Repr

/-- `sweep`, for one session. -/
def Sweeps.sweep (s : Sweeps) (now : ℤ) (paused : List Nat) : Sweeps where
  timers :=
    let toRemove := (s.timers.filter fun timer => timer.fires now paused && !timer.repeats).map (·.id)
    (s.timers.map (·.turn now paused)).filter fun timer => timer.id ∉ toRemove
  firings := s.firings ++ (s.timers.filter (·.fires now paused)).map (·.firing now)
  last := some now

/-- The time of a sweep, and the timers at whose turn the session is paused. -/
structure Sweep where
  now : ℤ
  paused : List Nat := []

/-- Sweeps at times that do not decrease. -/
def sweeps (timers : List SweptTimer) : Machine Sweeps Sweep where
  start := { timers }
  step s event := if s.last.all (· ≤ event.now) then some (s.sweep event.now event.paused) else none

/-- The firings of a timer. -/
def Sweeps.firingsOf (s : Sweeps) (id : Nat) : List Firing := s.firings.filter (·.timerId = id)

/-! ## The grid -/

/-- The occurrences of a timer: its first fire time plus the multiples of its interval. -/
def grid (first intervalMs : ℤ) : Set ℤ := {p | ∃ k : ℕ, p = first + k * intervalMs}

/-- The occurrences before a time. -/
noncomputable def occurrencesBefore (first intervalMs limit : ℤ) : Finset ℤ :=
  (Finset.Ico first limit).filter fun p => intervalMs ∣ p - first

/-- What a firing reports: the latest occurrence that is due; the next one is later than now, by the
interval at most. -/
structure Accounts (first intervalMs : ℤ) (firing : Firing) : Prop where
  scheduled : firing.context.scheduledFireAt ∈ grid first intervalMs
  due : firing.context.scheduledFireAt ≤ firing.now
  latest : ∀ p ∈ grid first intervalMs, p ≤ firing.now → p ≤ firing.context.scheduledFireAt
  next : firing.nextFireAt ∈ grid first intervalMs
  later : firing.now < firing.nextFireAt
  soon : firing.nextFireAt ≤ firing.now + intervalMs

variable {first intervalMs : ℤ}

theorem mem_occurrencesBefore {limit p : ℤ} (positive : 0 < intervalMs) :
    p ∈ occurrencesBefore first intervalMs limit ↔ p ∈ grid first intervalMs ∧ p < limit := by
  rw [occurrencesBefore, Finset.mem_filter, Finset.mem_Ico]
  constructor
  · rintro ⟨⟨start, before⟩, k, same⟩
    have natural : 0 ≤ k := by
      by_contra negative
      have below : intervalMs * k < 0 := mul_neg_of_pos_of_neg positive (not_le.mp negative)
      omega
    refine ⟨⟨k.toNat, ?_⟩, before⟩
    rw [Int.toNat_of_nonneg natural, mul_comm]
    omega
  · rintro ⟨⟨k, rfl⟩, before⟩
    have forward : 0 ≤ (k : ℤ) * intervalMs := by positivity
    exact ⟨⟨by omega, before⟩, k, by ring⟩

/-- As many occurrences come before one as its place in the grid. -/
theorem card_occurrencesBefore (positive : 0 < intervalMs) (n : ℕ) :
    (occurrencesBefore first intervalMs (first + n * intervalMs)).card = n := by
  have image : occurrencesBefore first intervalMs (first + n * intervalMs) =
      (Finset.range n).image fun k : ℕ => first + k * intervalMs := by
    ext p
    rw [mem_occurrencesBefore positive, Finset.mem_image]
    constructor
    · rintro ⟨⟨k, rfl⟩, before⟩
      have less : (k : ℤ) * intervalMs < n * intervalMs := by omega
      have less : k < n := by exact_mod_cast lt_of_mul_lt_mul_right less positive.le
      exact ⟨k, Finset.mem_range.mpr less, rfl⟩
    · rintro ⟨k, less, rfl⟩
      have less : (k : ℤ) < n := by exact_mod_cast Finset.mem_range.mp less
      exact ⟨⟨k, rfl⟩, by linarith [mul_lt_mul_of_pos_right less positive]⟩
  rw [image, Finset.card_image_of_injective, Finset.card_range]
  intro j k same
  have same : (j : ℤ) * intervalMs = k * intervalMs := by
    have same : first + (j : ℤ) * intervalMs = first + k * intervalMs := same
    omega
  exact_mod_cast mul_right_cancel₀ positive.ne' same

/-! ## One sweep -/

/-- A recurring timer at a place of its grid. -/
structure SweptTimer.On (timer : SweptTimer) (first intervalMs : ℤ) (n : ℕ) : Prop where
  recurring : timer.type = .recurring
  interval : timer.intervalMs = some intervalMs
  place : timer.nextFireAt = first + n * intervalMs

variable {timer : SweptTimer} {n : ℕ} {now : ℤ}

theorem SweptTimer.On.repeats (on : timer.On first intervalMs n) (positive : 0 < intervalMs) :
    timer.repeats = true := by
  simp [SweptTimer.repeats, on.recurring, on.interval, positive]

/-- A firing skips the occurrences before the latest that is due. -/
theorem SweptTimer.On.fired (on : timer.On first intervalMs n) (positive : 0 < intervalMs)
    (due : timer.nextFireAt ≤ now) :
    ∃ skipped : ℕ, (timer.firing now).context.skippedCount = some (skipped : ℤ) ∧
      (timer.firing now).context.scheduledFireAt = first + (n + skipped : ℕ) * intervalMs ∧
      (timer.fired now).On first intervalMs (n + skipped + 1) ∧
      Accounts first intervalMs (timer.firing now) := by
  have natural : 0 ≤ (now - timer.nextFireAt) / intervalMs :=
    Int.ediv_nonneg (sub_nonneg.mpr due) positive.le
  obtain ⟨skipped, count⟩ := Int.eq_ofNat_of_zero_le natural
  have context : timer.fireContext now =
      ⟨timer.nextFireAt + skipped * intervalMs, some (skipped : ℤ)⟩ := by
    rw [SweptTimer.fireContext, if_pos (on.repeats positive), SweptTimer.resolveRecurringFireContext]
    simp only [on.interval, Option.getD_some]
    rw [if_neg (not_le.mpr positive), count]
  have scheduled : timer.nextFireAt + skipped * intervalMs = first + (n + skipped : ℕ) * intervalMs := by
    rw [on.place]
    push_cast
    ring
  have next : (timer.fired now).nextFireAt = first + (n + skipped + 1 : ℕ) * intervalMs := by
    show (if timer.repeats then _ else _) = _
    rw [if_pos (on.repeats positive), context, on.interval, Option.getD_some]
    show timer.nextFireAt + skipped * intervalMs + intervalMs = _
    rw [scheduled]
    push_cast
    ring
  -- the division with remainder says which occurrence is the latest
  have remainder := Int.emod_nonneg (now - timer.nextFireAt) positive.ne'
  have small := Int.emod_lt_of_pos (now - timer.nextFireAt) positive
  have division := Int.mul_ediv_add_emod (now - timer.nextFireAt) intervalMs
  rw [count] at division
  have floor : first + (n + skipped : ℕ) * intervalMs ≤ now := by
    rw [← scheduled]
    linarith [mul_comm intervalMs (skipped : ℤ)]
  have ceiling : now < first + (n + skipped + 1 : ℕ) * intervalMs := by
    have unfolded : first + (n + skipped + 1 : ℕ) * intervalMs =
        timer.nextFireAt + skipped * intervalMs + intervalMs := by
      rw [scheduled]
      push_cast
      ring
    rw [unfolded]
    linarith [mul_comm intervalMs (skipped : ℤ)]
  refine ⟨skipped, ?_, ?_, ⟨on.recurring, on.interval, next⟩, ?_⟩
  · show (timer.fireContext now).skippedCount = _
    rw [context]
  · show (timer.fireContext now).scheduledFireAt = _
    rw [context]
    exact scheduled
  · have reported : (timer.firing now).context.scheduledFireAt = first + (n + skipped : ℕ) * intervalMs := by
      show (timer.fireContext now).scheduledFireAt = _
      rw [context]
      exact scheduled
    have after : (timer.firing now).nextFireAt = first + (n + skipped + 1 : ℕ) * intervalMs := next
    exact {
      scheduled := ⟨n + skipped, reported⟩
      due := reported ▸ floor
      latest := by
        rintro _ ⟨k, rfl⟩ before
        rw [reported]
        have less : (k : ℤ) * intervalMs < (n + skipped + 1 : ℕ) * intervalMs := by
          have before : first + (k : ℤ) * intervalMs ≤ now := before
          linarith
        have less : (k : ℤ) < (n + skipped + 1 : ℕ) := lt_of_mul_lt_mul_right less positive.le
        have less : (k : ℤ) ≤ (n + skipped : ℕ) := by omega
        linarith [mul_le_mul_of_nonneg_right less positive.le]
      next := ⟨n + skipped + 1, after⟩
      later := after ▸ ceiling
      soon := by
        rw [after]
        have unfolded : first + (n + skipped + 1 : ℕ) * intervalMs =
            first + (n + skipped : ℕ) * intervalMs + intervalMs := by
          push_cast
          ring
        show _ ≤ now + intervalMs
        rw [unfolded]
        linarith }

/-! ## Runs -/

/-- A recurring timer, at the place of its grid that its firings account for. -/
structure Sweeps.Counts (s : Sweeps) (id : Nat) (first intervalMs : ℤ) (timer : SweptTimer) (n : ℕ) :
    Prop where
  own : s.timers.filter (·.id = id) = [timer]
  on : timer.On first intervalMs n
  accounts : ∀ firing ∈ s.firingsOf id, Accounts first intervalMs firing
  before : ∀ firing ∈ s.firingsOf id, firing.context.scheduledFireAt < timer.nextFireAt
  ascending : (s.firingsOf id).Pairwise fun f g => f.context.scheduledFireAt < g.context.scheduledFireAt
  count : ((s.firingsOf id).length : ℤ) +
    ((s.firingsOf id).map fun firing => firing.context.skippedCount.getD 0).sum = n

variable {s : Sweeps} {id : Nat} {paused : List Nat}

theorem SweptTimer.turn_id (timer : SweptTimer) : (timer.turn now paused).id = timer.id := by
  unfold SweptTimer.turn
  split <;> rfl

theorem Sweeps.own_sweep (own : s.timers.filter (·.id = id) = [timer]) (repeats : timer.repeats = true) :
    (s.sweep now paused).timers.filter (·.id = id) = [timer.turn now paused] := by
  have kept : id ∉ (s.timers.filter fun timer => timer.fires now paused && !timer.repeats).map (·.id) := by
    intro removed
    obtain ⟨other, listed, same⟩ := List.mem_map.mp removed
    obtain ⟨listed, ends⟩ := List.mem_filter.mp listed
    have one : other ∈ s.timers.filter (·.id = id) := List.mem_filter.mpr ⟨listed, decide_eq_true same⟩
    rw [own, List.mem_singleton] at one
    rw [one, repeats] at ends
    simp at ends
  have both : ∀ timers : List SweptTimer, ((timers.map (·.turn now paused)).filter fun timer =>
      timer.id ∉ (s.timers.filter fun timer => timer.fires now paused && !timer.repeats).map
        (·.id)).filter (·.id = id) = (timers.filter (·.id = id)).map (·.turn now paused) := by
    intro timers
    rw [List.filter_filter, List.filter_map]
    congr 1
    refine List.filter_congr fun other _ => ?_
    simp only [Function.comp_apply, SweptTimer.turn_id]
    by_cases same : other.id = id
    · rw [same]
      simp only [decide_true, Bool.true_and, decide_eq_true_eq]
      exact kept
    · simp [same]
  show ((s.timers.map (·.turn now paused)).filter _).filter _ = _
  rw [both, own]
  rfl

theorem Sweeps.firingsOf_sweep (own : s.timers.filter (·.id = id) = [timer]) :
    (s.sweep now paused).firingsOf id =
      s.firingsOf id ++ if timer.fires now paused then [timer.firing now] else [] := by
  show (s.firings ++ (s.timers.filter (·.fires now paused)).map (·.firing now)).filter _ = _
  rw [List.filter_append, List.filter_map]
  congr 1
  have swap : (s.timers.filter (·.fires now paused)).filter ((fun f : Firing => decide (f.timerId = id)) ∘
      fun timer => timer.firing now) = (s.timers.filter (·.id = id)).filter (·.fires now paused) := by
    rw [List.filter_filter, List.filter_filter]
    exact List.filter_congr fun other _ => Bool.and_comm _ _
  rw [swap, own, List.filter_singleton]
  cases timer.fires now paused <;> rfl

theorem Sweeps.Counts.sweep (counts : s.Counts id first intervalMs timer n) (positive : 0 < intervalMs) :
    ∃ timer' n', (s.sweep now paused).Counts id first intervalMs timer' n' := by
  have own : (s.sweep now paused).timers.filter (·.id = id) = [timer.turn now paused] :=
    Sweeps.own_sweep counts.own (counts.on.repeats positive)
  have firings : (s.sweep now paused).firingsOf id =
      s.firingsOf id ++ if timer.fires now paused then [timer.firing now] else [] :=
    Sweeps.firingsOf_sweep counts.own
  cases fires : timer.fires now paused with
  | false =>
    rw [fires, if_neg Bool.false_ne_true, List.append_nil] at firings
    refine ⟨timer, n, ?_, counts.on, ?_, ?_, ?_, ?_⟩
    · rw [own, SweptTimer.turn, fires, if_neg Bool.false_ne_true]
    all_goals rw [firings]
    · exact counts.accounts
    · exact counts.before
    · exact counts.ascending
    · exact counts.count
  | true =>
    have due : timer.nextFireAt ≤ now := by
      rw [SweptTimer.fires, Bool.and_eq_true, decide_eq_true_eq] at fires
      exact fires.1
    obtain ⟨skipped, reported, scheduled, on, accounts⟩ := counts.on.fired positive due
    rw [fires, if_pos rfl] at firings
    have later : timer.nextFireAt ≤ (timer.firing now).context.scheduledFireAt := by
      rw [scheduled, counts.on.place]
      have more : ((n : ℕ) : ℤ) ≤ (n + skipped : ℕ) := by exact_mod_cast Nat.le_add_right n skipped
      linarith [mul_le_mul_of_nonneg_right more positive.le]
    have next : (timer.firing now).context.scheduledFireAt < (timer.fired now).nextFireAt :=
      lt_of_le_of_lt accounts.due accounts.later
    refine ⟨timer.fired now, n + skipped + 1, ?_, on, ?_, ?_, ?_, ?_⟩
    · rw [own, SweptTimer.turn, fires, if_pos rfl]
    all_goals rw [firings]
    · intro firing inside
      obtain inside | inside := List.mem_append.mp inside
      · exact counts.accounts firing inside
      · exact List.mem_singleton.mp inside ▸ accounts
    · intro firing inside
      obtain inside | inside := List.mem_append.mp inside
      · exact lt_of_lt_of_le (counts.before firing inside) (later.trans next.le)
      · exact List.mem_singleton.mp inside ▸ next
    · refine List.pairwise_append.mpr ⟨counts.ascending, List.pairwise_singleton _ _, ?_⟩
      intro firing inside last listed
      rw [List.mem_singleton.mp listed]
      exact lt_of_lt_of_le (counts.before firing inside) later
    · rw [List.length_append, List.map_append, List.sum_append]
      simp only [List.length_singleton, List.map_singleton, List.sum_singleton, reported,
        Option.getD_some]
      have count := counts.count
      push_cast
      linarith

theorem filter_id {timers : List SweptTimer} (distinct : (timers.map (·.id)).Nodup)
    {start : SweptTimer} (listed : start ∈ timers) : timers.filter (·.id = start.id) = [start] := by
  induction timers with
  | nil => cases listed
  | cons first rest ih =>
    rw [List.map_cons, List.nodup_cons] at distinct
    obtain rfl | listed := List.mem_cons.mp listed
    · rw [List.filter_cons_of_pos (by simp), List.filter_eq_nil_iff.mpr]
      intro other inside same
      exact distinct.1 (List.mem_map.mpr ⟨other, inside, of_decide_eq_true same⟩)
    · rw [List.filter_cons_of_neg, ih distinct.2 listed]
      intro same
      exact distinct.1 (List.mem_map.mpr ⟨start, listed, (of_decide_eq_true same).symm⟩)

/-- In every run of sweeps each firing of a recurring timer reports the latest occurrence that is due, no
occurrence is fired twice, and the firings and the occurrences that they report as skipped are
those before the next fire time. -/
theorem occurrences_accounted {timers : List SweptTimer} (distinct : (timers.map (·.id)).Nodup)
    {start : SweptTimer} (listed : start ∈ timers) (recurring : start.type = .recurring)
    (interval : start.intervalMs = some intervalMs) (positive : 0 < intervalMs)
    (reached : (sweeps timers).Reachable s) :
    ∃ timer, s.timers.filter (·.id = start.id) = [timer] ∧
      (∀ firing ∈ s.firingsOf start.id, Accounts start.nextFireAt intervalMs firing) ∧
      (s.firingsOf start.id).Pairwise
        (fun f g => f.context.scheduledFireAt < g.context.scheduledFireAt) ∧
      ((s.firingsOf start.id).length : ℤ) +
          ((s.firingsOf start.id).map fun firing => firing.context.skippedCount.getD 0).sum =
        (occurrencesBefore start.nextFireAt intervalMs timer.nextFireAt).card := by
  suffices ∃ timer n, s.Counts start.id start.nextFireAt intervalMs timer n by
    obtain ⟨timer, n, counts⟩ := this
    refine ⟨timer, counts.own, counts.accounts, counts.ascending, ?_⟩
    rw [counts.on.place, card_occurrencesBefore positive]
    exact counts.count
  induction reached with
  | start =>
    refine ⟨start, 0, ?_, ⟨recurring, interval, by simp⟩, ?_, ?_, ?_, rfl⟩
    · exact filter_id distinct listed
    · rintro _ ⟨⟩
    · rintro _ ⟨⟩
    · exact List.Pairwise.nil
  | step _ _ taken ih =>
    obtain ⟨timer, n, counts⟩ := ih
    obtain ⟨_, same⟩ := Option.ite_none_right_eq_some.mp taken
    obtain rfl := Option.some.inj same
    exact counts.sweep positive

section Runs

private def everyTen : SweptTimer := { id := 1, type := .recurring, nextFireAt := 5, intervalMs := some 10 }

/-- On time, late by two occurrences, while the session is paused, and exactly on an occurrence. -/
def lateSweeps : List Sweep := [⟨5, []⟩, ⟨37, []⟩, ⟨46, [1]⟩, ⟨55, []⟩]

theorem late_occurrences_accounted : ∃ s, (sweeps [everyTen]).Reachable s ∧
    (s.firingsOf 1).map (fun firing => (firing.context.scheduledFireAt, firing.context.skippedCount)) =
      [(5, some 0), (35, some 2), (55, some 1)] ∧
    ∃ timer, s.timers.filter (·.id = 1) = [timer] ∧ ((s.firingsOf 1).length : ℤ) +
        ((s.firingsOf 1).map fun firing => firing.context.skippedCount.getD 0).sum =
      (occurrencesBefore 5 10 timer.nextFireAt).card := by
  obtain ⟨s, reached, fired⟩ := (sweeps [everyTen]).exists_reaches_of_run (fun _ _ => true)
    (fun s => (s.firingsOf 1).map (fun firing =>
      (firing.context.scheduledFireAt, firing.context.skippedCount)) =
        [(5, some 0), (35, some 2), (55, some 1)]) lateSweeps (by decide +kernel)
  have distinct : ([everyTen].map (·.id)).Nodup := by decide
  obtain ⟨timer, own, _, _, count⟩ := occurrences_accounted distinct (List.mem_singleton_self everyTen)
    rfl rfl (by decide) reached.reachable
  exact ⟨s, reached.reachable, fired, timer, own, count⟩

end Runs

/-! ## The timers of the manager -/

theorem SweptTimer.repeats_ofTimer (timer : SessionTimer) : (ofTimer timer).repeats = timer.repeats := by
  cases interval : timer.intervalMs <;>
    simp [SweptTimer.repeats, SessionTimer.repeats, ofTimer, interval]

theorem SweptTimer.fires_ofTimer (timer : SessionTimer) (now : Nat) (paused : List Nat) :
    (ofTimer timer).fires now paused = timer.fires now paused := by
  simp only [SweptTimer.fires, SessionTimer.fires, ofTimer, Nat.cast_le]
  rfl

theorem SweptTimer.fired_ofTimer {timer : SessionTimer} {now : Nat} (repeats : timer.repeats = true)
    (due : timer.nextFireAt ≤ now) : (ofTimer timer).fired now = ofTimer (timer.fired now) := by
  have again := repeats_ofTimer timer
  rw [repeats] at again
  cases interval : timer.intervalMs with
  | none => simp [SessionTimer.repeats, interval] at repeats
  | some intervalMs =>
    have positive : 0 < intervalMs := by
      rw [SessionTimer.repeats, interval, Bool.and_eq_true, decide_eq_true_eq, decide_eq_true_eq] at repeats
      exact repeats.2
    have context : ((ofTimer timer).fireContext now).scheduledFireAt = (timer.scheduledFireAt now : ℤ) := by
      rw [fireContext, if_pos again, resolveRecurringFireContext, if_neg]
      · show (timer.nextFireAt : ℤ) + (now - timer.nextFireAt) / (timer.intervalMs.map Int.ofNat).getD 0 *
          (timer.intervalMs.map Int.ofNat).getD 0 = _
        rw [SessionTimer.scheduledFireAt, interval]
        simp only [Option.map_some, Option.getD_some, Int.ofNat_eq_natCast]
        push_cast [Nat.cast_sub due]
        rfl
      · show ¬ (timer.intervalMs.map Int.ofNat).getD 0 ≤ 0
        rw [interval]
        exact not_le.mpr (Int.natCast_pos.mpr positive)
    unfold SweptTimer.fired SessionTimer.fired
    rw [if_pos again, context]
    simp [ofTimer, interval]

/-- The sweep of the manager leaves the timers that are left here. -/
theorem sweep_ofTimer (file : SessionTimerFile) (now : Nat) (paused : List Nat) :
    (file.sweep now paused).timers.map SweptTimer.ofTimer =
      (Sweeps.sweep { timers := file.timers.map SweptTimer.ofTimer } now paused).timers := by
  have removed : ((file.timers.map SweptTimer.ofTimer).filter fun timer =>
      timer.fires now paused && !timer.repeats).map (·.id) = file.toRemove now paused := by
    rw [List.filter_map, List.map_map, SessionTimerFile.toRemove]
    refine congrArg _ (List.filter_congr fun timer _ => ?_)
    rw [Function.comp_apply, SweptTimer.fires_ofTimer, SweptTimer.repeats_ofTimer]
  have fired (timer : SessionTimer) : (if timer.fires now paused && timer.repeats then timer.fired now
      else timer).id = timer.id := by
    split <;> rfl
  show ((file.timers.map _).filter _).map _ = (((file.timers.map _).map _).filter _)
  rw [removed, List.map_map, List.filter_map, List.filter_map, List.map_map]
  have kept : file.timers.filter ((fun timer => decide (timer.id ∉ file.toRemove now paused)) ∘
        fun timer => if timer.fires now paused && timer.repeats then timer.fired now else timer) =
      file.timers.filter ((fun timer : SweptTimer => decide (timer.id ∉ file.toRemove now paused)) ∘
        ((·.turn now paused) ∘ SweptTimer.ofTimer)) := by
    refine List.filter_congr fun timer _ => ?_
    simp only [Function.comp_apply, fired, SweptTimer.turn_id]
    rfl
  rw [kept]
  refine List.map_congr_left fun timer inside => ?_
  obtain ⟨listed, stays⟩ := List.mem_filter.mp inside
  simp only [Function.comp_apply, SweptTimer.turn, SweptTimer.fires_ofTimer]
  cases fires : timer.fires now paused with
  | false => rfl
  | true =>
    cases repeats : timer.repeats with
    | false =>
      -- a timer that fires and does not repeat is removed
      have gone : timer.id ∈ file.toRemove now paused :=
        List.mem_map.mpr ⟨timer, List.mem_filter.mpr ⟨listed, by rw [fires, repeats]; rfl⟩, rfl⟩
      simp only [Function.comp_apply, SweptTimer.turn_id, decide_eq_true_eq] at stays
      exact absurd gone stays
    | true =>
      have due : timer.nextFireAt ≤ now := by
        rw [SessionTimer.fires, Bool.and_eq_true, decide_eq_true_eq] at fires
        exact fires.1
      exact (SweptTimer.fired_ofTimer repeats due).symm

end Takode.Timers
