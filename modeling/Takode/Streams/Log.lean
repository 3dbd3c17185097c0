import Takode.Lib.CallLog
import Takode.Streams.Calls
import Takode.Streams.Tidy

/-!
# The order in which calls are settled

The log lists the calls that have a result, each once, and never a call before one that
had ended when it started.
-/

namespace Takode.Streams

namespace State

variable {calls : Processes Disk Call} {i : Nat} {c : Call} {e : Entry}

theorem entry_eq_some : entry calls i = some e ↔ ∃ c outcome, calls.procs[i]? = some c ∧
    c.phase.settled = some outcome ∧ e = ⟨i, c.request, c.clock, c.before, outcome⟩ := by
  constructor
  · intro found
    obtain ⟨c, here, mapped⟩ := Option.bind_eq_some_iff.mp found
    obtain ⟨outcome, settled, rfl⟩ := Option.map_eq_some_iff.mp mapped
    exact ⟨c, outcome, here, settled, rfl⟩
  · rintro ⟨c, outcome, here, settled, rfl⟩
    simp [entry, here, settled]

theorem mem_ended {s : State} : i ∈ s.ended ↔
    ∃ c, s.calls.procs[i]? = some c ∧ c.phase.isEnded = true := by
  unfold ended
  rw [List.mem_filter, List.mem_range]
  constructor
  · rintro ⟨inside, told⟩
    rw [List.getElem?_eq_getElem inside] at told
    exact ⟨_, List.getElem?_eq_getElem inside, told⟩
  · rintro ⟨c, here, told⟩
    refine ⟨(List.getElem?_eq_some_iff.mp here).1, ?_⟩
    rw [here]
    exact told

end State

/-- What holds of the log in every state. -/
structure Logged (s : State) : Prop where
  listed : ∀ i e, State.entry s.calls i = some e → e ∈ s.log
  known : ∀ e ∈ s.log, State.entry s.calls e.index = some e
  distinct : (s.log.map (·.index)).Nodup
  earlier : ∀ (i : Nat) (c : Call), s.calls.procs[i]? = some c → ∀ j ∈ c.before,
    ∃ d, s.calls.procs[j]? = some d ∧ d.phase.isEnded = true
  ordered : s.log.Pairwise fun e e' => e'.index ∉ e.before

/-- What the log shows of the calls of the store. -/
def callView : CallView Call Entry where
  entry i c := c.phase.settled.map fun outcome => ⟨i, c.request, c.clock, c.before, outcome⟩
  index := Entry.index
  before := Entry.before
  prior := Call.before
  ended c := c.phase.isEnded
  index_entry found := by
    obtain ⟨_, _, rfl⟩ := Option.map_eq_some_iff.mp found
    rfl
  before_entry found := by
    obtain ⟨_, _, rfl⟩ := Option.map_eq_some_iff.mp found
    rfl

/-- One call takes a step, or starts, and the others stay as they are. -/
theorem Logged.change {s : State} {i : Nat} {calls : Processes Disk Call} (logged : Logged s)
    (others : ∀ j, j ≠ i → calls.procs[j]? = s.calls.procs[j]?)
    (settled : ∀ e, State.entry s.calls i = some e → State.entry calls i = some e)
    (running : ∀ c, s.calls.procs[i]? = some c → c.phase.isEnded = false)
    (before : ∀ c, calls.procs[i]? = some c → ∀ j ∈ c.before, j ∈ s.ended) :
    Logged ⟨calls, s.logged i calls⟩ := by
  have shown : callView.Logged s.calls.procs s.log :=
    ⟨logged.listed, logged.known, logged.distinct, logged.earlier, logged.ordered⟩
  obtain ⟨listed, known, distinct, earlier, ordered⟩ := shown.change others settled running before
  exact ⟨listed, known, distinct, earlier, ordered⟩

end Takode.Streams
