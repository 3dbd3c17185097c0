import Takode.Drafts.Sparing
import Takode.Drafts.Tracking

/-!
# Draft sync converges

In a run that meets the condition, a tab that has nothing on its way and has heard
everything holds the server's value, whatever the other tabs are doing. In every run
no change overwrites a local edit that the tab has not sent.
-/

namespace Takode.Drafts

variable {V : Type} [DecidableEq V]

namespace Session

/-- A connected tab with no timer, no write in flight and nothing undelivered has the value that
the server has. -/
def Converged (s : Session V) : Prop :=
  ∀ (i : Nat) (t : Tab V), s.tabs[i]? = some t → t.connected = true → t.isPending = false →
    t.inbox = [] → t.value = s.server.value

theorem Keeps.converged {V : Type} {s : Session V} (inv : s.Keeps) : s.Converged := by
  intro i t found connected rest empty
  obtain ⟨records, hears, quiet⟩ := inv.tabs i t found
  obtain ⟨same, deferred, missed⟩ := quiet rest
  have idle : t.inFlight = none := (Tab.isPending_eq_false.mp rest).2
  suffices s.server.last ≤ t.known from same.trans (records.right this)
  cases hears with
  | known knows => exact knows
  | inbox m listed =>
    rw [empty] at listed
    cases listed
  | deferred change kept => cases deferred.symm.trans kept
  | flight sent revision flying => cases idle.symm.trans flying
  | missed late => exact late.trans missed
  | away disconnected => cases connected.symm.trans disconnected

end Session

/-- The tabs converge in every run whose steps meet the condition; and in every run a step that is
not an edit in the tab leaves a value alone that the tab has not sent. -/
theorem drafts_converge (kind : DraftKind V) :
    (∀ s, (draftSync kind).Reaches (fun s event => s.admits kind event = true) s →
      s.Converged) ∧
    ∀ (s s' : Session V) (event : Event V) (i : Nat) (t t' : Tab V),
      (draftSync kind).Reachable s → s.step kind event = some s' →
      s.tabs[i]? = some t → s'.tabs[i]? = some t' →
      (∀ value, event ≠ .edit i value) → t'.value = t.value ∨ t.value = t.sentValue := by
  refine ⟨fun s reached => ?_, ?_⟩
  · suffices s.Keeps from this.converged
    induction reached with
    | start =>
      refine ⟨⟨le_rfl, le_rfl, fun _ => rfl⟩, fun i t here => ?_⟩
      cases here
    | step _ admitted taken inv => exact inv.step admitted taken
  · intro s s' event i t t' reached taken before after
    exact ((steady_of_reachable reached).step taken).2 i t t' before after

section Runs

/-- A snapshot always names the composer's draft. -/
def composer : DraftKind Nat := ⟨id, true⟩

def needsInput : DraftKind Nat := ⟨id, false⟩

/-- The server drops an answer that is blank, such as `9`. -/
def guidedReview : DraftKind Nat :=
  ⟨fun value => if value = some 9 then none else value, false⟩

/-- Every tab is connected and has heard everything, and nothing is on its way. -/
def Session.settled (s : Session Nat) : Bool :=
  s.tabs.all fun t => t.connected && !t.isPending && t.inbox.isEmpty

def twoTabs : List (Event Nat) :=
  [.open, .open, .connect 0, .deliver 0, .connect 1, .deliver 1]

/-- Tab `0` writes and edits again while the write is in flight; tab `1` writes in between. -/
def plainRun : List (Event Nat) :=
  twoTabs ++ [.edit 0 (some 1), .timer 0, .edit 0 (some 2), .arrive 0, .deliver 1, .edit 1 (some 3),
    .timer 1, .arrive 1, .deliver 0, .deliver 0, .ack 0, .timer 0, .arrive 0, .ack 1, .deliver 1,
    .ack 0, .deliver 0, .deliver 1]

theorem plain_drafts_converge :
    (∃ s, (draftSync composer).Reaches (fun s event => s.admits composer event = true) s ∧
      s.Converged ∧ s.settled = true ∧ s.tabs.length = 2 ∧ s.server.value = some 2) ∧
    ∃ (s s' : Session Nat) (t t' : Tab Nat), (draftSync composer).Reachable s ∧
      s.step composer (.deliver 0) = some s' ∧ s.tabs[0]? = some t ∧ s'.tabs[0]? = some t' ∧
      t.value ≠ t.sentValue ∧ t'.value = t.value := by
  refine ⟨?_, ?_⟩
  · obtain ⟨s, reached, settled⟩ := (draftSync composer).exists_reaches_of_run
      (Session.admits composer) (fun s => s.settled = true ∧ s.tabs.length = 2 ∧
        s.server.value = some 2) plainRun (by decide +kernel)
    exact ⟨s, reached, (drafts_converge composer).1 s reached, settled⟩
  · -- The change of tab `1` comes while the second edit of tab `0` is unsent.
    obtain ⟨s, reached, before, after⟩ := (draftSync composer).exists_reaches_of_run
      (fun _ _ => true) (fun s => (s.tabs[0]?.any fun t => t.value ≠ t.sentValue) = true ∧
        ((s.step composer (.deliver 0)).any fun s' => s'.tabs[0]?.isSome) = true)
      (plainRun.take 15) (by decide +kernel)
    obtain ⟨t, found, unsent⟩ := (Option.any_eq_true _ _).mp before
    obtain ⟨s', taken, there⟩ := (Option.any_eq_true _ _).mp after
    obtain ⟨t', found'⟩ := Option.isSome_iff_exists.mp there
    have unsent : t.value ≠ t.sentValue := by simpa using unsent
    have spared := (drafts_converge composer).2 s s' (.deliver 0) 0 t t' reached.reachable taken
      found found' (fun _ edited => by cases edited)
    exact ⟨s, s', t, t', reached.reachable, taken, found, found', unsent,
      spared.resolve_right unsent⟩

/-- Tab `0` undoes an edit while its write is in flight, and tab `1` writes after it. -/
def undoneRun : List (Event Nat) :=
  twoTabs ++ [.edit 0 (some 1), .timer 0, .edit 0 (some 2), .edit 0 (some 1), .arrive 0, .deliver 1,
    .edit 1 (some 3), .timer 1, .arrive 1, .ack 1, .deliver 1, .deliver 0, .deliver 0, .ack 0]

/-- Tab `0` drops the change of tab `1` for an edit that it then undoes. -/
def droppedRun : List (Event Nat) :=
  twoTabs ++ [.edit 0 (some 1), .timer 0, .arrive 0, .deliver 1, .edit 1 (some 3), .timer 1, .arrive 1,
    .ack 1, .deliver 1, .deliver 0, .deliver 0, .edit 0 (some 2), .ack 0, .edit 0 (some 1), .timer 0]

/-- The acknowledgement of a write is lost, and its edit undone. -/
def unacknowledgedRun : List (Event Nat) :=
  twoTabs ++ [.edit 0 (some 1), .timer 0, .arrive 0, .deliver 0, .deliver 1, .fail 0, .edit 0 none]

/-- Tab `1` clears the draft while tab `0`, which clears it too, is away. -/
def leftOutRun : List (Event Nat) :=
  twoTabs ++ [.edit 0 (some 1), .timer 0, .arrive 0, .ack 0, .deliver 0, .deliver 1, .edit 0 none,
    .arrive 0, .deliver 1, .edit 1 (some 3), .timer 1, .arrive 1, .ack 1, .deliver 1, .deliver 0,
    .deliver 0, .disconnect 0, .edit 1 none, .arrive 1, .ack 1, .deliver 1, .connect 0, .deliver 0,
    .ack 0]

/-- A blank answer is written. -/
def blankRun : List (Event Nat) :=
  twoTabs ++ [.edit 0 (some 9), .timer 0, .arrive 0, .ack 0, .deliver 0, .deliver 1]

/-- A settled state in which a tab differs from the server. -/
def Session.diverged (s : Session Nat) : Bool :=
  s.settled && s.tabs.any fun t => t.value ≠ s.server.value

theorem drafts_diverge :
    (∃ s, (draftSync composer).Reachable s ∧ s.diverged = true ∧ s.server.value = some 3) ∧
    (∃ s, (draftSync composer).Reachable s ∧ s.diverged = true ∧ s.server.value = some 1) ∧
    (∃ s, (draftSync composer).Reachable s ∧ s.diverged = true ∧ s.server.value = some 3) ∧
    (∃ s, (draftSync needsInput).Reachable s ∧ s.diverged = true ∧ s.server.value = none) ∧
    ∃ s, (draftSync guidedReview).Reachable s ∧ s.diverged = true ∧ s.server.value = none := by
  have diverges (kind : DraftKind Nat) (value : Option Nat) (events : List (Event Nat))
      (ran : (((draftSync kind).run (fun _ _ => true) (draftSync kind).start events).any fun s =>
        decide (s.diverged = true ∧ s.server.value = value)) = true) :
      ∃ s, (draftSync kind).Reachable s ∧ s.diverged = true ∧ s.server.value = value := by
    obtain ⟨s, reached, diverged⟩ := (draftSync kind).exists_reaches_of_run _ _ events ran
    exact ⟨s, reached.reachable, diverged⟩
  refine ⟨?_, ?_, ?_, ?_, ?_⟩
  · exact diverges composer (some 3) undoneRun (by decide +kernel)
  · exact diverges composer (some 1) unacknowledgedRun (by decide +kernel)
  · exact diverges composer (some 3) droppedRun (by decide +kernel)
  · exact diverges needsInput none leftOutRun (by decide +kernel)
  · exact diverges guidedReview none blankRun (by decide +kernel)

end Runs

end Takode.Drafts
