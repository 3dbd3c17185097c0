import Takode.Drafts.Sync

/-!
# An unsent edit is never overwritten

In every run, whatever is lost. A slot changes the local value only when nothing is
pending, and then the value is the one the server is known to have, or when it
settles with nothing to send.
-/

namespace Takode.Drafts

variable {V : Type}

namespace Tab

/-- What the tab sent last or, with no write in flight, knows the server to have. -/
def sentValue (t : Tab V) : Option V := t.inFlight.elim t.serverValue (·.sent)

/-- What holds of a tab in every state: a slot that is not pending has nothing to send. -/
structure Steady (t : Tab V) : Prop where
  apart : t.timer = true → t.inFlight = none
  rest : t.isPending = false → t.value = t.serverValue

/-- After what a tab does by itself: its value is the same, unless it had nothing to send. -/
structure Spares (t t' : Tab V) : Prop where
  steady : t'.Steady
  value : t'.value = t.value ∨ t.value = t.sentValue

variable {t t' : Tab V}

theorem sentValue_idle (idle : t.inFlight = none) : t.sentValue = t.serverValue := by
  simp [sentValue, idle]

theorem sentValue_of_not_pending (rest : t.isPending = false) : t.sentValue = t.serverValue :=
  sentValue_idle (by simp_all [isPending])

theorem Steady.of_pending (apart : t.timer = true → t.inFlight = none)
    (pending : t.isPending = true) : t.Steady :=
  ⟨apart, fun rest => absurd (pending.symm.trans rest) (by simp)⟩

theorem applyChange_steady (rest : t.isPending = false) (change : Change V) :
    (t.applyChange change).Steady where
  apart := fun timer => by
    have waiting : t.timer = true := timer
    simp [isPending, waiting] at rest
  rest := fun _ => rfl

variable [DecidableEq V]

theorem settles_steady (rest : t.isPending = false) (same : t.value = t.serverValue)
    (sendDraft : Tab V → Tab V) : (t.afterSettledBy sendDraft).Steady := by
  have apart : t.timer = true → t.inFlight = none := fun waiting => by
    simp [isPending, waiting] at rest
  unfold afterSettledBy
  split
  · have rest' : t.dropDeferred.isPending = false := rest
    have same' : t.dropDeferred.value = t.dropDeferred.serverValue := same
    rw [handleLocalDraftChangeBy, if_pos (by simp [rest', same'])]
    exact ⟨apart, fun _ => same⟩
  · split
    · split
      · have rest' : { t with deferred := none }.isPending = false := rest
        exact applyChange_steady rest' _
      · exact ⟨apart, fun _ => same⟩
    · exact ⟨apart, fun _ => same⟩

theorem sendDraft_spares : t.Spares t.sendDraft := by
  unfold sendDraft sendDraftBy
  extract_lets waiting
  split
  · rename_i flying
    exact ⟨.of_pending (by simp) (by simp [isPending, flying]), .inl rfl⟩
  · rename_i idle
    have idle : t.inFlight = none := by simpa using idle
    split
    · rename_i same
      have rest : waiting.isPending = false := by
        show (false || t.inFlight.isSome) = false
        simp [idle]
      refine ⟨settles_steady rest same id, .inr ?_⟩
      rw [sentValue_idle idle]
      exact same
    · exact ⟨.of_pending (by simp) (by simp [isPending]), .inl rfl⟩

theorem handleLocalDraftChange_spares (apart : t.timer = true → t.inFlight = none) :
    t.Spares t.handleLocalDraftChange := by
  unfold handleLocalDraftChange handleLocalDraftChangeBy
  split
  · rename_i settled
    simp only [Bool.and_eq_true, Bool.not_eq_true', decide_eq_true_eq] at settled
    exact ⟨⟨apart, fun _ => settled.2⟩, .inl rfl⟩
  · split
    · exact sendDraft_spares
    · split
      · rename_i flying
        exact ⟨.of_pending apart (by simp [isPending, flying]), .inl rfl⟩
      · rename_i idle
        exact ⟨.of_pending (fun _ => by simpa using idle) (by simp [isPending]), .inl rfl⟩

theorem afterSettled_spares (rest : t.isPending = false) : t.Spares t.afterSettled := by
  by_cases same : t.value = t.serverValue
  · refine ⟨settles_steady rest same sendDraft, .inr ?_⟩
    rw [same, sentValue_of_not_pending rest]
  · unfold afterSettled afterSettledBy
    rw [if_pos (by simp [same])]
    have rest' : t.dropDeferred.isPending = false := rest
    have spares : t.dropDeferred.Spares t.dropDeferred.handleLocalDraftChange :=
      handleLocalDraftChange_spares fun waiting => by simp [isPending, waiting] at rest'
    exact ⟨spares.steady, spares.value⟩

theorem acknowledged_spares (steady : t.Steady) {sent : Option V} {revision : Nat}
    (flying : t.inFlight = some ⟨sent, some revision⟩) :
    t.Spares (t.acknowledged sent revision).afterSettled := by
  have rest : (t.acknowledged sent revision).isPending = false := by
    cases waiting : t.timer with
    | true => cases (steady.apart waiting).symm.trans flying
    | false => simp [acknowledged, isPending, waiting]
  obtain ⟨steady', value⟩ := afterSettled_spares rest
  refine ⟨steady', value.imp_right fun same => ?_⟩
  rw [sentValue_of_not_pending rest] at same
  show t.value = t.inFlight.elim t.serverValue (·.sent)
  rw [flying]
  exact same

theorem applyRemoteDraftChange_spares {V : Type} {t : Tab V} (steady : t.Steady) (i : Nat)
    (change : Change V) : t.Spares (t.applyRemoteDraftChange i change) := by
  unfold applyRemoteDraftChange
  split
  · exact ⟨steady, .inl rfl⟩
  · split
    · exact ⟨steady, .inl rfl⟩
    · split
      · rename_i pending
        split
        · exact ⟨.of_pending steady.apart pending, .inl rfl⟩
        · exact ⟨steady, .inl rfl⟩
      · rename_i idle
        have rest : t.isPending = false := Bool.eq_false_iff.mpr idle
        refine ⟨applyChange_steady rest change, .inr ?_⟩
        rw [steady.rest rest, sentValue_of_not_pending rest]

theorem applySnapshotChange_spares (steady : t.Steady) (change : Change V) :
    t.Spares (t.applySnapshotChange change) := by
  unfold applySnapshotChange
  split
  · exact ⟨steady, .inl rfl⟩
  · split
    · rename_i pending
      split
      · exact ⟨.of_pending steady.apart pending, .inl rfl⟩
      · exact ⟨steady, .inl rfl⟩
    · rename_i idle
      have rest : t.isPending = false := Bool.eq_false_iff.mpr idle
      split
      · rename_i same
        exact ⟨⟨steady.apart, fun _ => same⟩, .inl rfl⟩
      · refine ⟨applyChange_steady rest change, .inr ?_⟩
        rw [steady.rest rest, sentValue_of_not_pending rest]

theorem handleMessage_spares (steady : t.Steady) (kind : DraftKind V) (i : Nat) (m : Message V) :
    t.Spares (t.handleMessage kind i m) := by
  cases m with
  | change change => exact applyRemoteDraftChange_spares steady i change
  | snapshot drafts =>
    show t.Spares (t.applySessionDraftsSnapshot kind drafts)
    unfold applySessionDraftsSnapshot
    split
    · exact applySnapshotChange_spares steady _
    · split
      · exact ⟨⟨steady.apart, steady.rest⟩, .inl rfl⟩
      · exact ⟨⟨steady.apart, steady.rest⟩, .inl rfl⟩

theorem receive_steady {V : Type} {t : Tab V} (steady : t.Steady) (m : Message V) :
    (t.receive m).Steady ∧ (t.receive m).value = t.value := by
  unfold receive
  split
  · exact ⟨⟨steady.apart, steady.rest⟩, rfl⟩
  · exact ⟨steady, rfl⟩

end Tab

namespace Session

/-- Every tab of the state is steady. -/
def Steady (s : Session V) : Prop := ∀ (i : Nat) (t : Tab V), s.tabs[i]? = some t → t.Steady

variable {s s' : Session V}

theorem Steady.atTab (steady : s.Steady) {i : Nat} {f : Tab V → Option (Tab V)}
    (taken : s.atTab i f = some s') {P : Nat → Tab V → Tab V → Prop} (same : ∀ j t, P j t t)
    (spares : ∀ t t' : Tab V, t.Steady → f t = some t' → t'.Steady ∧ P i t t') :
    s'.Steady ∧ ∀ (j : Nat) (t t' : Tab V), s.tabs[j]? = some t → s'.tabs[j]? = some t' → P j t t' := by
  obtain ⟨t', bound, rfl⟩ := Option.map_eq_some_iff.mp taken
  obtain ⟨t, found, became⟩ := Option.bind_eq_some_iff.mp bound
  have inside : i < s.tabs.length := (List.getElem?_eq_some_iff.mp found).1
  obtain ⟨steady', related⟩ := spares t t' (steady i t found) became
  refine ⟨fun j u here => ?_, fun j u u' before after => ?_⟩
  · by_cases at_tab : i = j
    · subst at_tab
      rw [List.getElem?_set_self inside] at here
      exact Option.some.inj here ▸ steady'
    · rw [List.getElem?_set_ne at_tab] at here
      exact steady j u here
  · by_cases at_tab : i = j
    · subst at_tab
      rw [List.getElem?_set_self inside] at after
      cases found.symm.trans before
      exact Option.some.inj after ▸ related
    · rw [List.getElem?_set_ne at_tab, before] at after
      exact Option.some.inj after ▸ same j u

/-- The local value of the tab `i` is the same after the step, which is not an edit of its user, or
the tab had no edit that it had not sent. -/
def Unharmed (event : Event V) (i : Nat) (t t' : Tab V) : Prop :=
  (∀ value, event ≠ .edit i value) → t'.value = t.value ∨ t.value = t.sentValue

theorem Steady.arrive (steady : s.Steady) {kind : DraftKind V} {i : Nat}
    (taken : s.arrive kind i = some s') :
    s'.Steady ∧ ∀ (j : Nat) (t t' : Tab V), s.tabs[j]? = some t → s'.tabs[j]? = some t' → t'.value = t.value := by
  unfold Session.arrive at taken
  split at taken
  · rename_i t found
    split at taken
    · rename_i sent flying
      cases taken
      have inside : i < s.tabs.length := (List.getElem?_eq_some_iff.mp found).1
      have received (j : Nat) (u' : Tab V) (m : Message V)
          (here : ((s.tabs.set i { t with
            inFlight := some ⟨sent, some (s.server.applySessionDraftWrite kind sent).revision⟩ }).map
              (·.receive m))[j]? = some u') :
          ∃ u, s.tabs[j]? = some u ∧ u'.Steady ∧ u'.value = u.value := by
        obtain ⟨w, was, rfl⟩ := Option.map_eq_some_iff.mp ((List.getElem?_map ..).symm.trans here)
        by_cases at_tab : i = j
        · subst at_tab
          rw [List.getElem?_set_self inside] at was
          obtain rfl := Option.some.inj was
          refine ⟨t, found, Tab.receive_steady (.of_pending (fun waiting => ?_) ?_) m⟩
          · cases flying.symm.trans ((steady i t found).apart waiting)
          · simp [Tab.isPending]
        · rw [List.getElem?_set_ne at_tab] at was
          exact ⟨w, was, Tab.receive_steady (steady j w was) m⟩
      refine ⟨fun j u' here => ?_, fun j u u' before after => ?_⟩
      · obtain ⟨_, _, steady', _⟩ := received j u' _ here
        exact steady'
      · obtain ⟨_, before', _, value⟩ := received j u' _ after
        cases before.symm.trans before'
        exact value
    · cases taken
  · cases taken

theorem Steady.step [DecidableEq V] (steady : s.Steady) {kind : DraftKind V} {event : Event V}
    (taken : s.step kind event = some s') : s'.Steady ∧
      ∀ (i : Nat) (t t' : Tab V), s.tabs[i]? = some t → s'.tabs[i]? = some t' → Unharmed event i t t' := by
  have same : ∀ i t, Unharmed event i t t := fun _ _ _ => .inl rfl
  cases event with
  | «open» =>
    cases taken
    refine ⟨fun i t here => ?_, fun i t t' before after => ?_⟩
    · rcases Nat.lt_or_ge i s.tabs.length with old | is_new
      · rw [List.getElem?_append_left old] at here
        exact steady i t here
      · rw [List.getElem?_append_right is_new] at here
        obtain rfl := List.mem_singleton.mp (List.mem_of_getElem? here)
        exact ⟨fun _ => rfl, fun _ => rfl⟩
    · rw [List.getElem?_append_left (List.getElem?_eq_some_iff.mp before).1, before] at after
      exact Option.some.inj after ▸ same i t
  | edit i value =>
    refine steady.atTab taken same fun t t' steady became => ?_
    obtain rfl := Option.some.inj became
    have spares := Tab.handleLocalDraftChange_spares
      (show ({ t with value := value } : Tab V).timer = true → _ from steady.apart)
    exact ⟨spares.steady, fun not_edited => absurd rfl (not_edited value)⟩
  | timer i =>
    refine steady.atTab taken same fun t t' _ became => ?_
    obtain ⟨_, ⟨⟩⟩ := Option.ite_none_right_eq_some.mp became
    exact ⟨Tab.sendDraft_spares.steady, fun _ => Tab.sendDraft_spares.value⟩
  | arrive i =>
    obtain ⟨steady', value⟩ := steady.arrive taken
    exact ⟨steady', fun j t t' before after _ => .inl (value j t t' before after)⟩
  | ack i =>
    refine steady.atTab taken same fun t t' steady became => ?_
    split at became
    · rename_i sent revision flying
      cases became
      have spares := Tab.acknowledged_spares steady flying
      exact ⟨spares.steady, fun _ => spares.value⟩
    · cases became
  | fail i =>
    refine steady.atTab taken same fun t t' steady became => ?_
    obtain ⟨flight, _, rfl⟩ := Option.map_eq_some_iff.mp became
    exact ⟨.of_pending (fun _ => rfl) (by simp [Tab.failed, Tab.isPending]), fun _ => .inl rfl⟩
  | deliver i =>
    refine steady.atTab taken same fun t t' steady became => ?_
    split at became
    · rename_i m rest first
      cases became
      have steady' : ({ t with inbox := rest } : Tab V).Steady := ⟨steady.apart, steady.rest⟩
      have spares := Tab.handleMessage_spares steady' kind i m
      exact ⟨spares.steady, fun _ => spares.value⟩
    · cases became
  | disconnect i =>
    refine steady.atTab taken same fun t t' steady became => ?_
    obtain rfl := Option.some.inj became
    exact ⟨⟨steady.apart, steady.rest⟩, fun _ => .inl rfl⟩
  | connect i =>
    refine steady.atTab taken same fun t t' steady became => ?_
    obtain ⟨_, ⟨⟩⟩ := Option.ite_none_left_eq_some.mp became
    exact ⟨⟨steady.apart, steady.rest⟩, fun _ => .inl rfl⟩
  | subscribe i =>
    refine steady.atTab taken same fun t t' steady became => ?_
    obtain ⟨_, ⟨⟩⟩ := Option.ite_none_right_eq_some.mp became
    obtain ⟨steady', value⟩ := Tab.receive_steady steady (.snapshot s.server)
    exact ⟨steady', fun _ => .inl value⟩
  | otherWrite =>
    cases taken
    refine ⟨steady, fun i t t' before after => ?_⟩
    cases before.symm.trans after
    exact same i t

end Session

theorem steady_of_reachable [DecidableEq V] {kind : DraftKind V} {s : Session V}
    (reached : (draftSync kind).Reachable s) : s.Steady := by
  induction reached with
  | start =>
    intro i t here
    cases here
  | step _ _ taken steady => exact (steady.step taken).1

end Takode.Drafts
