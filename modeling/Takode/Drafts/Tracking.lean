import Mathlib.Order.MinMax
import Mathlib.Order.Nat
import Takode.Drafts.Sync

/-!
# The tabs come to the server's value

A tab that has not the last write yet will still hear of it: the write is in its
inbox, deferred, its own and not yet acknowledged, or one that the slot passed over.
The last case ends well only if the tab does not settle before it has sent a write
of its own, or heard of a later one.
-/

namespace Takode.Drafts

variable {V : Type}

namespace Server

theorem entryRevision_written (server : Server V) (kind : DraftKind V) (write : Option V) :
    (server.applySessionDraftWrite kind write).entryRevision = server.revision + 1 := by
  simp only [entryRevision, applySessionDraftWrite]
  cases kind.normalize write <;> rfl

theorem value_written (server : Server V) (kind : DraftKind V) (write : Option V) :
    (server.applySessionDraftWrite kind write).value = kind.normalize write := by
  simp [value, applySessionDraftWrite, Function.comp_def]

/-- The last write is not newer than the entry, nor that than the session. -/
structure Dated (server : Server V) : Prop where
  last_le : server.last ≤ server.entryRevision
  entry_le : server.entryRevision ≤ server.revision
  unwritten : server.last = 0 → server.value = none

theorem entryRevision_otherWrite (server : Server V) : server.entryRevision ≤
    Server.entryRevision { server with revision := server.revision + 1 } := by
  cases entry : server.entry with
  | none => simp [Server.entryRevision, entry]
  | some written => simp [Server.entryRevision, entry]

theorem Dated.otherWrite {server : Server V} (dated : server.Dated) :
    Dated { server with revision := server.revision + 1 } where
  last_le := dated.last_le.trans server.entryRevision_otherWrite
  entry_le := by
    have bound := dated.entry_le
    rw [entryRevision] at bound ⊢
    cases entry : server.entry with
    | none => exact le_rfl
    | some written =>
      rw [entry] at bound
      exact Nat.le_succ_of_le bound
  unwritten := dated.unwritten

theorem dated_written (server : Server V) (kind : DraftKind V) (write : Option V) :
    (server.applySessionDraftWrite kind write).Dated where
  last_le := (server.entryRevision_written kind write).ge
  entry_le := (server.entryRevision_written kind write).le
  unwritten := fun zero => absurd zero (Nat.succ_ne_zero _)

end Server

namespace Message

/-- The revision of the change that the message carries. -/
def revision : Message V → Nat
  | change write => write.revision
  | snapshot drafts => drafts.entryRevision

def value : Message V → Option V
  | change write => write.value
  | snapshot drafts => drafts.value

/-- It is not the echo of a write of the tab `i`. -/
def foreign (i : Nat) : Message V → Prop
  | change write => write.client ≠ some i
  | snapshot _ => True

/-- The last write that the server had applied. -/
def last : Message V → Nat
  | change write => write.revision
  | snapshot drafts => drafts.last

end Message

namespace Tab

/-- The tab's server value is the server's at this revision. -/
def known (t : Tab V) : Nat := max t.revision t.checked

section
variable [DecidableEq V]

/-- The condition: when the slot settles with nothing to send, the tab comes to know the highest
revision it has passed over. -/
def upToDate (t : Tab V) : Bool :=
  t.value ≠ t.serverValue ||
    if t.resendAfterFlight then t.dropDeferred.missed ≤ t.known
    else t.missed ≤ max t.known t.deferredRevision

end

end Tab

/-- The condition on a step: a slot that settles is up to date, and the server keeps a write as it
was sent. -/
def Session.admits [DecidableEq V] (kind : DraftKind V) (s : Session V) : Event V → Bool
  | .edit i value => s.tabs[i]?.all fun t =>
    value ≠ none || t.inFlight.isSome || { t with value := value }.upToDate
  | .timer i => s.tabs[i]?.all Tab.upToDate
  | .arrive i => s.tabs[i]?.all fun t => t.inFlight.all fun flight =>
    kind.normalize flight.sent = flight.sent
  | .ack i => s.tabs[i]?.all fun t => t.inFlight.all fun flight =>
    (t.acknowledged flight.sent (flight.applied.getD 0)).upToDate
  | _ => true

/-- How the tab `i` comes to know of the server's last write. -/
inductive Hears (server : Server V) (i : Nat) (t : Tab V) : Prop
  | known (knows : server.last ≤ t.known)
  | inbox (m : Message V) (listed : m ∈ t.inbox) (foreign : m.foreign i)
      (late : server.last ≤ m.revision)
  | deferred (change : Change V) (kept : t.deferred = some change)
      (late : server.last ≤ change.revision)
  | flight (sent : Option V) (revision : Nat) (flying : t.inFlight = some ⟨sent, some revision⟩)
      (late : server.last ≤ revision)
  | missed (late : server.last ≤ t.missed)
  | away (disconnected : t.connected = false)

/-- What a tab holds is what the server has had; what is as late as the last write is that write. -/
structure Records (server : Server V) (t : Tab V) : Prop where
  apart : t.timer = true → t.inFlight = none
  revision_le : t.revision ≤ server.revision
  checked_le : t.checked ≤ server.entryRevision
  right : server.last ≤ t.known → t.serverValue = server.value
  checked_inbox : ∀ m ∈ t.inbox, t.checked ≤ m.revision
  inbox_le : ∀ m ∈ t.inbox, m.revision ≤ server.entryRevision
  inbox_right : ∀ m ∈ t.inbox, server.last ≤ m.revision →
    m.value = server.value ∧ server.last ≤ m.last
  sorted : t.inbox.Pairwise fun m m' => m.revision ≤ m'.revision
  checked_deferred : ∀ change, t.deferred = some change → t.checked ≤ change.revision
  deferred_le : ∀ change, t.deferred = some change → change.revision ≤ server.revision
  deferred_right : ∀ change, t.deferred = some change → server.last ≤ change.revision →
    change.value = server.value
  flight_newer : ∀ sent revision, t.inFlight = some ⟨sent, some revision⟩ →
    t.known < revision ∧ revision ≤ server.revision
  flight_right : ∀ sent revision, t.inFlight = some ⟨sent, some revision⟩ →
    server.last ≤ revision → sent = server.value

/-- What holds of a tab in every state of a run that meets the condition: a slot that is not pending
has nothing to send, and has passed over nothing it does not know. -/
structure Follows (server : Server V) (i : Nat) (t : Tab V) : Prop where
  records : Records server t
  hears : Hears server i t
  quiet : t.isPending = false → t.value = t.serverValue ∧ t.deferred = none ∧ t.missed ≤ t.known

variable {server : Server V} {i : Nat} {t t' : Tab V}

theorem Hears.imp (hears : Hears server i t) (known : t.known ≤ t'.known)
    (inbox : ∀ m ∈ t.inbox, m.foreign i → server.last ≤ m.revision → Hears server i t')
    (deferred : ∀ change, t.deferred = some change → server.last ≤ change.revision →
      Hears server i t')
    (flight : ∀ sent revision, t.inFlight = some ⟨sent, some revision⟩ →
      server.last ≤ revision → Hears server i t')
    (missed : t.missed ≤ t'.missed) (connected : t'.connected = t.connected) :
    Hears server i t' := by
  cases hears with
  | known knows => exact .known (knows.trans known)
  | inbox m listed foreign late => exact inbox m listed foreign late
  | deferred change kept late => exact deferred change kept late
  | flight sent revision flying late => exact flight sent revision flying late
  | missed late => exact .missed (late.trans missed)
  | away disconnected => exact .away (connected.trans disconnected)

theorem Hears.keep (hears : Hears server i t) (known : t.known ≤ t'.known)
    (inbox : t'.inbox = t.inbox) (deferred : t'.deferred = t.deferred)
    (flight : t'.inFlight = t.inFlight) (missed : t.missed ≤ t'.missed)
    (connected : t'.connected = t.connected) : Hears server i t' :=
  hears.imp known (fun m listed => .inbox m (inbox ▸ listed))
    (fun change kept => .deferred change (deferred.trans kept))
    (fun sent revision flying => .flight sent revision (flight.trans flying)) missed connected

namespace Tab

theorem isPending_eq_false : t.isPending = false ↔ t.timer = false ∧ t.inFlight = none := by
  simp [isPending]

theorem applyChange_follows (records : Records server t) (rest : t.isPending = false)
    (empty : t.deferred = none) {change : Change V}
    (newer : t.revision ≤ change.revision) (checked : t.checked ≤ change.revision)
    (bound : change.revision ≤ server.revision) (missed : t.missed ≤ change.revision)
    (right : server.last ≤ change.revision → change.value = server.value)
    (hears : ¬server.last ≤ change.revision → Hears server i t) :
    Follows server i (t.applyChange change) := by
  have known : (t.applyChange change).known = change.revision := by
    simp [Tab.known, applyChange, newer, checked]
  obtain ⟨_, idle⟩ := isPending_eq_false.mp rest
  refine ⟨{ records with
      revision_le := ?_, right := ?_, flight_newer := ?_ }, ?_, fun _ => ⟨rfl, empty, ?_⟩⟩
  · exact max_le records.revision_le bound
  · rw [known]
    exact right
  · intro sent revision flying
    rw [show t.inFlight = _ from flying] at idle
    cases idle
  · by_cases late : server.last ≤ change.revision
    · exact .known (known ▸ late)
    · refine (hears late).keep ?_ rfl rfl rfl le_rfl rfl
      rw [known]
      exact max_le newer checked
  · rw [known]
    exact missed

theorem forget_records (records : Records server t) :
    Records server { t with deferred := none } :=
  { records with
    checked_deferred := by simp
    deferred_le := by simp
    deferred_right := by simp }

theorem dropDeferred_records (records : Records server t) : Records server t.dropDeferred :=
  { forget_records records with }

theorem dropDeferred_hears (hears : Hears server i t) : Hears server i t.dropDeferred := by
  refine hears.imp le_rfl (fun m listed => .inbox m listed) ?_ (fun sent revision flying => .flight sent revision flying) ?_ rfl
  · intro change kept late
    have same : t.deferredRevision = change.revision := by simp [deferredRevision, kept]
    by_cases newer : t.deferredRevision > t.revision
    · refine .missed ?_
      simp only [dropDeferred, newer, if_true]
      exact (same ▸ late).trans (le_max_right _ _)
    · exact .known ((same ▸ late).trans ((not_lt.mp newer).trans (le_max_left _ _)))
  · simp only [dropDeferred]
    split
    · exact le_max_left _ _
    · exact le_rfl

variable [DecidableEq V]

/-- A slot settles with nothing to send. -/
theorem settles (records : Records server t) (hears : Hears server i t)
    (rest : t.isPending = false) (same : t.value = t.serverValue) (ok : t.upToDate = true)
    (sendDraft : Tab V → Tab V) : Follows server i (t.afterSettledBy sendDraft) := by
  simp only [upToDate, same, ne_eq, not_true_eq_false, decide_false, Bool.false_or] at ok
  unfold afterSettledBy
  by_cases resend : t.resendAfterFlight = true
  · have rest' : t.dropDeferred.isPending = false := rest
    have same' : t.dropDeferred.value = t.dropDeferred.serverValue := same
    rw [if_pos (by simp [resend]), handleLocalDraftChangeBy, if_pos (by simp [rest', same'])]
    refine ⟨dropDeferred_records records, dropDeferred_hears hears, fun _ => ⟨same, rfl, ?_⟩⟩
    rw [if_pos resend] at ok
    exact of_decide_eq_true ok
  · rw [if_neg resend, decide_eq_true_eq] at ok
    rw [if_neg (by simp [resend, same])]
    cases kept : t.deferred with
    | none =>
      simp only [deferredRevision, kept, Option.elim_none, Nat.max_zero] at ok
      exact ⟨records, hears, fun _ => ⟨same, kept, ok⟩⟩
    | some change =>
      simp only [deferredRevision, kept, Option.elim_some] at ok
      have checked := records.checked_deferred change kept
      have hears' (older : server.last ≤ change.revision → Hears server i { t with deferred := none }) :
          Hears server i { t with deferred := none } := by
        refine hears.imp le_rfl (fun m listed => .inbox m listed) ?_ (fun sent revision flying => .flight sent revision flying)
          le_rfl rfl
        intro change' kept' late
        obtain rfl := Option.some.inj (kept.symm.trans kept')
        exact older late
      show Follows server i (if change.revision > t.revision then _ else _)
      split
      · rename_i newer
        apply applyChange_follows (forget_records records) rest rfl (le_of_lt newer) checked
          (records.deferred_le change kept) ?_ (records.deferred_right change kept)
        · exact fun older => hears' fun late => absurd late older
        · exact ok.trans (max_le (max_le (le_of_lt newer) checked) le_rfl)
      · rename_i older
        have known : change.revision ≤ t.known := (not_lt.mp older).trans (le_max_left _ _)
        refine ⟨forget_records records, hears' fun late => .known (late.trans known), ?_⟩
        exact fun _ => ⟨same, rfl, ok.trans (max_le le_rfl known)⟩

theorem sendDraft_follows (records : Records server t) (hears : Hears server i t)
    (ok : t.inFlight = none → t.upToDate = true) : Follows server i t.sendDraft := by
  have hears' : Hears server i { t with timer := false } :=
    hears.keep le_rfl rfl rfl rfl le_rfl rfl
  have records' : Records server { t with timer := false } := { records with apart := by simp }
  unfold sendDraft sendDraftBy
  extract_lets waiting
  split
  · rename_i flying
    exact ⟨{ records' with }, hears'.keep le_rfl rfl rfl rfl le_rfl rfl, by simp [isPending, flying]⟩
  · rename_i idle
    have idle : t.inFlight = none := by simpa using idle
    split
    · rename_i same
      exact settles records' hears' (by simp [isPending, idle]) same (ok idle) id
    · refine ⟨{ records' with apart := by simp, flight_newer := by simp, flight_right := by simp },
        ?_, by simp [isPending]⟩
      refine hears'.imp le_rfl (fun m listed => .inbox m listed)
        (fun change kept => .deferred change kept) ?_ le_rfl rfl
      intro sent revision flying
      rw [show t.inFlight = _ from flying] at idle
      cases idle

theorem handleLocalDraftChange_follows (records : Records server t) (hears : Hears server i t)
    (quiet : t.isPending = false → t.value = t.serverValue → t.deferred = none ∧ t.missed ≤ t.known)
    (ok : t.value = none → t.inFlight = none → t.upToDate = true) :
    Follows server i t.handleLocalDraftChange := by
  unfold handleLocalDraftChange handleLocalDraftChangeBy
  split
  · rename_i settled
    simp only [Bool.and_eq_true, Bool.not_eq_true', decide_eq_true_eq] at settled
    exact ⟨records, hears, fun rest => ⟨settled.2, quiet rest settled.2⟩⟩
  · split
    · exact sendDraft_follows records hears (ok ‹_›)
    · split
      · rename_i flying
        exact ⟨{ records with }, hears.keep le_rfl rfl rfl rfl le_rfl rfl, by simp [isPending, flying]⟩
      · rename_i idle
        exact ⟨{ records with apart := fun _ => by simpa using idle },
          hears.keep le_rfl rfl rfl rfl le_rfl rfl, by simp [isPending]⟩

theorem afterSettled_follows (records : Records server t) (hears : Hears server i t)
    (rest : t.isPending = false) (ok : t.upToDate = true) : Follows server i t.afterSettled := by
  by_cases same : t.value = t.serverValue
  · exact settles records hears rest same ok sendDraft
  · unfold afterSettled afterSettledBy
    rw [if_pos (by simp [same])]
    apply handleLocalDraftChange_follows (dropDeferred_records records) (dropDeferred_hears hears)
    · exact fun _ same' => absurd same' same
    · intro _ _
      simp [upToDate, show t.dropDeferred.value ≠ t.dropDeferred.serverValue from same]

end Tab

theorem hears_of_kept {rest : List (Message V)} {revision : Nat}
    (kept : ¬t.deferred.all (·.revision < revision) = true) (late : server.last ≤ revision) :
    Hears server i { t with inbox := rest } := by
  obtain ⟨change, deferred, older⟩ : ∃ change, t.deferred = some change ∧
      ¬change.revision < revision := by simpa [Option.all_eq_false] using kept
  exact .deferred change deferred (late.trans (not_lt.mp older))

namespace Follows

variable {m : Message V} {rest : List (Message V)} (h : Follows server i t)
  (first : t.inbox = m :: rest)
include h first

theorem popped : Records server { t with inbox := rest } :=
  have inside : ∀ m' ∈ rest, m' ∈ t.inbox := fun _ listed => first ▸ List.mem_cons_of_mem _ listed
  { h.records with
    checked_inbox := fun m' listed => h.records.checked_inbox m' (inside m' listed)
    inbox_le := fun m' listed => h.records.inbox_le m' (inside m' listed)
    inbox_right := fun m' listed => h.records.inbox_right m' (inside m' listed)
    sorted := (List.pairwise_cons.mp (first ▸ h.records.sorted)).2 }

theorem hears_popped (heard : m.foreign i → server.last ≤ m.revision →
      Hears server i { t with inbox := rest }) :
    Hears server i { t with inbox := rest } := by
  refine h.hears.imp le_rfl ?_ (fun change kept => .deferred change kept)
    (fun sent revision flying => .flight sent revision flying) le_rfl rfl
  intro m' listed foreign late
  rcases List.mem_cons.mp (first ▸ listed) with rfl | listed
  · exact heard foreign late
  · exact .inbox m' listed foreign late

/-- The slot makes nothing of the message. -/
theorem ignored (heard : m.foreign i → server.last ≤ m.revision →
      Hears server i { t with inbox := rest }) :
    Follows server i { t with inbox := rest } :=
  ⟨h.popped first, h.hears_popped first heard, h.quiet⟩

variable {change : Change V} (revision : m.revision = change.revision)
  (value : m.value = change.value)
include revision value

/-- The slot defers the change of the message. -/
theorem defers (dated : server.Dated) (pending : t.isPending = true)
    (newer : t.deferred.all (·.revision < change.revision) = true) :
    Follows server i { t with inbox := rest, deferred := some change } := by
  have listed : m ∈ t.inbox := first ▸ List.mem_cons_self
  refine ⟨{ h.popped first with
    checked_deferred := ?_, deferred_le := ?_, deferred_right := ?_ }, ?_, ?_⟩
  · rintro _ ⟨⟩
    exact revision ▸ h.records.checked_inbox m listed
  · rintro _ ⟨⟩
    exact revision ▸ (h.records.inbox_le m listed).trans dated.entry_le
  · rintro _ ⟨⟩ late
    exact value ▸ (h.records.inbox_right m listed (revision ▸ late)).1
  · refine h.hears.imp le_rfl ?_ ?_ (fun sent revision flying => .flight sent revision flying)
      le_rfl rfl
    · intro m' listed' foreign late
      rcases List.mem_cons.mp (first ▸ listed') with rfl | listed'
      · exact .deferred change rfl (revision ▸ late)
      · exact .inbox m' listed' foreign late
    · intro change' kept late
      rw [kept] at newer
      exact .deferred change rfl (late.trans (le_of_lt (by simpa using newer)))
  · intro idle
    exact absurd (show t.isPending = false from idle) (by simp [pending])

/-- The slot applies the change of the message. -/
theorem applies (dated : server.Dated) (idle : t.isPending = false)
    (newer : t.revision ≤ change.revision) :
    Follows server i ({ t with inbox := rest }.applyChange change) := by
  have listed : m ∈ t.inbox := first ▸ List.mem_cons_self
  have checked : t.checked ≤ change.revision := revision ▸ h.records.checked_inbox m listed
  obtain ⟨_, empty, missed⟩ := h.quiet idle
  apply Tab.applyChange_follows (h.popped first) idle empty newer checked
  · exact revision ▸ (h.records.inbox_le m listed).trans dated.entry_le
  · exact missed.trans (max_le newer checked)
  · intro late
    exact value ▸ (h.records.inbox_right m listed (revision ▸ late)).1
  · intro older
    exact h.hears_popped first fun _ late => absurd (revision ▸ late) older

end Follows

namespace Follows

/-- The write is acknowledged, and the slot settles. -/
theorem acknowledged [DecidableEq V] (h : Follows server i t) {sent : Option V} {revision : Nat}
    (flying : t.inFlight = some ⟨sent, some revision⟩)
    (ok : (t.acknowledged sent revision).upToDate = true) :
    Follows server i (t.acknowledged sent revision).afterSettled := by
  obtain ⟨records, hears, _⟩ := h
  obtain ⟨newer, bound⟩ := records.flight_newer sent revision flying
  have known : (t.acknowledged sent revision).known = revision := by
    refine le_antisymm (max_le (max_le ?_ le_rfl) ?_) ?_
    · exact (le_max_left _ _).trans (le_of_lt newer)
    · exact (le_max_right _ _).trans (le_of_lt newer)
    · exact (le_max_right _ _).trans (le_max_left _ _)
  have timer : t.timer = false := by
    by_contra waiting
    cases (records.apart (by simpa using waiting)).symm.trans flying
  apply Tab.afterSettled_follows
  · exact { records with
      apart := fun _ => rfl
      revision_le := max_le records.revision_le bound
      right := fun late => records.flight_right sent revision flying (late.trans known.le)
      flight_newer := fun _ _ none => by cases none
      flight_right := fun _ _ none => by cases none }
  · refine hears.imp ((le_of_lt newer).trans known.ge) (fun m listed => .inbox m listed)
      (fun change kept => .deferred change kept) ?_ le_rfl rfl
    intro sent' revision' flying' late
    cases flying.symm.trans flying'
    exact .known (late.trans known.ge)
  · exact Tab.isPending_eq_false.mpr ⟨timer, rfl⟩
  · exact ok

theorem failed (h : Follows server i t) {flight : Flight V} (flying : t.inFlight = some flight) :
    Follows server i (t.failed flight) := by
  obtain ⟨records, hears, _⟩ := h
  refine ⟨{ records with
    apart := fun _ => rfl
    flight_newer := fun _ _ none => by cases none
    flight_right := fun _ _ none => by cases none }, ?_, by simp [Tab.isPending, Tab.failed]⟩
  refine hears.imp le_rfl (fun m listed => .inbox m listed)
    (fun change kept => .deferred change kept) ?_ (le_max_left _ _) rfl
  intro sent revision flying' late
  cases flying.symm.trans flying'
  exact .missed (late.trans (le_max_right _ _))

variable {rest : List (Message V)}

theorem applyRemoteDraftChange (h : Follows server i t) {change : Change V}
    (first : t.inbox = .change change :: rest) (dated : server.Dated) :
    Follows server i ({ t with inbox := rest }.applyRemoteDraftChange i change) := by
  unfold Tab.applyRemoteDraftChange
  split
  · rename_i own
    exact h.ignored first fun foreign _ => absurd own foreign
  · split
    · rename_i older
      exact h.ignored first fun _ late => .known (late.trans (older.trans (le_max_left _ _)))
    · rename_i newer
      split
      · rename_i pending
        split
        · exact h.defers first rfl rfl dated pending ‹_›
        · rename_i kept
          exact h.ignored first fun _ late => hears_of_kept kept late
      · rename_i idle
        exact h.applies first rfl rfl dated (Bool.eq_false_iff.mpr idle)
          (le_of_lt (not_le.mp newer))

theorem applySnapshotChange [DecidableEq V] (h : Follows server i t) {drafts : Server V}
    (first : t.inbox = .snapshot drafts :: rest) (dated : server.Dated) :
    Follows server i
      ({ t with inbox := rest }.applySnapshotChange ⟨drafts.value, drafts.entryRevision, none⟩) := by
  unfold Tab.applySnapshotChange
  split
  · rename_i older
    exact h.ignored first fun _ late => .known (late.trans ((le_of_lt older).trans (le_max_left _ _)))
  · rename_i newer
    split
    · rename_i pending
      split
      · rename_i defers
        simp only [Bool.and_eq_true] at defers
        exact h.defers first rfl rfl dated pending defers.2
      · rename_i kept
        refine h.ignored first fun _ late => ?_
        by_cases older : drafts.entryRevision ≤ t.revision
        · exact .known (late.trans (older.trans (le_max_left _ _)))
        · have late : server.last ≤ drafts.entryRevision := late
          refine hears_of_kept (fun newer => kept ?_) late
          simpa [not_le.mp older] using newer
    · rename_i idle
      have applied : Follows server i ({ t with inbox := rest }.applyChange
          ⟨drafts.value, drafts.entryRevision, none⟩) :=
        h.applies first rfl rfl dated (Bool.eq_false_iff.mpr idle) (not_lt.mp newer)
      split
      · rename_i same
        simp only [Tab.applyChange, ← show t.value = drafts.value from same] at applied ⊢
        exact applied
      · exact applied

theorem applySessionDraftsSnapshot [DecidableEq V] (h : Follows server i t) {drafts : Server V}
    (first : t.inbox = .snapshot drafts :: rest) (dated : server.Dated) (kind : DraftKind V) :
    Follows server i ({ t with inbox := rest }.applySessionDraftsSnapshot kind drafts) := by
  have listed : .snapshot drafts ∈ t.inbox := first ▸ List.mem_cons_self
  have right : server.last ≤ drafts.entryRevision →
      drafts.value = server.value ∧ server.last ≤ drafts.last :=
    h.records.inbox_right _ listed
  unfold Tab.applySessionDraftsSnapshot
  split
  · exact h.applySnapshotChange first dated
  · rename_i left_out
    obtain ⟨⟨entry, _⟩, value⟩ : (drafts.entry = none ∧ kind.alwaysNamed = false) ∧ t.value = none := by
      simpa using left_out
    have revision : drafts.entryRevision = drafts.revision := by simp [Server.entryRevision, entry]
    split
    · rename_i pending
      refine ⟨{ h.popped first with }, ?_, ?_⟩
      · refine h.hears.imp le_rfl ?_ (fun change kept => .deferred change kept)
          (fun sent revision flying => .flight sent revision flying) (le_max_left _ _) rfl
        intro m listed' foreign late
        rcases List.mem_cons.mp (first ▸ listed') with rfl | listed'
        · exact .missed ((right late).2.trans (le_max_right _ _))
        · exact .inbox m listed' foreign late
      · intro idle
        have pending : t.isPending = true := pending
        exact absurd (show t.isPending = false from idle) (by simp [pending])
    · rename_i idle
      obtain ⟨same, empty, missed⟩ := h.quiet (Bool.eq_false_iff.mpr idle)
      have known : max t.revision (max t.checked drafts.revision) = max t.known drafts.revision :=
        (max_assoc _ _ _).symm
      have grows : t.known ≤ max t.revision (max t.checked drafts.revision) :=
        known ▸ le_max_left _ _
      have flying := (Tab.isPending_eq_false.mp (Bool.eq_false_iff.mpr idle)).2
      have bound : drafts.revision ≤ server.entryRevision :=
        revision ▸ h.records.inbox_le _ listed
      refine ⟨{ h.popped first with
        checked_le := max_le h.records.checked_le bound
        right := ?_, checked_inbox := ?_, checked_deferred := ?_, flight_newer := ?_ }, ?_, ?_⟩
      · show server.last ≤ max t.revision (max t.checked drafts.revision) → _
        intro late
        rw [known, le_max_iff] at late
        rcases late with late | late
        · exact h.records.right late
        · rw [← (right (revision ▸ late)).1, ← same, value]
          simp [Server.value, entry]
      · intro m listed'
        refine max_le (h.records.checked_inbox m (first ▸ List.mem_cons_of_mem _ listed')) ?_
        exact revision ▸ (List.pairwise_cons.mp (first ▸ h.records.sorted)).1 m listed'
      · intro change kept
        rw [show t.deferred = _ from kept] at empty
        cases empty
      · intro sent revision flying'
        rw [show t.inFlight = _ from flying'] at flying
        cases flying
      · refine h.hears.imp grows ?_ (fun change kept => .deferred change kept)
          (fun sent revision flying => .flight sent revision flying) le_rfl rfl
        intro m listed' foreign late
        rcases List.mem_cons.mp (first ▸ listed') with rfl | listed'
        · refine .known ?_
          have late : server.last ≤ drafts.revision := revision ▸ late
          show server.last ≤ max t.revision (max t.checked drafts.revision)
          exact known ▸ late.trans (le_max_right _ _)
        · exact .inbox m listed' foreign late
      · exact fun _ => ⟨same, empty, missed.trans grows⟩

theorem handleMessage [DecidableEq V] (h : Follows server i t) {m : Message V}
    (first : t.inbox = m :: rest) (dated : server.Dated) (kind : DraftKind V) :
    Follows server i ({ t with inbox := rest }.handleMessage kind i m) := by
  cases m with
  | change change => exact h.applyRemoteDraftChange first dated
  | snapshot drafts => exact h.applySessionDraftsSnapshot first dated kind

theorem otherWrite (h : Follows server i t) :
    Follows { server with revision := server.revision + 1 } i t := by
  have grows := server.entryRevision_otherWrite
  obtain ⟨records, hears, quiet⟩ := h
  refine ⟨{ records with
    revision_le := Nat.le_succ_of_le records.revision_le
    checked_le := records.checked_le.trans grows
    inbox_le := fun m listed => (records.inbox_le m listed).trans grows
    deferred_le := fun change kept => Nat.le_succ_of_le (records.deferred_le change kept)
    flight_newer := fun sent revision flying =>
      (records.flight_newer sent revision flying).imp_right Nat.le_succ_of_le }, ?_, quiet⟩
  cases hears with
  | known knows => exact .known knows
  | inbox m listed foreign late => exact .inbox m listed foreign late
  | deferred change kept late => exact .deferred change kept late
  | flight sent revision flying late => exact .flight sent revision flying late
  | missed late => exact .missed late
  | away disconnected => exact .away disconnected

end Follows

/-- The socket opens or closes: its messages are gone. -/
theorem Records.emptied (records : Records server t) (connected : Bool) :
    Records server { t with connected := connected, inbox := [] } :=
  { records with
    checked_inbox := fun _ none => by cases none
    inbox_le := fun _ none => by cases none
    inbox_right := fun _ none => by cases none
    sorted := .nil }

/-- A snapshot is sent to the tab. -/
theorem Records.receive (records : Records server t) :
    Records server (t.receive (.snapshot server)) := by
  unfold Tab.receive
  split
  · refine { records with checked_inbox := ?_, inbox_le := ?_, inbox_right := ?_, sorted := ?_ }
    · refine List.forall_mem_append.mpr ⟨records.checked_inbox, ?_⟩
      simpa [Message.revision] using records.checked_le
    · exact List.forall_mem_append.mpr ⟨records.inbox_le, by simp [Message.revision]⟩
    · exact List.forall_mem_append.mpr
        ⟨records.inbox_right, by simp [Message.value, Message.last]⟩
    · refine List.pairwise_append.mpr ⟨records.sorted, List.pairwise_singleton _ _, ?_⟩
      exact fun m listed m' is_new => List.mem_singleton.mp is_new ▸ records.inbox_le m listed
  · exact records

section
variable (dated : server.Dated) (kind : DraftKind V)
include dated

/-- What a tab holds after a write: nothing but the broadcast is as late as the write. -/
theorem Records.written (records : Records server t) (write : Option V) (writer : Nat) :
    Records (server.applySessionDraftWrite kind write)
      (t.receive ((server.applySessionDraftWrite kind write).sessionDraftUpdate writer)) := by
  have entry : (server.applySessionDraftWrite kind write).entryRevision = server.revision + 1 :=
    server.entryRevision_written kind write
  have checked : t.checked ≤ server.revision := records.checked_le.trans dated.entry_le
  have known : t.known ≤ server.revision := max_le records.revision_le checked
  have older (m : Message V) (listed : m ∈ t.inbox) : m.revision ≤ server.revision :=
    (records.inbox_le m listed).trans dated.entry_le
  have core : Records (server.applySessionDraftWrite kind write) t :=
    { records with
      revision_le := Nat.le_succ_of_le records.revision_le
      checked_le := entry ▸ Nat.le_succ_of_le checked
      right := fun late => absurd (Nat.le_trans late known) (Nat.not_succ_le_self _)
      inbox_le := fun m listed => entry ▸ Nat.le_succ_of_le (older m listed)
      inbox_right := fun m listed late =>
        absurd (Nat.le_trans late (older m listed)) (Nat.not_succ_le_self _)
      deferred_le := fun change kept => Nat.le_succ_of_le (records.deferred_le change kept)
      deferred_right := fun change kept late =>
        absurd (Nat.le_trans late (records.deferred_le change kept)) (Nat.not_succ_le_self _)
      flight_newer := fun sent revision flying =>
        (records.flight_newer sent revision flying).imp_right Nat.le_succ_of_le
      flight_right := fun sent revision flying late =>
        absurd (Nat.le_trans late (records.flight_newer sent revision flying).2)
          (Nat.not_succ_le_self _) }
  have revision : Message.revision ((server.applySessionDraftWrite kind write).sessionDraftUpdate
      writer) = server.revision + 1 := rfl
  unfold Tab.receive
  split
  · refine { core with
      checked_inbox := ?_, inbox_le := ?_, inbox_right := ?_, sorted := ?_ }
    · refine List.forall_mem_append.mpr ⟨core.checked_inbox, ?_⟩
      simpa [revision] using Nat.le_succ_of_le checked
    · exact List.forall_mem_append.mpr ⟨core.inbox_le, by simp [revision, entry]⟩
    · refine List.forall_mem_append.mpr ⟨core.inbox_right, ?_⟩
      simp [Server.sessionDraftUpdate, Message.value, Message.last, Server.applySessionDraftWrite]
    · refine List.pairwise_append.mpr ⟨core.sorted, List.pairwise_singleton _ _, ?_⟩
      intro m listed m' is_new
      rw [List.mem_singleton.mp is_new]
      exact Nat.le_succ_of_le (older m listed)
  · exact core

/-- Another tab's write is broadcast. -/
theorem Follows.written (h : Follows server i t) (write : Option V) {writer : Nat}
    (other : writer ≠ i) :
    Follows (server.applySessionDraftWrite kind write) i
      (t.receive ((server.applySessionDraftWrite kind write).sessionDraftUpdate writer)) := by
  refine ⟨h.records.written dated kind write writer, ?_, ?_⟩
  · unfold Tab.receive
    split
    · refine .inbox _ (List.mem_append_right _ (List.mem_singleton_self _)) ?_ le_rfl
      simpa [Server.sessionDraftUpdate, Message.foreign] using other
    · rename_i away
      exact .away (by simpa using away)
  · unfold Tab.receive
    split <;> exact h.quiet

/-- The tab's own write reaches the server, which keeps it as it was sent. -/
theorem Follows.arrives (h : Follows server i t) {sent : Option V}
    (flying : t.inFlight = some ⟨sent, none⟩) (kept : kind.normalize sent = sent) :
    Follows (server.applySessionDraftWrite kind sent) i
      (Tab.receive { t with inFlight := some ⟨sent, some (server.revision + 1)⟩ }
        ((server.applySessionDraftWrite kind sent).sessionDraftUpdate i)) := by
  have written := h.records.written dated kind sent i
  have bound : t.known < server.revision + 1 := Nat.lt_succ_of_le
    (max_le h.records.revision_le (h.records.checked_le.trans dated.entry_le))
  generalize update : (server.applySessionDraftWrite kind sent).sessionDraftUpdate i = m at *
  have commutes : Tab.receive { t with inFlight := some ⟨sent, some (server.revision + 1)⟩ } m =
      { t.receive m with inFlight := some ⟨sent, some (server.revision + 1)⟩ } := by
    unfold Tab.receive
    split <;> rfl
  have apart : (t.receive m).inFlight = some ⟨sent, none⟩ := by
    unfold Tab.receive
    split <;> exact flying
  have known : (t.receive m).known = t.known := by
    unfold Tab.receive
    split <;> rfl
  rw [commutes]
  refine ⟨{ written with apart := ?_, flight_newer := ?_, flight_right := ?_ }, ?_, ?_⟩
  · intro timer
    cases (written.apart timer).symm.trans apart
  · rintro _ _ ⟨⟩
    exact ⟨lt_of_eq_of_lt known bound, le_rfl⟩
  · rintro _ _ ⟨⟩ _
    rw [server.value_written, kept]
  · exact .flight sent (server.revision + 1) rfl le_rfl
  · simp [Tab.isPending]

end

/-- A new tab has no draft, and no socket. -/
theorem opened (dated : server.Dated) (i : Nat) : Follows server i {} where
  records :=
    { apart := by simp
      revision_le := Nat.zero_le _
      checked_le := Nat.zero_le _
      right := fun late => (dated.unwritten (Nat.le_zero.mp late)).symm
      checked_inbox := by simp
      inbox_le := by simp
      inbox_right := by simp
      sorted := .nil
      checked_deferred := by simp
      deferred_le := by simp
      deferred_right := by simp
      flight_newer := by simp
      flight_right := by simp }
  hears := .away rfl
  quiet := fun _ => ⟨rfl, rfl, le_rfl⟩

/-- What holds in every state of a run that meets the condition. -/
structure Session.Keeps (s : Session V) : Prop where
  dated : s.server.Dated
  tabs : ∀ i t, s.tabs[i]? = some t → Follows s.server i t

namespace Session.Keeps

variable [DecidableEq V] {s s' : Session V} {kind : DraftKind V} (inv : s.Keeps)
include inv

omit [DecidableEq V] in
theorem atTab {f : Tab V → Option (Tab V)} (taken : s.atTab i f = some s')
    (follows : ∀ t t', s.tabs[i]? = some t → f t = some t' → Follows s.server i t') : s'.Keeps := by
  obtain ⟨t', bound, rfl⟩ := Option.map_eq_some_iff.mp taken
  obtain ⟨t, found, became⟩ := Option.bind_eq_some_iff.mp bound
  refine ⟨inv.dated, fun j u here => ?_⟩
  by_cases same : i = j
  · subst same
    have inside : i < s.tabs.length := (List.getElem?_eq_some_iff.mp found).1
    rw [List.getElem?_set_self inside] at here
    obtain rfl := Option.some.inj here
    exact follows t _ found became
  · rw [List.getElem?_set_ne same] at here
    exact inv.tabs j u here

theorem arrive (taken : s.arrive kind i = some s')
    (kept : s.admits kind (.arrive i) = true) : s'.Keeps := by
  unfold Session.arrive at taken
  split at taken
  · rename_i t found
    split at taken
    · rename_i sent flying
      cases taken
      simp only [admits, found, flying, Option.all_some, decide_eq_true_eq] at kept
      refine ⟨s.server.dated_written kind sent, fun j u here => ?_⟩
      obtain ⟨u', was, rfl⟩ := Option.map_eq_some_iff.mp ((List.getElem?_map ..).symm.trans here)
      by_cases same : i = j
      · subst same
        have inside : i < s.tabs.length := (List.getElem?_eq_some_iff.mp found).1
        rw [List.getElem?_set_self inside] at was
        obtain rfl := Option.some.inj was
        exact (inv.tabs i t found).arrives inv.dated kind flying kept
      · rw [List.getElem?_set_ne same] at was
        exact (inv.tabs j u' was).written inv.dated kind sent same
    · cases taken
  · cases taken

theorem step {event : Event V} (admitted : s.admits kind event = true)
    (taken : s.step kind event = some s') : s'.Keeps := by
  cases event with
  | «open» =>
    cases taken
    refine ⟨inv.dated, fun i t here => ?_⟩
    rcases Nat.lt_or_ge i s.tabs.length with old | is_new
    · rw [List.getElem?_append_left old] at here
      exact inv.tabs i t here
    · rw [List.getElem?_append_right is_new] at here
      obtain rfl := List.mem_singleton.mp (List.mem_of_getElem? here)
      exact opened inv.dated i
  | edit i value =>
    refine inv.atTab taken fun t t' found became => ?_
    obtain rfl := Option.some.inj became
    obtain ⟨records, hears, quiet⟩ := inv.tabs i t found
    simp only [admits, found, Option.all_some] at admitted
    have records' : Records s.server { t with value := value } := { records with }
    apply Tab.handleLocalDraftChange_follows records'
    · exact hears.keep le_rfl rfl rfl rfl le_rfl rfl
    · exact fun idle _ => (quiet idle).2
    · rintro rfl idle
      have idle : t.inFlight = none := idle
      simpa [idle] using admitted
  | timer i =>
    refine inv.atTab taken fun t t' found became => ?_
    obtain ⟨records, hears, _⟩ := inv.tabs i t found
    simp only [admits, found, Option.all_some] at admitted
    obtain ⟨_, ⟨⟩⟩ := Option.ite_none_right_eq_some.mp became
    exact Tab.sendDraft_follows records hears fun _ => admitted
  | arrive i => exact inv.arrive taken admitted
  | ack i =>
    refine inv.atTab taken fun t t' found became => ?_
    split at became
    · rename_i sent revision flying
      cases became
      simp only [admits, found, flying, Option.all_some, Option.getD_some] at admitted
      exact (inv.tabs i t found).acknowledged flying admitted
    · cases became
  | fail i =>
    refine inv.atTab taken fun t t' found became => ?_
    obtain ⟨flight, flying, rfl⟩ := Option.map_eq_some_iff.mp became
    exact (inv.tabs i t found).failed flying
  | deliver i =>
    refine inv.atTab taken fun t t' found became => ?_
    split at became
    · rename_i m rest first
      cases became
      exact (inv.tabs i t found).handleMessage first inv.dated kind
    · cases became
  | disconnect i =>
    refine inv.atTab taken fun t t' found became => ?_
    obtain rfl := Option.some.inj became
    obtain ⟨records, _, quiet⟩ := inv.tabs i t found
    exact ⟨records.emptied false, .away rfl, quiet⟩
  | connect i =>
    refine inv.atTab taken fun t t' found became => ?_
    obtain ⟨_, ⟨⟩⟩ := Option.ite_none_left_eq_some.mp became
    obtain ⟨records, _, quiet⟩ := inv.tabs i t found
    refine ⟨(records.emptied true).receive, ?_, quiet⟩
    exact .inbox _ (List.mem_singleton_self _) trivial inv.dated.last_le
  | subscribe i =>
    refine inv.atTab taken fun t t' found became => ?_
    obtain ⟨connected, ⟨⟩⟩ := Option.ite_none_right_eq_some.mp became
    obtain ⟨records, hears, quiet⟩ := inv.tabs i t found
    refine ⟨records.receive, ?_, ?_⟩
    · rw [Tab.receive, if_pos connected]
      exact hears.imp le_rfl (fun m listed => .inbox m (List.mem_append_left _ listed))
        (fun change kept => .deferred change kept)
        (fun sent revision flying => .flight sent revision flying) le_rfl rfl
    · rw [Tab.receive, if_pos connected]
      exact quiet
  | otherWrite =>
    cases taken
    refine ⟨?_, fun i t found => (inv.tabs i t found).otherWrite⟩
    exact inv.dated.otherWrite

end Session.Keeps

end Takode.Drafts
