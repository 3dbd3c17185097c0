import Takode.CodexInputs.Incorporating

/-!
# Commits

An input whose id is its own is committed once: it waits, or the history has it once, at the position
that is looked up for it.
-/

namespace Takode.CodexInputs

open CodexHistory JsString

/-! ## Ids -/

namespace PendingCodexInput

/-- The ids of the messages that are pushed with that of the input. -/
def besideIds (pending : PendingCodexInput) : List JsString :=
  reminderId pending.id :: resolutionNoticeId pending.id ::
    pending.historyFollowUps.mapIdx fun index _ => followUpId pending.id index

variable {pending : PendingCodexInput} {notifications : Notifications} {entry : HistoryEntry}

theorem id_mem_besideIds_of_reminder (inside : entry ∈ pending.reminderEntries notifications) :
    ∃ id ∈ pending.besideIds, entry.id = some id := by
  refine ⟨reminderId pending.id, List.mem_cons_self, ?_⟩
  unfold reminderEntries at inside
  split at inside
  · split at inside
    · rw [List.mem_singleton] at inside
      rw [inside]
    · cases inside
  · cases inside

theorem id_mem_besideIds_of_resolutionNotice
    (inside : entry ∈ pending.resolutionNoticeEntries notifications) :
    ∃ id ∈ pending.besideIds, entry.id = some id := by
  refine ⟨resolutionNoticeId pending.id, List.mem_cons_of_mem _ List.mem_cons_self, ?_⟩
  unfold resolutionNoticeEntries at inside
  split at inside
  · split at inside
    · rw [List.mem_singleton] at inside
      rw [inside]
    · cases inside
  · cases inside

theorem id_mem_besideIds_of_followUp (inside : entry ∈ pending.followUpEntries) :
    ∃ id ∈ pending.besideIds, entry.id = some id := by
  unfold followUpEntries at inside
  obtain ⟨index, below, made⟩ := List.mem_mapIdx.mp inside
  refine ⟨followUpId pending.id index, ?_, by rw [← made]⟩
  apply List.mem_cons_of_mem
  apply List.mem_cons_of_mem
  exact List.mem_mapIdx.mpr ⟨index, below, rfl⟩

end PendingCodexInput

/-- Inputs with ids of their own: no two have the same, and no commit of one pushes another message
under the id of one. -/
structure OwnIds (inputs : List PendingCodexInput) : Prop where
  distinct : (inputs.map (·.id)).Nodup
  named : ∀ input ∈ inputs, input.id ≠ []
  separate : ∀ input ∈ inputs, ∀ other ∈ inputs, input.id ∉ other.besideIds

namespace OwnIds

variable {inputs : List PendingCodexInput} {input other : PendingCodexInput} {entry : HistoryEntry}

theorem not_under (own : OwnIds inputs) (listed : input ∈ inputs) (otherListed : other ∈ inputs)
    (beside : ∃ id ∈ other.besideIds, entry.id = some id) : entry.isUnder input.id = false := by
  obtain ⟨id, inside, named⟩ := beside
  have different : id ≠ input.id := by
    rintro rfl
    exact own.separate input listed other otherListed inside
  simp [HistoryEntry.isUnder, named, different]

theorem eq_of_id (own : OwnIds inputs) (listed : input ∈ inputs) (otherListed : other ∈ inputs)
    (same : other.id = input.id) : other = input :=
  List.inj_on_of_nodup_map own.distinct otherListed listed same

end OwnIds

/-- An id as the server makes it for a message of a user: of the time and of a counter. -/
def IsUserMessageId (id : JsString) : Prop :=
  ∃ time counter, id = js "user-" ++ decimal time ++ js "-" ++ decimal counter

theorem count_dash_decimal (n : Nat) : (decimal n).count 45 = 0 := by
  rw [List.count_eq_zero]
  intro inside
  exact absurd (isDigit_of_mem_decimal inside) (by decide)

theorem IsUserMessageId.count_dash {id : JsString} (made : IsUserMessageId id) : id.count 45 = 2 := by
  obtain ⟨time, counter, rfl⟩ := made
  have words : (js "user-").count 45 = 1 ∧ (js "-").count 45 = 1 := by decide
  simp only [List.count_append, count_dash_decimal, words.1, words.2]

theorem ownIds_of_userMessageIds {inputs : List PendingCodexInput}
    (distinct : (inputs.map (·.id)).Nodup) (made : ∀ input ∈ inputs, IsUserMessageId input.id) :
    OwnIds inputs where
  distinct
  named := by
    intro input listed empty
    have dashes := (made input listed).count_dash
    rw [empty] at dashes
    cases dashes
  separate := by
    intro input listed other otherListed beside
    have dashes := (made input listed).count_dash
    have others := (made other otherListed).count_dash
    have more : ∀ id ∈ other.besideIds, 2 < id.count 45 := by
      intro id inside
      rw [PendingCodexInput.besideIds, List.mem_cons, List.mem_cons, List.mem_mapIdx] at inside
      have words : (js "needs-input-reminder-").count 45 = 3 ∧
          (js "needs-input-resolution-notice-").count 45 = 4 ∧ (js "-followup-").count 45 = 2 := by
        decide
      rcases inside with rfl | rfl | ⟨index, below, rfl⟩
      · rw [PendingCodexInput.reminderId, List.count_append, words.1]
        omega
      · rw [PendingCodexInput.resolutionNoticeId, List.count_append, words.2.1]
        omega
      · rw [PendingCodexInput.followUpId, List.count_append, List.count_append, words.2.2]
        omega
    have := more _ beside
    omega

namespace Session

/-! ## Positions -/

/-- The history has a user message under the id at this position. -/
def HasAt (session : Session) (id : JsString) (position : Nat) : Prop :=
  ∃ index entry, position = session.frozenCount + index ∧
    session.messageHistory[index]? = some entry ∧ entry.isUnder id = true

theorem HasAt.lt {session : Session} {id : JsString} {position : Nat}
    (there : session.HasAt id position) : position < session.absoluteHistoryEnd := by
  obtain ⟨index, entry, rfl, found, -⟩ := there
  have below := (List.getElem?_eq_some_iff.mp found).1
  unfold absoluteHistoryEnd
  omega

theorem HasAt.unique {session : Session} {first second : JsString} {position : Nat}
    (there : session.HasAt first position) (too : session.HasAt second position) : first = second := by
  obtain ⟨index, entry, rfl, found, under⟩ := there
  obtain ⟨again, entry', same, found', under'⟩ := too
  obtain rfl : index = again := by omega
  rw [found] at found'
  cases found'
  simp only [HistoryEntry.isUnder, Bool.and_eq_true, decide_eq_true_eq] at under under'
  exact Option.some.inj (under.2.symm.trans under'.2)

theorem absoluteById_concat (frozenCount : Nat) (messageHistory : List HistoryEntry)
    (message : HistoryEntry) {id : JsString} (filled : id ≠ []) :
    (absoluteById frozenCount (messageHistory ++ [message])).get? id =
      if message.isUnder id then some (frozenCount + messageHistory.length)
      else (absoluteById frozenCount messageHistory).get? id := by
  unfold absoluteById
  rw [List.zipIdx_append, List.foldl_append, List.zipIdx_cons, List.zipIdx_nil, List.foldl_cons,
    List.foldl_nil, Nat.zero_add]
  dsimp only
  cases listed : message.id.filter (· ≠ []) with
  | none =>
    have other : message.isUnder id = false := by
      cases known : message.id with
      | none => simp [HistoryEntry.isUnder, known]
      | some own =>
        have blank : own = [] := by simpa [known, Option.filter_eq_none_iff] using listed
        simp [HistoryEntry.isUnder, known, blank, Ne.symm filled]
    simp [other]
  | some own =>
    have known : message.id = some own := (Option.filter_eq_some_iff.mp listed).1
    cases user : message.isUserMessage with
    | false => simp [HistoryEntry.isUnder, user]
    | true =>
      by_cases same : own = id
      · simp [HistoryEntry.isUnder, user, known, same]
      · simp [HistoryEntry.isUnder, user, known, same, Ne.symm same]

theorem get?_absoluteById (frozenCount : Nat) (messageHistory : List HistoryEntry) {id : JsString}
    (filled : id ≠ []) :
    match (absoluteById frozenCount messageHistory).get? id with
    | some position => ∃ index entry, position = frozenCount + index ∧
        messageHistory[index]? = some entry ∧ entry.isUnder id = true
    | none => ∀ entry ∈ messageHistory, entry.isUnder id = false := by
  induction messageHistory using List.reverseRecOn with
  | nil => simp [absoluteById]
  | append_singleton messageHistory message ih =>
    rw [absoluteById_concat frozenCount messageHistory message filled]
    by_cases under : message.isUnder id = true
    · rw [if_pos under]
      exact ⟨messageHistory.length, message, rfl, by simp, under⟩
    · rw [if_neg under]
      cases found : (absoluteById frozenCount messageHistory).get? id with
      | some position =>
        rw [found] at ih
        obtain ⟨index, entry, rfl, listed, isUnder⟩ := ih
        refine ⟨index, entry, rfl, ?_, isUnder⟩
        rw [List.getElem?_append_left (List.getElem?_eq_some_iff.mp listed).1]
        exact listed
      | none =>
        rw [found] at ih
        intro entry inside
        rcases List.mem_append.mp inside with before | last
        · exact ih entry before
        · rw [List.mem_singleton.mp last]
          exact Bool.eq_false_iff.mpr under

theorem exists_historyIndex (session : Session) {id : JsString} (filled : id ≠ [])
    {entry : HistoryEntry} (inside : entry ∈ session.messageHistory) (under : entry.isUnder id = true) :
    ∃ position, (absoluteById session.frozenCount session.messageHistory).get? id = some position ∧
      session.HasAt id position := by
  have found := get?_absoluteById session.frozenCount session.messageHistory filled
  cases listed : (absoluteById session.frozenCount session.messageHistory).get? id with
  | none =>
    rw [listed] at found
    rw [found entry inside] at under
    cases under
  | some position =>
    rw [listed] at found
    exact ⟨position, rfl, found⟩

/-! ## Commits -/

/-- The input waits, and the history has nothing under its id. -/
def IsPending (session : Session) (input : PendingCodexInput) : Prop :=
  input ∈ session.pendingCodexInputs ∧
    ∀ entry ∈ session.messageHistory, entry.isUnder input.id = false

/-- The history has the input once, with its follow-ups behind it, and it does not wait any more. -/
def IsIncorporated (session : Session) (input : PendingCodexInput) : Prop :=
  (∀ pending ∈ session.pendingCodexInputs, pending.id ≠ input.id) ∧
  ∃ before after, session.messageHistory =
      before ++ input.userHistoryEntry :: (input.followUpEntries ++ after) ∧
    ∀ entry ∈ before ++ (input.followUpEntries ++ after), entry.isUnder input.id = false

/-- The inputs of a session: each waits or is in the history. -/
structure Once (inputs : List PendingCodexInput) (session : Session) : Prop where
  listed : ∀ pending ∈ session.pendingCodexInputs, pending ∈ inputs
  distinct : (session.pendingCodexInputs.map (·.id)).Nodup
  once : ∀ input ∈ inputs, session.IsPending input ∨ session.IsIncorporated input

/-- The state with what a commit has changed. -/
def committed (session : Session) (pendingCodexInputs : List PendingCodexInput)
    (entries : List HistoryEntry) : Session :=
  { session with pendingCodexInputs, messageHistory := session.messageHistory ++ entries }

theorem commitPendingCodexInput_eq (session : Session) (notifications : Notifications)
    (id : JsString) :
    ∃ pendingCodexInputs entries, session.commitPendingCodexInput notifications id =
      session.committed pendingCodexInputs entries := by
  unfold commitPendingCodexInput
  split
  · exact ⟨session.pendingCodexInputs, [], by simp [committed]⟩
  · exact ⟨_, _, rfl⟩

theorem commitPendingCodexInputs_eq (session : Session) (notifications : Notifications)
    (ids : List JsString) :
    ∃ pendingCodexInputs entries, session.commitPendingCodexInputs notifications ids =
      session.committed pendingCodexInputs entries := by
  unfold commitPendingCodexInputs
  induction ids generalizing session with
  | nil => exact ⟨session.pendingCodexInputs, [], by simp [committed]⟩
  | cons id ids ih =>
    obtain ⟨waiting, entries, first⟩ := commitPendingCodexInput_eq session notifications id
    obtain ⟨rest, more, later⟩ := ih (session.commitPendingCodexInput notifications id)
    refine ⟨rest, entries ++ more, ?_⟩
    rw [List.foldl_cons, later, first]
    simp [committed, List.append_assoc]

section Committing

variable {inputs : List PendingCodexInput} {session : Session} {input pending : PendingCodexInput}
  {entry : HistoryEntry} (notifications : Notifications)

theorem not_under_historyEntries {notifications : Notifications} (own : OwnIds inputs) (listed : input ∈ inputs)
    (waiting : pending ∈ inputs) (other : pending.id ≠ input.id)
    (inside : entry ∈ pending.historyEntries notifications) : entry.isUnder input.id = false := by
  unfold PendingCodexInput.historyEntries at inside
  rw [List.mem_append, List.mem_append, List.mem_cons] at inside
  rcases inside with (reminder | notice) | user | followUp
  · exact own.not_under listed waiting (PendingCodexInput.id_mem_besideIds_of_reminder reminder)
  · exact own.not_under listed waiting (PendingCodexInput.id_mem_besideIds_of_resolutionNotice notice)
  · rw [user]
    simp [HistoryEntry.isUnder, PendingCodexInput.userHistoryEntry, other]
  · exact own.not_under listed waiting (PendingCodexInput.id_mem_besideIds_of_followUp followUp)

theorem id_ne_of_mem_eraseP {waiting : List PendingCodexInput} {id : JsString}
    (distinct : (waiting.map (·.id)).Nodup)
    (inside : pending ∈ waiting.eraseP fun item => item.id = id) : pending.id ≠ id := by
  induction waiting with
  | nil => cases inside
  | cons item rest ih =>
    rw [List.map_cons, List.nodup_cons] at distinct
    by_cases first : item.id = id
    · rw [List.eraseP_cons_of_pos (by simpa using first)] at inside
      intro same
      apply distinct.1
      rw [first, ← same]
      exact List.mem_map_of_mem inside
    · rw [List.eraseP_cons_of_neg (by simpa using first), List.mem_cons] at inside
      rcases inside with rfl | later
      · exact first
      · exact ih distinct.2 later

theorem isIncorporated_of_found (own : OwnIds inputs) (once : Once inputs session)
    (waits : pending ∈ session.pendingCodexInputs) :
    (session.committed (session.pendingCodexInputs.eraseP fun item => item.id = pending.id)
      (pending.historyEntries notifications)).IsIncorporated pending := by
  have listed := once.listed pending waits
  refine ⟨fun item inside => id_ne_of_mem_eraseP once.distinct inside, ?_⟩
  refine ⟨session.messageHistory ++ pending.reminderEntries notifications ++
    pending.resolutionNoticeEntries notifications, [], ?_, ?_⟩
  · simp [committed, PendingCodexInput.historyEntries]
  · have absent : ∀ entry ∈ session.messageHistory, entry.isUnder pending.id = false := by
      rcases once.once pending listed with waiting | incorporated
      · exact waiting.2
      · exact absurd rfl (incorporated.1 pending waits)
    intro entry inside
    rw [List.append_nil, List.mem_append, List.mem_append, List.mem_append] at inside
    rcases inside with ((earlier | reminder) | notice) | followUp
    · exact absent entry earlier
    · exact own.not_under listed listed (PendingCodexInput.id_mem_besideIds_of_reminder reminder)
    · exact own.not_under listed listed
        (PendingCodexInput.id_mem_besideIds_of_resolutionNotice notice)
    · exact own.not_under listed listed (PendingCodexInput.id_mem_besideIds_of_followUp followUp)

theorem kept_of_other (own : OwnIds inputs) (once : Once inputs session)
    (waits : pending ∈ session.pendingCodexInputs) (listed : input ∈ inputs)
    (other : pending.id ≠ input.id) :
    let next := session.committed (session.pendingCodexInputs.eraseP fun item => item.id = pending.id)
      (pending.historyEntries notifications)
    (session.IsPending input → next.IsPending input) ∧
      (session.IsIncorporated input → next.IsIncorporated input) := by
  have pushed : ∀ entry ∈ pending.historyEntries notifications, entry.isUnder input.id = false :=
    fun entry inside => not_under_historyEntries own listed (once.listed pending waits) other inside
  refine ⟨?_, ?_⟩
  · rintro ⟨waiting, absent⟩
    refine ⟨(List.mem_eraseP_of_neg (by simpa using Ne.symm other)).mpr waiting, ?_⟩
    intro entry inside
    rcases List.mem_append.mp inside with earlier | new
    · exact absent entry earlier
    · exact pushed entry new
  · rintro ⟨gone, before, after, history, single⟩
    refine ⟨fun item inside => gone item (List.mem_of_mem_eraseP inside), before,
      after ++ pending.historyEntries notifications, ?_, ?_⟩
    · simp [committed, history]
    · intro entry inside
      rw [← List.append_assoc input.followUpEntries, ← List.append_assoc before] at inside
      rcases List.mem_append.mp inside with earlier | new
      · exact single entry earlier
      · exact pushed entry new

/-- A commit keeps the inputs once, and what it commits is in the history then. -/
theorem Once.commit (own : OwnIds inputs) (once : Once inputs session) (id : JsString) :
    Once inputs (session.commitPendingCodexInput notifications id) ∧
      ∀ input ∈ inputs, input.id = id ∨ session.IsIncorporated input →
        (session.commitPendingCodexInput notifications id).IsIncorporated input := by
  unfold commitPendingCodexInput
  cases found : session.pendingCodexInputs.find? (fun item => item.id = id) with
  | none =>
    refine ⟨once, ?_⟩
    rintro input listed (named | incorporated)
    · rcases once.once input listed with waiting | incorporated
      · have absent := List.find?_eq_none.mp found input waiting.1
        exact absurd named (by simpa using absent)
      · exact incorporated
    · exact incorporated
  | some pending =>
    have waits : pending ∈ session.pendingCodexInputs := List.mem_of_find?_eq_some found
    have named : pending.id = id := by simpa using List.find?_some found
    subst named
    have incorporated := isIncorporated_of_found notifications own once waits
    refine ⟨⟨?_, ?_, ?_⟩, ?_⟩
    · exact fun item inside => once.listed item (List.mem_of_mem_eraseP inside)
    · exact once.distinct.sublist (List.eraseP_sublist.map _)
    · intro input listed
      by_cases same : pending.id = input.id
      · rw [← own.eq_of_id listed (once.listed pending waits) same]
        exact .inr incorporated
      · have kept := kept_of_other notifications own once waits listed same
        exact (once.once input listed).imp kept.1 kept.2
    · intro input listed reached
      by_cases same : pending.id = input.id
      · rw [← own.eq_of_id listed (once.listed pending waits) same]
        exact incorporated
      · have before : session.IsIncorporated input := reached.resolve_left (Ne.symm same)
        exact (kept_of_other notifications own once waits listed same).2 before

theorem Once.commits (own : OwnIds inputs) (once : Once inputs session) (ids : List JsString) :
    Once inputs (session.commitPendingCodexInputs notifications ids) ∧
      ∀ input ∈ inputs, input.id ∈ ids ∨ session.IsIncorporated input →
        (session.commitPendingCodexInputs notifications ids).IsIncorporated input := by
  unfold commitPendingCodexInputs
  induction ids generalizing session with
  | nil => exact ⟨once, fun input _ reached => reached.resolve_left List.not_mem_nil⟩
  | cons id ids ih =>
    have first := Once.commit notifications own once id
    have later := ih first.1
    refine ⟨later.1, ?_⟩
    intro input listed reached
    apply later.2 input listed
    rcases reached with inside | incorporated
    · rcases List.mem_cons.mp inside with same | rest
      · exact .inr (first.2 input listed (.inl same))
      · exact .inl rest
    · exact .inr (first.2 input listed (.inr incorporated))

end Committing

end Session

end Takode.CodexInputs
