import Takode.HerdEvents.Thinning

/-!
# One delivery

The loop over the groups injects what is pending, in order, and nothing that was accepted since the
events in flight were last given up. If it runs to its end, what was accepted is marked.
-/

namespace Takode.HerdEvents

/-- The entries that were accepted since the events in flight were last given up. -/
def acceptedSince : List LogEntry → List Nat
  | [] => []
  | .reset :: _ => []
  | .injected seqs true :: older => seqs ++ acceptedSince older
  | .injected _ false :: older => acceptedSince older

/-- No injection has an entry that was accepted since the last reset before it. -/
def Unrepeated : List LogEntry → Prop
  | [] => True
  | .reset :: older => Unrepeated older
  | .injected seqs _ :: older => (∀ seq ∈ seqs, seq ∉ acceptedSince older) ∧ Unrepeated older

/-- Each injection lists its entries in the order in which they came in. -/
def InOrder (log : List LogEntry) : Prop :=
  ∀ seqs accepted, .injected seqs accepted ∈ log → seqs.Pairwise (· < ·)

/-- Whether a group is refused for good after an earlier group of the delivery was accepted: not if
stale board events are the reason, and are dropped. -/
def refusesAfterAccepting (answers : Nat → Answer) :
    Nat → Bool → HerdInbox → List (List InboxEntry) → Bool
  | _, _, _, [] => false
  | n, accepted, inbox, _ :: rest =>
    let answer := answers n
    if answer.accepts then refusesAfterAccepting answers (n + 1) true inbox rest
    else if answer.delivery = .dropped then
      let pruned := inbox.pruneStaleBoardStallEntries answer.bridge
      if 0 < pruned.2 then refusesAfterAccepting answers (n + 1) accepted pruned.1 rest
      else accepted
    else accepted

/-- The numbers of the accepted entries. -/
def Delivering.acceptedSeqs (state : Delivering) : List Nat :=
  state.acceptedEntries.map fun accepted => accepted.1.seq

/-- What the loop has made of a log. -/
structure Delivered (log : List LogEntry) (state : Delivering) : Prop where
  accepted : ∀ seq, seq ∈ acceptedSince state.log ↔
    seq ∈ state.acceptedSeqs ∨ seq ∈ acceptedSince log
  ordered : InOrder log → InOrder state.log
  unrepeated : Unrepeated log → Unrepeated state.log

section Loop

variable {reason : Reason} {answers : Nat → Answer} {log : List LogEntry}

theorem Delivered.inject {state : Delivering} {group : List InboxEntry} (answer : Answer)
    (delivered : Delivered log state) (ordered : (group.map (·.seq)).Pairwise (· < ·))
    (fresh : ∀ entry ∈ group, entry.seq ∉ acceptedSince state.log) :
    Delivered log
      ⟨state.inbox, .injected (group.map (·.seq)) answer.accepts :: state.log,
        if answer.accepts then state.acceptedEntries ++ group.map (·, answer.ownerId)
        else state.acceptedEntries⟩ := by
  refine ⟨fun seq => ?_, fun before seqs accepted inside => ?_, fun before => ⟨fun seq inside => ?_, ?_⟩⟩
  · cases answer.accepts with
    | true =>
      simp only [acceptedSince, Delivering.acceptedSeqs, List.mem_append, delivered.accepted, if_true,
        List.map_append, List.map_map, Function.comp_def]
      tauto
    | false => exact delivered.accepted seq
  · rcases List.mem_cons.mp inside with same | older
    · cases same
      exact ordered
    · exact delivered.ordered before seqs accepted older
  · obtain ⟨entry, listed, rfl⟩ := List.mem_map.mp inside
    exact fresh entry listed
  · exact delivered.unrepeated before

/-- The loop, on groups of entries that are numbered in order and were not accepted before. -/
theorem deliverGroups_delivered
    (why : ∀ n event owner, event.isStale (answers n).bridge = true → reason event owner) :
    ∀ (groups : List (List InboxEntry)) (n : Nat) (state : Delivering), Delivered log state →
      (groups.flatten.map (·.seq)).Pairwise (· < ·) →
      (∀ entry ∈ groups.flatten, entry.seq ∉ acceptedSince state.log) →
      Delivered log (deliverGroups answers n state groups).1 ∧
        Thins reason state.inbox (deliverGroups answers n state groups).1.inbox
  | [], n, state, delivered, _, _ => ⟨delivered, .refl _ _⟩
  | group :: rest, n, state, delivered, ordered, fresh => by
    rw [List.flatten_cons, List.map_append, List.pairwise_append] at ordered
    obtain ⟨first, later, before⟩ := ordered
    have injected := delivered.inject (answers n) first
      fun entry inside => fresh entry (List.mem_append_left _ inside)
    have others : ∀ entry ∈ rest.flatten, entry.seq ∉ acceptedSince
        (.injected (group.map (·.seq)) (answers n).accepts :: state.log) := by
      intro entry inside
      have old := fresh entry (List.mem_append_right _ inside)
      cases (answers n).accepts with
      | true =>
        rw [acceptedSince, List.mem_append, not_or]
        refine ⟨fun listed => ?_, old⟩
        exact absurd (before _ listed _ (List.mem_map_of_mem inside)) (lt_irrefl _)
      | false => exact old
    unfold deliverGroups
    simp only
    split
    · rename_i accepts
      rw [if_pos accepts] at injected
      exact deliverGroups_delivered why rest (n + 1) _ injected later others
    · rename_i refused
      rw [if_neg refused] at injected
      split
      · have pruned : Thins reason state.inbox
            (state.inbox.pruneStaleBoardStallEntries (answers n).bridge).1 :=
          Thins.prune _ _ (why n)
        have after : Delivered log
            ⟨(state.inbox.pruneStaleBoardStallEntries (answers n).bridge).1,
              .injected (group.map (·.seq)) (answers n).accepts :: state.log,
              state.acceptedEntries⟩ :=
          ⟨injected.accepted, injected.ordered, injected.unrepeated⟩
        split
        · obtain ⟨delivered, thins⟩ :=
            deliverGroups_delivered why rest (n + 1) _ after later others
          exact ⟨delivered, pruned.trans thins⟩
        · exact ⟨after, pruned⟩
      · exact ⟨injected, .refl _ _⟩

/-- A loop that stops has accepted nothing, unless a group was refused after another was accepted. -/
theorem deliverGroups_stopped (answers : Nat → Answer) :
    ∀ (groups : List (List InboxEntry)) (n : Nat) (accepted : Bool) (state : Delivering),
      (accepted = false → state.acceptedEntries = []) →
      refusesAfterAccepting answers n accepted state.inbox groups = false →
      ∀ status, (deliverGroups answers n state groups).2 = some status →
        (deliverGroups answers n state groups).1.acceptedEntries = []
  | [], _, _, _, _, _, _, stopped => by cases stopped
  | group :: rest, n, accepted, state, empty, admitted, status, stopped => by
    unfold deliverGroups at stopped ⊢
    unfold refusesAfterAccepting at admitted
    simp only at stopped admitted ⊢
    split at stopped
    · rename_i accepts
      rw [if_pos accepts] at admitted ⊢
      exact deliverGroups_stopped answers rest (n + 1) true _ (fun no => (by cases no)) admitted
        status stopped
    · rename_i refused
      rw [if_neg refused] at admitted ⊢
      split at stopped
      · rename_i dropped
        rw [if_pos dropped] at admitted ⊢
        split at stopped
        · rename_i some'
          rw [if_pos some'] at admitted ⊢
          exact deliverGroups_stopped answers rest (n + 1) accepted _ empty admitted status stopped
        · rename_i none'
          rw [if_neg none'] at admitted ⊢
          exact empty admitted
      · rename_i other
        rw [if_neg other] at admitted ⊢
        exact empty admitted

/-- What is accepted was in one of the groups. -/
theorem deliverGroups_accepted (answers : Nat → Answer) :
    ∀ (groups : List (List InboxEntry)) (n : Nat) (state : Delivering),
      ∀ accepted ∈ (deliverGroups answers n state groups).1.acceptedEntries,
        accepted ∈ state.acceptedEntries ∨ accepted.1 ∈ groups.flatten
  | [], _, _, _, inside => .inl inside
  | group :: rest, n, state, accepted, inside => by
    have later {state' : Delivering}
        (inside : accepted ∈ (deliverGroups answers (n + 1) state' rest).1.acceptedEntries)
        (before : accepted ∈ state'.acceptedEntries →
          accepted ∈ state.acceptedEntries ∨ accepted.1 ∈ group) :
        accepted ∈ state.acceptedEntries ∨ accepted.1 ∈ (group :: rest).flatten := by
      rw [List.flatten_cons, List.mem_append]
      rcases deliverGroups_accepted answers rest (n + 1) state' accepted inside with old | new
      · exact (before old).imp_right .inl
      · exact .inr (.inr new)
    unfold deliverGroups at inside
    simp only at inside
    split at inside
    · refine later inside fun before => ?_
      rcases List.mem_append.mp before with old | new
      · exact .inl old
      · obtain ⟨entry, listed, rfl⟩ := List.mem_map.mp new
        exact .inr listed
    · split at inside
      · split at inside
        · exact later inside .inl
        · exact .inl inside
      · exact .inl inside

end Loop

/-- The inbox fits the log: what is in flight is what was accepted since the last reset. -/
structure Sound (inbox : HerdInbox) (log : List LogEntry) : Prop where
  sorted : (inbox.entries.map (·.seq)).Pairwise (· < ·)
  below : ∀ entry ∈ inbox.entries, entry.seq < inbox.nextSeq
  watermark : inbox.Watermarked
  accepted : ∀ seq ∈ acceptedSince log, seq < inbox.nextSeq
  marked : ∀ entry ∈ inbox.entries, entry.isPending = false ↔ entry.seq ∈ acceptedSince log
  ordered : InOrder log
  unrepeated : Unrepeated log

/-- The numbers and events of an inbox are still there, but for those with a reason to go. -/
def Keeps (reason : Reason) (before after : HerdInbox) : Prop :=
  ∀ old ∈ before.entries, reason old.event old.deliveryOwnerId ∨
    ∃ entry ∈ after.entries, entry.seq = old.seq ∧ entry.event = old.event

section Delivery

variable {reason : Reason} {inbox inbox' : HerdInbox} {log : List LogEntry}

theorem Sound.distinct (sound : Sound inbox log) : (inbox.entries.map (·.seq)).Nodup :=
  sound.sorted.imp ne_of_lt

theorem Sound.thins (sound : Sound inbox log) (thins : Thins reason inbox inbox') :
    Sound inbox' log where
  sorted := sound.sorted.sublist thins.seqs
  below entry inside := by
    obtain ⟨old, listed, seq, -⟩ := thins.kept entry inside
    rw [thins.nextSeq, ← seq]
    exact sound.below old listed
  watermark := thins.watermark sound.watermark
  accepted seq inside := thins.nextSeq ▸ sound.accepted seq inside
  marked entry inside := by
    obtain ⟨old, listed, seq, -, -, owner⟩ := thins.kept entry inside
    rw [InboxEntry.isPending, ← owner, ← seq]
    exact sound.marked old listed
  ordered := sound.ordered
  unrepeated := sound.unrepeated

theorem Thins.keeps (thins : Thins reason inbox inbox') : Keeps reason inbox inbox' :=
  fun old inside => (thins.left old inside).imp_right
    fun ⟨entry, listed, seq, event, _⟩ => ⟨entry, listed, seq, event⟩

section Marking

variable (accepted : List (InboxEntry × Option JsString))

theorem mark_seqs :
    (markEntriesAcceptedForDelivery inbox accepted).entries.map (·.seq) =
      inbox.entries.map (·.seq) := by
  unfold markEntriesAcceptedForDelivery
  rw [List.map_map]
  apply List.map_congr_left
  intro entry _
  simp only [Function.comp_apply]
  split <;> rfl

theorem mark_entry {entry : InboxEntry}
    (inside : entry ∈ (markEntriesAcceptedForDelivery inbox accepted).entries) :
    ∃ old ∈ inbox.entries, old.seq = entry.seq ∧ (entry.isPending = false ↔
      entry.seq ∈ accepted.map (fun other : InboxEntry × Option JsString => other.1.seq) ∨
        old.isPending = false) := by
  obtain ⟨old, there, rfl⟩ := List.mem_map.mp inside
  refine ⟨old, there, ?_⟩
  cases found : accepted.find? fun other => other.1.seq = old.seq with
  | some other =>
    refine ⟨rfl, iff_of_true rfl (.inl (List.mem_map.mpr ⟨other, ?_, ?_⟩))⟩
    · exact List.mem_of_find?_eq_some found
    · exact of_decide_eq_true (List.find?_some found :)
  | none =>
    refine ⟨rfl, .inr, fun either => either.elim (fun listed => ?_) id⟩
    obtain ⟨other, inside, same⟩ := List.mem_map.mp listed
    exact absurd (decide_eq_true same) (List.find?_eq_none.mp found other inside)

theorem mark_keeps : ∀ old ∈ inbox.entries,
    ∃ entry ∈ (markEntriesAcceptedForDelivery inbox accepted).entries,
      entry.seq = old.seq ∧ entry.event = old.event := by
  intro old inside
  refine ⟨_, List.mem_map_of_mem inside, ?_⟩
  split <;> exact ⟨rfl, rfl⟩

end Marking

theorem flatten_groups (entries : List InboxEntry) :
    (groupPendingEntriesByThread entries).flatten = entries :=
  List.flatten_splitBy _ _

/-- A delivery of pending entries, in which no group is refused after another was accepted. -/
theorem deliverPendingEntries_sound {herd : HerdState} {answers : Nat → Answer}
    {pending : List InboxEntry} (sound : Sound herd.inbox herd.log)
    (sorted : (pending.map (·.seq)).Pairwise (· < ·))
    (fresh : ∀ entry ∈ pending, entry.seq ∉ acceptedSince herd.log)
    (bounded : ∀ entry ∈ pending, entry.seq < herd.inbox.nextSeq)
    (admitted : refusesAfterAccepting answers 0 false herd.inbox
      (groupPendingEntriesByThread pending) = false)
    (why : ∀ n event owner, event.isStale (answers n).bridge = true → reason event owner) :
    Sound (deliverPendingEntries herd answers pending).1.inbox
        (deliverPendingEntries herd answers pending).1.log ∧
      Keeps reason herd.inbox (deliverPendingEntries herd answers pending).1.inbox ∧
        (deliverPendingEntries herd answers pending).1.inbox.nextSeq = herd.inbox.nextSeq := by
  have nothing : Delivered herd.log ⟨herd.inbox, herd.log, []⟩ :=
    ⟨fun seq => ⟨.inr, fun either => either.elim (fun none => (by cases none)) id⟩, id, id⟩
  obtain ⟨delivered, thins⟩ := deliverGroups_delivered why
    (groupPendingEntriesByThread pending) 0 _ nothing
    (by rw [flatten_groups]; exact sorted) (by rw [flatten_groups]; exact fresh)
  have stopped := deliverGroups_stopped answers (groupPendingEntriesByThread pending) 0 false
    ⟨herd.inbox, herd.log, []⟩ (fun _ => rfl) admitted
  have among := deliverGroups_accepted answers (groupPendingEntriesByThread pending) 0
    ⟨herd.inbox, herd.log, []⟩
  have thinned := sound.thins thins
  unfold deliverPendingEntries
  generalize deliverGroups answers 0 ⟨herd.inbox, herd.log, []⟩
    (groupPendingEntriesByThread pending) = result at *
  obtain ⟨state, status⟩ := result
  -- Where nothing was accepted, the log only has refused injections more.
  have unaccepted (none : state.acceptedEntries = []) : Sound state.inbox state.log := by
    have same (seq : Nat) : seq ∈ acceptedSince state.log ↔ seq ∈ acceptedSince herd.log := by
      rw [delivered.accepted seq, Delivering.acceptedSeqs, none]
      simp
    exact ⟨thinned.sorted, thinned.below, thinned.watermark,
      fun seq inside => thinned.accepted seq ((same seq).mp inside),
      fun entry inside => (thinned.marked entry inside).trans (same _).symm,
      delivered.ordered sound.ordered, delivered.unrepeated sound.unrepeated⟩
  cases status with
  | some status => exact ⟨unaccepted (stopped status rfl), thins.keeps, thins.nextSeq⟩
  | none =>
    simp only
    split
    · rename_i none
      exact ⟨unaccepted (List.isEmpty_iff.mp none), thins.keeps, thins.nextSeq⟩
    · obtain ⟨sameEntries, sameNext⟩ := Thins.rememberDeliveredEventKeys_entries state.inbox
        (state.acceptedEntries.map fun accepted => accepted.1.event)
      generalize state.inbox.rememberDeliveredEventKeys
        (state.acceptedEntries.map fun accepted => accepted.1.event) = remembered at *
      have below : ∀ seq ∈ state.acceptedSeqs, seq < herd.inbox.nextSeq := by
        intro seq listed
        obtain ⟨accepted, inside, rfl⟩ := List.mem_map.mp listed
        have waits := (among accepted inside).resolve_left List.not_mem_nil
        rw [flatten_groups] at waits
        exact bounded accepted.1 waits
      have next : remembered.nextSeq = herd.inbox.nextSeq := sameNext.trans thins.nextSeq
      refine ⟨⟨?_, ?_, Thins.recompute_watermarked _, ?_, ?_, delivered.ordered sound.ordered,
        delivered.unrepeated sound.unrepeated⟩, ?_, next⟩
      · show List.Pairwise _ ((markEntriesAcceptedForDelivery _ _).entries.map _)
        rw [mark_seqs, sameEntries]
        exact thinned.sorted
      · intro entry inside
        obtain ⟨old, there, same, -⟩ := mark_entry _ inside
        show entry.seq < remembered.nextSeq
        rw [sameEntries] at there
        rw [← same, sameNext]
        exact thinned.below old there
      · intro seq inside
        show seq < remembered.nextSeq
        rw [next]
        exact ((delivered.accepted seq).mp inside).elim (below seq) (sound.accepted seq)
      · intro entry inside
        obtain ⟨old, there, same, marked⟩ := mark_entry _ inside
        rw [sameEntries] at there
        rw [marked, thinned.marked old there, same]
        exact (delivered.accepted _).symm
      · intro old inside
        rcases thins.keeps old inside with gone | ⟨middle, there, seq, event⟩
        · exact .inl gone
        · obtain ⟨entry, listed, seq', event'⟩ :=
            mark_keeps state.acceptedEntries middle (sameEntries ▸ there)
          exact .inr ⟨entry, listed, seq'.trans seq, event'.trans event⟩

end Delivery

end Takode.HerdEvents
