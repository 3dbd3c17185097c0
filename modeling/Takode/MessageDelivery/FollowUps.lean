import Takode.MessageDelivery.Tracker

/-!
# Follow-ups

What the sender of a message is told over a whole run. A step changes what there is of one
message by an answer, by forgetting it or by an evaluation.
-/

namespace Takode.MessageDelivery

open JsString

/-- The record once the wait window is over. -/
def MessageDeliveryRecord.waited (record : MessageDeliveryRecord) (now : ℤ) : MessageDeliveryStatus :=
  if record.status = .pending && DELIVERY_WAIT_WINDOW_MS ≤ now - record.queuedAt then .queued
  else record.status

/-- A sender that was told of a message with this status is notified of its outcome. -/
def follows (status : MessageDeliveryStatus) (followUp : Bool) : Bool :=
  (status = .queued || status = .failed) && followUp

/-- What an evaluation of a watched message comes to, from the status after the wait window. -/
inductive Outcome (message : Tracked) (status : MessageDeliveryStatus) :
    DeliveryProbe → Tracked × Option MessageDeliveryStatus → Prop
  | delivered {record} (same : record.followUp = message.record.followUp)
      (settled : record.status = .delivered) :
      Outcome message status .delivered ({ message with record, watch := none },
        if follows status message.record.followUp then some .delivered else none)
  | failed {record watch probe} (same : record.followUp = message.record.followUp)
      (settled : record.status = .failed) (before : status ≠ .failed)
      (other : probe ≠ .delivered) (still : watch = none → ∃ reason, probe = .gone reason) :
      Outcome message status probe ({ message with record, watch },
        if follows status message.record.followUp then some .failed else none)
  | waits {record watch probe} (same : record.followUp = message.record.followUp)
      (settled : record.status = status) (other : probe ≠ .delivered)
      (still : watch = none → ∃ reason, probe = .gone reason) :
      Outcome message status probe ({ message with record, watch }, none)

theorem Tracked.evaluate_unwatched {message : Tracked} (gone : message.watch = none)
    (failure : Option LaunchFailure) (now : ℤ) (probe : DeliveryProbe) :
    message.evaluate failure now probe = (message, none) := by
  rw [evaluate, gone]

theorem Tracked.evaluate_outcome {message : Tracked} {watch : WatchState} (watched : message.watch = some watch)
    (failure : Option LaunchFailure) (now : ℤ) (probe : DeliveryProbe) :
    Outcome message (message.record.waited now) probe (message.evaluate failure now probe) := by
  rw [evaluate, watched]
  generalize same : (if message.record.status = .pending && DELIVERY_WAIT_WINDOW_MS ≤ now - message.record.queuedAt
    then { message.record with status := .queued } else message.record) = record
  have status : record.status = message.record.waited now := by
    rw [← same, MessageDeliveryRecord.waited]
    split <;> rfl
  have followUp : record.followUp = message.record.followUp := by
    rw [← same]
    split <;> rfl
  have told : (record.toldBefore && record.followUp) =
      follows (message.record.waited now) message.record.followUp := by
    rw [MessageDeliveryRecord.toldBefore, follows, status, followUp]
  simp only [same]
  cases probe with
  | delivered =>
    simp only [settle, told]
    exact .delivered followUp rfl
  | gone reason =>
    simp only
    split
    · next before =>
      simp only [settle, told]
      exact .failed followUp rfl (status ▸ before) nofun fun _ => ⟨reason, rfl⟩
    · exact .waits followUp status nofun fun _ => ⟨reason, rfl⟩
  | waiting reason wait =>
    simp only
    split
    · exact .waits followUp status nofun nofun
    · next before =>
      generalize (if wait = .stopped then some (watch.stoppedSince.getD now) else none) = stoppedSince
      have fails : ∀ failed watch, Outcome message (message.record.waited now) (.waiting reason wait)
          (Tracked.settle { message with record, watch := some watch } .failed (some failed) now) := by
        intro failed watch
        simp only [settle, told]
        exact .failed followUp rfl (status ▸ before) nofun nofun
      split
      · exact fails _ _
      · split
        · exact fails _ _
        · split
          · exact fails _ _
          · exact .waits followUp status nofun nofun

/-! ## What there is of one message -/

/-- A message, and what the tracker's four records have of it. -/
structure View where
  tracked : Tracked
  told : List MessageDeliveryStatus
  notified : List MessageDeliveryStatus
  found : Prop
  gone : Prop

def of (message : Nat) (log : List (Nat × MessageDeliveryStatus)) : List MessageDeliveryStatus :=
  (log.filter (·.1 = message)).map (·.2)

theorem of_append (message : Nat) (log new : List (Nat × MessageDeliveryStatus)) :
    of message (log ++ new) = of message log ++ of message new := by
  rw [of, List.filter_append, List.map_append, of, of]

theorem of_some (message other : Nat) (status : Option MessageDeliveryStatus) :
    of message (status.map (other, ·)).toList = if other = message then status.toList else [] := by
  cases status with
  | none => simp [of]
  | some status => by_cases same : other = message <;> simp [of, same]

namespace Tracker

def view (t : Tracker) (message : Nat) (tracked : Tracked) : View where
  tracked
  told := of message t.told
  notified := of message t.notified
  found := message ∈ t.found
  gone := message ∈ t.gone

end Tracker

namespace View

def answered (v : View) : View := { v with told := v.told ++ [v.tracked.record.status] }

def forgotten (v : View) : View := { v with tracked := { v.tracked with known := false, watch := none } }

def evaluated (v : View) (failure : Option LaunchFailure) (now : ℤ) (probe : DeliveryProbe) : View where
  tracked := (v.tracked.evaluate failure now probe).1
  told := v.told
  notified := v.notified ++ (v.tracked.evaluate failure now probe).2.toList
  found := v.found ∨ probe = .delivered
  gone := v.gone ∨ ∃ reason, probe = .gone reason

/-- The sender was told that the message is queued or has failed. -/
def ToldUndelivered (v : View) : Prop := .queued ∈ v.told ∨ .failed ∈ v.told ∨ .failed ∈ v.notified

/-- What holds of a message at every time. -/
structure Kept (v : View) : Prop where
  unsettled : v.tracked.record.status = .pending ∨ v.tracked.record.status = .queued → v.notified = []
  failed : v.tracked.record.status = .failed → v.notified.Sublist [.failed]
  delivered : v.tracked.record.status = .delivered → v.notified.Sublist [.failed, .delivered]
  found : v.tracked.record.status = .delivered → v.found
  toldDelivered : .delivered ∈ v.told → v.tracked.record.status = .delivered
  toldUndelivered : v.ToldUndelivered → v.tracked.record.status ≠ .pending
  watched : v.tracked.watch.isSome → v.tracked.record.status ≠ .delivered
  unwatched : v.tracked.known → v.tracked.watch = none → ¬ v.gone → v.tracked.record.status = .delivered
  followed : v.ToldUndelivered → v.tracked.record.followUp → v.tracked.record.status = .delivered →
    .delivered ∈ v.notified

/-- Before it is delivered, at most its failure is notified. -/
theorem Kept.undelivered {v : View} (kept : v.Kept) (status : v.tracked.record.status ≠ .delivered) :
    v.notified.Sublist [.failed] := by
  cases same : v.tracked.record.status with
  | pending => simp [kept.unsettled (.inl same)]
  | queued => simp [kept.unsettled (.inr same)]
  | failed => exact kept.failed same
  | delivered => exact absurd same status

theorem Kept.notified {v : View} (kept : v.Kept) : v.notified.Sublist [.failed, .delivered] := by
  by_cases status : v.tracked.record.status = .delivered
  · exact kept.delivered status
  · exact (kept.undelivered status).trans (.cons_cons _ (List.nil_sublist _))

theorem toldUndelivered_answered {v : View} (told : v.answered.ToldUndelivered) :
    v.ToldUndelivered ∨ v.tracked.record.status = .queued ∨ v.tracked.record.status = .failed := by
  simp only [ToldUndelivered, answered, List.mem_append, List.mem_singleton] at told ⊢
  grind

theorem Kept.answered {v : View} (kept : v.Kept) : v.answered.Kept where
  unsettled := kept.unsettled
  failed := kept.failed
  delivered := kept.delivered
  found := kept.found
  toldDelivered told := by
    obtain before | now := List.mem_append.mp told
    · exact kept.toldDelivered before
    · exact (List.mem_singleton.mp now).symm
  toldUndelivered told pending := by
    obtain before | queued | failed := toldUndelivered_answered told
    · exact kept.toldUndelivered before pending
    · cases queued.symm.trans pending
    · cases failed.symm.trans pending
  watched := kept.watched
  unwatched := kept.unwatched
  followed told followUp delivered := by
    obtain before | queued | failed := toldUndelivered_answered told
    · exact kept.followed before followUp delivered
    · cases queued.symm.trans delivered
    · cases failed.symm.trans delivered

theorem Kept.forgotten {v : View} (kept : v.Kept) : v.forgotten.Kept where
  unsettled := kept.unsettled
  failed := kept.failed
  delivered := kept.delivered
  found := kept.found
  toldDelivered := kept.toldDelivered
  toldUndelivered := kept.toldUndelivered
  watched := nofun
  unwatched := nofun
  followed := kept.followed

theorem waited_cases (record : MessageDeliveryRecord) (now : ℤ) :
    record.waited now = record.status ∨ record.status = .pending ∧ record.waited now = .queued := by
  rw [MessageDeliveryRecord.waited]
  split
  · next waited =>
    simp only [Bool.and_eq_true, decide_eq_true_eq] at waited
    exact .inr ⟨waited.1, rfl⟩
  · exact .inl rfl

theorem follows_waited {record : MessageDeliveryRecord} (told : record.status ≠ .pending)
    (undelivered : record.status ≠ .delivered) (now : ℤ) :
    follows (record.waited now) record.followUp = record.followUp := by
  obtain unchanged | ⟨pending, -⟩ := waited_cases record now
  · rw [unchanged, follows]
    cases status : record.status <;> simp_all
  · exact absurd pending told

theorem toList_sublist (condition : Bool) (status : MessageDeliveryStatus) :
    (if condition then some status else none).toList.Sublist [status] := by
  cases condition <;> simp

theorem Kept.evaluated {v : View} (kept : v.Kept) (failure : Option LaunchFailure) (now : ℤ)
    (probe : DeliveryProbe) : (v.evaluated failure now probe).Kept := by
  cases watched : v.tracked.watch with
  | none =>
    have unchanged := Tracked.evaluate_unwatched watched failure now probe
    have same : v.evaluated failure now probe =
        { v with found := v.found ∨ probe = .delivered, gone := v.gone ∨ ∃ reason, probe = .gone reason } := by
      rw [View.evaluated, unchanged, Option.toList_none, List.append_nil]
    rw [same]
    exact { kept with
      found := fun delivered => .inl (kept.found delivered)
      unwatched := fun known unwatched gone => kept.unwatched known unwatched fun before => gone (.inl before) }
  | some watch =>
    have undelivered : v.tracked.record.status ≠ .delivered := kept.watched (by rw [watched]; rfl)
    have outcome := Tracked.evaluate_outcome watched failure now probe
    have window := waited_cases v.tracked.record now
    have earlier := kept.undelivered undelivered
    rw [View.evaluated]
    generalize v.tracked.evaluate failure now probe = evaluated at outcome
    cases outcome with
    | @delivered record same settled =>
      exact {
        unsettled := by simp [settled]
        failed := by simp [settled]
        delivered := fun _ => earlier.append (toList_sublist _ _)
        found := fun _ => .inr rfl
        toldDelivered := fun _ => settled
        toldUndelivered := by simp [settled]
        watched := nofun
        unwatched := fun _ _ _ => settled
        followed := by
          intro told followUp _
          -- The sender was told before, so the status was no longer pending.
          have before : v.ToldUndelivered := by
            obtain queued | failed | notified := told
            · exact .inl queued
            · exact .inr (.inl failed)
            · obtain earlier | now := List.mem_append.mp notified
              · exact .inr (.inr earlier)
              · exact nomatch List.mem_singleton.mp ((toList_sublist _ _).subset now)
          have follow := follows_waited (kept.toldUndelivered before) undelivered now
          have asked : v.tracked.record.followUp = true := same ▸ followUp
          rw [asked] at follow
          simp [asked, follow] }
    | @failed record watch probe same settled before other still =>
      have pending : v.tracked.record.status = .pending ∨ v.tracked.record.status = .queued := by
        obtain unchanged | ⟨pending, -⟩ := window
        · rw [unchanged] at before
          cases known : v.tracked.record.status <;> simp_all
        · exact .inl pending
      have none := kept.unsettled pending
      exact {
        unsettled := by simp [settled]
        failed := fun _ => by
          rw [none]
          exact toList_sublist _ _
        delivered := by simp [settled]
        found := by simp [settled]
        toldDelivered := fun told => absurd (kept.toldDelivered told) undelivered
        toldUndelivered := by simp [settled]
        watched := by simp [settled]
        unwatched := fun _ unwatched gone => absurd (.inr (still unwatched)) gone
        followed := by simp [settled] }
    | @waits record watch probe same settled other still =>
      have statuses : record.status = v.tracked.record.status ∨
          v.tracked.record.status = .pending ∧ record.status = .queued := settled ▸ window
      have open' : record.status ≠ .delivered := by
        obtain unchanged | ⟨-, queued⟩ := statuses
        · exact unchanged ▸ undelivered
        · simp [queued]
      rw [Option.toList_none, List.append_nil]
      exact {
        unsettled := by
          intro unsettled
          obtain unchanged | ⟨pending, -⟩ := statuses
          · exact kept.unsettled (unchanged ▸ unsettled)
          · exact kept.unsettled (.inl pending)
        failed := fun _ => earlier
        delivered := fun delivered => absurd delivered open'
        found := fun delivered => absurd delivered open'
        toldDelivered := fun told => absurd (kept.toldDelivered told) undelivered
        toldUndelivered := by
          intro told
          obtain unchanged | ⟨-, queued⟩ := statuses
          · exact unchanged ▸ kept.toldUndelivered told
          · simp [queued]
        watched := fun _ => open'
        unwatched := fun _ unwatched gone => absurd (.inr (still unwatched)) gone
        followed := fun _ _ delivered => absurd delivered open' }

/-- What a step does to a message. -/
inductive Moves (v : View) : View → Prop
  | unchanged : Moves v v
  | answered : Moves v v.answered
  | forgotten : Moves v v.forgotten
  | evaluated (failure : Option LaunchFailure) (now : ℤ) (probe : DeliveryProbe) :
      Moves v (v.evaluated failure now probe)

theorem Kept.moves {v v' : View} (kept : v.Kept) (moves : v.Moves v') : v'.Kept := by
  cases moves with
  | unchanged => exact kept
  | answered => exact kept.answered
  | forgotten => exact kept.forgotten
  | evaluated failure now probe => exact kept.evaluated failure now probe

/-- A delivered message stays as it is; a poll of it is told that it is delivered. -/
structure Final (v v' : View) : Prop where
  record : v'.tracked.record = v.tracked.record
  notified : v'.notified = v.notified
  told : ∃ n, v'.told = v.told ++ List.replicate n .delivered

theorem Final.trans {v v' v'' : View} (first : v.Final v') (second : v'.Final v'') : v.Final v'' where
  record := second.record.trans first.record
  notified := second.notified.trans first.notified
  told := by
    obtain ⟨n, told⟩ := first.told
    obtain ⟨m, more⟩ := second.told
    refine ⟨n + m, ?_⟩
    rw [more, told, List.append_assoc, List.replicate_append_replicate]

theorem Kept.final {v v' : View} (kept : v.Kept) (delivered : v.tracked.record.status = .delivered)
    (moves : v.Moves v') : v.Final v' := by
  cases moves with
  | unchanged => exact ⟨rfl, rfl, 0, (List.append_nil _).symm⟩
  | answered => exact ⟨rfl, rfl, 1, by rw [View.answered, delivered]; rfl⟩
  | forgotten => exact ⟨rfl, rfl, 0, (List.append_nil _).symm⟩
  | evaluated failure now probe =>
    have unwatched : v.tracked.watch = none := by
      by_contra watched
      exact kept.watched (Option.isSome_iff_ne_none.mpr watched) delivered
    have unchanged := Tracked.evaluate_unwatched unwatched failure now probe
    refine ⟨?_, ?_, 0, (List.append_nil _).symm⟩
    · rw [View.evaluated, unchanged]
    · rw [View.evaluated, unchanged, Option.toList_none, List.append_nil]

theorem Kept.follow_up {v : View} (kept : v.Kept) (told : v.ToldUndelivered)
    (asked : v.tracked.record.followUp) (known : v.tracked.known)
    (gone : v.gone → v.tracked.record.status = .delivered) (failure : Option LaunchFailure) (now : ℤ) :
    .delivered ∈ (v.evaluated failure now .delivered).notified := by
  have after := kept.evaluated failure now .delivered
  have unchanged : (v.evaluated failure now .delivered).tracked.record.followUp = v.tracked.record.followUp ∧
      (v.evaluated failure now .delivered).tracked.record.status = .delivered := by
    cases watched : v.tracked.watch with
    | none =>
      rw [View.evaluated, Tracked.evaluate_unwatched watched]
      by_cases before : v.gone
      · exact ⟨rfl, gone before⟩
      · exact ⟨rfl, kept.unwatched known watched before⟩
    | some watch =>
      have outcome := Tracked.evaluate_outcome watched failure now .delivered
      rw [View.evaluated]
      generalize v.tracked.evaluate failure now .delivered = evaluated at outcome
      cases outcome with
      | delivered same settled => exact ⟨same, settled⟩
      | failed _ _ _ other => exact absurd rfl other
      | waits _ _ other => exact absurd rfl other
  have toldAfter : (v.evaluated failure now .delivered).ToldUndelivered :=
    told.imp_right (.imp_right fun failed => List.mem_append_left _ failed)
  exact after.followed toldAfter (unchanged.1 ▸ asked) unchanged.2

end View

/-! ## Steps -/

/-- A step that tracks no new message. -/
structure Moved (t t' : Tracker) : Prop where
  length : t'.messages.length = t.messages.length
  moves : ∀ {m tracked}, t.messages[m]? = some tracked →
    ∃ tracked', t'.messages[m]? = some tracked' ∧ (t.view m tracked).Moves (t'.view m tracked')
  untracked : ∀ {m}, t.messages.length ≤ m → of m t'.told = of m t.told ∧ of m t'.notified = of m t.notified

section

variable {t t' : Tracker}

/-- Neither the messages nor the records of what has happened change. -/
structure Same (t t' : Tracker) : Prop where
  messages : t'.messages = t.messages := by rfl
  told : t'.told = t.told := by rfl
  notified : t'.notified = t.notified := by rfl
  found : t'.found = t.found := by rfl
  gone : t'.gone = t.gone := by rfl

theorem Same.view (same : Same t t') (m : Nat) (tracked : Tracked) : t'.view m tracked = t.view m tracked := by
  rw [Tracker.view, same.told, same.notified, same.found, same.gone, Tracker.view]

theorem Same.moved (same : Same t t') : Moved t t' where
  length := by rw [same.messages]
  moves {m tracked} known := by
    refine ⟨tracked, same.messages ▸ known, ?_⟩
    rw [same.view]
    exact .unchanged
  untracked _ := ⟨by rw [same.told], by rw [same.notified]⟩

theorem Same.then {u : Tracker} (same : Same t u) (moved : Moved u t') : Moved t t' where
  length := same.messages ▸ moved.length
  moves {m tracked} known := same.view m tracked ▸ moved.moves (same.messages ▸ known)
  untracked beyond := same.told ▸ same.notified ▸ moved.untracked (same.messages ▸ beyond)

theorem Moved.answer (t : Tracker) (message : Nat) : Moved t (t.answer message) where
  length := rfl
  moves {m tracked} known := by
    refine ⟨tracked, known, ?_⟩
    by_cases same : message = m
    · subst same
      have answered : (t.answer message).view message tracked = (t.view message tracked).answered := by
        simp [Tracker.view, Tracker.answer, View.answered, known, of]
      rw [answered]
      exact .answered
    · have unchanged : (t.answer message).view m tracked = t.view m tracked := by
        have other := of_some m message (t.messages[message]?.map (·.record.status))
        rw [Option.map_map, if_neg same] at other
        simp only [Tracker.view, Tracker.answer, of_append]
        rw [Function.comp_def] at other
        rw [other, List.append_nil]
      rw [unchanged]
      exact .unchanged
  untracked {m} beyond := by
    refine ⟨?_, rfl⟩
    have other := of_some m message (t.messages[message]?.map (·.record.status))
    rw [Option.map_map, Function.comp_def] at other
    rw [Tracker.answer, of_append, other]
    split
    · next same =>
      rw [same, List.getElem?_eq_none beyond]
      exact List.append_nil _
    · exact List.append_nil _

theorem Moved.forget (t : Tracker) (now : ℤ) : Moved t (t.forget now) where
  length := List.length_map _
  moves {m tracked} known := by
    have mapped : (t.forget now).messages[m]? = some (if tracked.known && RECORD_TTL_MS ≤ now - tracked.record.queuedAt then
        { tracked with known := false, watch := none } else tracked) := by
      rw [Tracker.forget, List.getElem?_map, known, Option.map_some]
    refine ⟨_, mapped, ?_⟩
    split
    · exact .forgotten
    · exact .unchanged
  untracked _ := ⟨rfl, rfl⟩

theorem evaluateNext_eq (t : Tracker) (rest : List Nat) :
    ∃ tasks ticking, t.evaluateNext rest = { t with tasks, ticking } := by
  induction rest with
  | nil => exact ⟨t.tasks, false, rfl⟩
  | cons message rest ih =>
    rw [Tracker.evaluateNext]
    split
    · exact ⟨_, _, rfl⟩
    · exact ih

theorem Moved.evaluateNext {rest : List Nat} (moved : Moved t t') : Moved t (t'.evaluateNext rest) := by
  obtain ⟨tasks, ticking, next⟩ := evaluateNext_eq t' rest
  rw [next]
  exact ⟨moved.length, moved.moves, moved.untracked⟩

/-- What an evaluation that goes on does to its message, and that it leaves the others alone. -/
theorem Moved.probed {i message : Nat} {caller : Caller} {now : ℤ} {probe : DeliveryProbe} {tracked : Tracked}
    (task : t.tasks[i]? = some ⟨message, caller, false⟩) (known : t.messages[message]? = some tracked)
    (taken : t.probed i now (some probe) = some t') :
    Moved t t' ∧ ∃ tracked', t'.messages[message]? = some tracked' ∧ t'.view message tracked' =
      (t.view message tracked).evaluated (t.launchFailures.get? tracked.record.targetSessionId) now probe := by
  rw [Tracker.probed, task] at taken
  simp only [known, Option.some.injEq] at taken
  have inside : message < t.messages.length := (List.getElem?_eq_some_iff.mp known).1
  generalize same : tracked.evaluate (t.launchFailures.get? tracked.record.targetSessionId) now probe = evaluated
    at taken
  have messages : t'.messages = t.messages.set message evaluated.1 := by rw [← taken]
  have told : t'.told = t.told := by rw [← taken]
  have notified : t'.notified = t.notified ++ (evaluated.2.map (message, ·)).toList := by rw [← taken]
  have found : ∀ m, m ∈ t'.found ↔ m ∈ t.found ∨ m = message ∧ probe = .delivered := by
    intro m
    rw [← taken]
    by_cases delivered : probe = .delivered <;> simp [delivered]
  have gone : ∀ m, m ∈ t'.gone ↔ m ∈ t.gone ∨ m = message ∧ ∃ reason, probe = .gone reason := by
    intro m
    rw [← taken]
    cases probe <;> simp
  have evaluates : t'.view message evaluated.1 =
      (t.view message tracked).evaluated (t.launchFailures.get? tracked.record.targetSessionId) now probe := by
    simp only [Tracker.view, View.evaluated, told, notified, found, gone, of_append, of_some, true_and, if_true,
      same]
  have set : t'.messages[message]? = some evaluated.1 := by rw [messages, List.getElem?_set_self inside]
  refine ⟨⟨by rw [messages, List.length_set], ?_, ?_⟩, evaluated.1, set, evaluates⟩
  · intro m other at'
    by_cases own : message = m
    · subst own
      cases known.symm.trans at'
      refine ⟨evaluated.1, set, ?_⟩
      rw [evaluates]
      exact .evaluated _ _ _
    · refine ⟨other, by rw [messages, ← at', List.getElem?_set_ne own], ?_⟩
      have unchanged : t'.view m other = t.view m other := by
        have apart : m ≠ message := Ne.symm own
        simp only [Tracker.view, told, notified, found, gone, of_append, of_some, own, apart, false_and, or_false,
          if_false, List.append_nil]
      rw [unchanged]
      exact .unchanged
  · intro m beyond
    have other : message ≠ m := by omega
    simp only [told, notified, of_append, of_some, other, if_false, List.append_nil, and_self]

theorem Moved.of_probed {i : Nat} {now : ℤ} {probe : Option DeliveryProbe}
    (taken : t.probed i now probe = some t') : Moved t t' := by
  cases task : t.tasks[i]? with
  | none => simp [Tracker.probed, task] at taken
  | some waiting =>
    obtain ⟨message, caller, done⟩ := waiting
    cases done with
    | true => simp [Tracker.probed, task] at taken
    | false =>
      cases probe with
      | none =>
        simp only [Tracker.probed, task, Option.some.injEq] at taken
        cases taken
        exact Same.moved {}
      | some probe =>
        cases known : t.messages[message]? with
        | none =>
          simp only [Tracker.probed, task, known, Option.some.injEq] at taken
          cases taken
          exact Same.moved {}
        | some tracked => exact (Moved.probed task known taken).1

/-- A step tracks a new message or moves those that there are. -/
theorem step_cases {now : ℤ} {event : Event} (taken : tracker.step t (now, event) = some t') :
    (∃ target sender followUp, t' = ({ t with now } : Tracker).track target sender followUp now) ∨ Moved t t' := by
  simp only [tracker] at taken
  split at taken
  · have same : Same t { t with now } := {}
    cases event with
    | track target sender followUp =>
      cases taken
      exact .inl ⟨target, sender, followUp, rfl⟩
    | recordLaunchFailure sessionId message =>
      cases taken
      exact .inr (Same.moved {})
    | poll message =>
      cases taken
      refine .inr ?_
      rw [Tracker.poll]
      split
      · split
        · exact same.moved
        · split
          · exact Same.moved {}
          · exact same.then (.answer _ message)
      · exact same.moved
    | tick =>
      cases taken
      refine .inr ?_
      rw [Tracker.tick]
      split
      · exact same.moved
      · have started : Same t { t with now, ticking := true } := {}
        exact (started.then (.forget _ now)).evaluateNext
    | probed i probe =>
      exact .inr (same.then (.of_probed taken))
    | resumes i =>
      refine .inr ?_
      simp only [Tracker.resumes] at taken
      split at taken
      · next message caller _ =>
        cases taken
        cases caller with
        | poll =>
          have resumed : Same t { t with now, tasks := t.tasks.eraseIdx i } := {}
          exact resumed.then (.answer _ message)
        | tick rest => exact (Same.moved {}).evaluateNext
      · cases taken
  · cases taken

end

/-! ## Runs -/

/-- What holds of every message in every state of a run. -/
structure Inv (t : Tracker) : Prop where
  kept : ∀ {m tracked}, t.messages[m]? = some tracked → (t.view m tracked).Kept
  untracked : ∀ {m}, t.messages.length ≤ m → of m t.told = [] ∧ of m t.notified = []

variable {t t' : Tracker}

theorem Inv.track (inv : Inv t) (target sender : JsString) (followUp : Bool) (now : ℤ) :
    Inv (({ t with now } : Tracker).track target sender followUp now) where
  kept {m tracked} known := by
    rw [Tracker.track, List.getElem?_append] at known
    split at known
    · exact inv.kept known
    · obtain ⟨told, notified⟩ := inv.untracked (Nat.not_lt.mp ‹_›)
      rw [List.getElem?_singleton] at known
      split at known
      · cases known
        constructor <;> simp [Tracker.view, Tracker.track, View.ToldUndelivered, told, notified]
      · cases known
  untracked {m} beyond := by
    rw [Tracker.track, List.length_append, List.length_singleton] at beyond
    exact inv.untracked (by simp only at beyond; omega)

theorem Inv.moved (inv : Inv t) (moved : Moved t t') : Inv t' where
  kept {m tracked'} known' := by
    have inside : m < t.messages.length := by
      rw [← moved.length]
      exact (List.getElem?_eq_some_iff.mp known').1
    obtain ⟨after, same, moves⟩ := moved.moves (List.getElem?_eq_getElem inside)
    cases known'.symm.trans same
    exact (inv.kept (List.getElem?_eq_getElem inside)).moves moves
  untracked {m} beyond := by
    have before := moved.length ▸ beyond
    rw [(moved.untracked before).1, (moved.untracked before).2]
    exact inv.untracked before

theorem Inv.of_reachable (reached : tracker.Reachable t) : Inv t := by
  induction reached with
  | start => exact ⟨by simp [tracker], by simp [tracker, of]⟩
  | step before _ taken inv =>
    obtain ⟨target, sender, followUp, same⟩ | moved := step_cases taken
    · exact same ▸ inv.track target sender followUp _
    · exact inv.moved moved

theorem final_of_leads {m : Nat} {tracked : Tracked} (reached : tracker.Reachable t)
    (known : t.messages[m]? = some tracked) (delivered : tracked.record.status = .delivered)
    (leads : tracker.Leads (fun _ _ => True) t t') :
    ∃ tracked', t'.messages[m]? = some tracked' ∧ (t.view m tracked).Final (t'.view m tracked') := by
  induction leads with
  | refl => exact ⟨tracked, known, rfl, rfl, 0, (List.append_nil _).symm⟩
  | @tail u t' earlier step ih =>
    obtain ⟨before, knownBefore, final⟩ := ih
    obtain ⟨⟨now, event⟩, -, taken⟩ := step
    have inv := Inv.of_reachable (reached.leads earlier)
    have still : before.record.status = .delivered := by
      have record : before.record = tracked.record := final.record
      rw [record, delivered]
    obtain ⟨target, sender, followUp, same⟩ | moved := step_cases taken
    · have inside := (List.getElem?_eq_some_iff.mp knownBefore).1
      subst same
      exact ⟨before, by rw [Tracker.track, List.getElem?_append_left inside, knownBefore], final⟩
    · obtain ⟨after, knownAfter, moves⟩ := moved.moves knownBefore
      exact ⟨after, knownAfter, final.trans ((inv.kept knownBefore).final still moves)⟩

/-- Whether the sender was told that the message is queued or has failed, by a poll or a
notification. -/
def Tracker.ToldUndelivered (t : Tracker) (m : Nat) : Prop :=
  .queued ∈ of m t.told ∨ .failed ∈ of m t.told ∨ .failed ∈ of m t.notified

/-- At most its failure and then its delivery are notified of a message; its delivery is reported
only after a probe said so, and what is delivered is final. A sender that was told before is
notified at an evaluation that finds the message delivered, if its record is still known and its
target was not found gone before that. -/
theorem followUps_reported (reached : tracker.Reachable t) (m : Nat) :
    (of m t.notified).Sublist [.failed, .delivered] ∧
    (.delivered ∈ of m t.notified ∨ .delivered ∈ of m t.told → m ∈ t.found) ∧
    (∀ tracked, t.messages[m]? = some tracked → tracked.record.status = .delivered →
      ∀ t', tracker.Leads (fun _ _ => True) t t' → ∃ tracked', t'.messages[m]? = some tracked' ∧
        tracked'.record = tracked.record ∧ of m t'.notified = of m t.notified ∧
        ∃ n, of m t'.told = of m t.told ++ List.replicate n .delivered) ∧
    ∀ tracked i caller now t', t.messages[m]? = some tracked → t.tasks[i]? = some ⟨m, caller, false⟩ →
      tracker.step t (now, .probed i (some .delivered)) = some t' → t.ToldUndelivered m →
      tracked.record.followUp → tracked.known → (m ∈ t.gone → tracked.record.status = .delivered) →
      .delivered ∈ of m t'.notified := by
  have inv := Inv.of_reachable reached
  refine ⟨?_, ?_, ?_, ?_⟩
  · by_cases inside : m < t.messages.length
    · exact (inv.kept (List.getElem?_eq_getElem inside)).notified
    · rw [(inv.untracked (Nat.not_lt.mp inside)).2]
      exact List.nil_sublist _
  · intro reported
    by_cases inside : m < t.messages.length
    · have kept := inv.kept (List.getElem?_eq_getElem inside)
      apply kept.found
      obtain notified | told := reported
      · by_contra undelivered
        cases List.mem_singleton.mp ((kept.undelivered undelivered).subset notified)
      · exact kept.toldDelivered told
    · obtain ⟨told, notified⟩ := inv.untracked (Nat.not_lt.mp inside)
      simp [told, notified] at reported
  · intro tracked known delivered t' leads
    obtain ⟨tracked', known', final⟩ := final_of_leads reached known delivered leads
    exact ⟨tracked', known', final.record, final.notified, final.told⟩
  · intro tracked i caller now t' known task taken told asked record gone
    simp only [tracker] at taken
    split at taken
    · obtain ⟨-, tracked', -, evaluated⟩ := Moved.probed (t := { t with now }) task known taken
      have notified := (inv.kept known).follow_up told asked record gone
        (t.launchFailures.get? tracked.record.targetSessionId) now
      have same : (t'.view m tracked').notified = of m t'.notified := rfl
      rw [← same, evaluated]
      exact notified
    · cases taken

/-- A message that its sender was told is queued, and that two polls look for at once. -/
def polledTwice : List (ℤ × Event) :=
  [(0, .track (js "target") (js "leader") true),
    (20000, .poll 0),
    (20000, .probed 0 (some (.waiting (js "the session is starting") .starting))),
    (20000, .resumes 0),
    (20001, .poll 0),
    (20001, .poll 0)]

/-- That message. -/
def polled : Tracked where
  record :=
    { targetSessionId := js "target", senderSessionId := js "leader", queuedAt := 0, status := .queued
      reason := some (js "the session is starting"), followUp := true }

theorem later_delivery_reported : ∃ t, tracker.Reachable t ∧ .queued ∈ of 0 t.told ∧
    ∀ t', tracker.step t (20002, .probed 0 (some .delivered)) = some t' → .delivered ∈ of 0 t'.notified := by
  obtain ⟨t, reached, known, task, told, gone⟩ := tracker.exists_reaches_of_run (fun _ _ => true)
    (fun t => t.messages[0]? = some polled ∧ t.tasks[0]? = some ⟨0, .poll, false⟩ ∧ .queued ∈ of 0 t.told ∧
      t.gone = []) polledTwice (by decide +kernel)
  refine ⟨t, reached.reachable, told, fun t' taken => ?_⟩
  obtain ⟨-, -, -, follows⟩ := followUps_reported reached.reachable 0
  exact follows polled 0 .poll 20002 t' known task taken (.inl told) rfl rfl (by simp [gone])

/-- The other poll finds that the target was archived, and then the first one that the message was
delivered: the sender is told only that it failed. -/
theorem archived_then_delivered_unreported : ∃ t t', tracker.Reachable t ∧ .queued ∈ of 0 t.told ∧
    .failed ∈ of 0 t.notified ∧ (∀ tracked ∈ t.messages[0]?, tracked.record.followUp ∧ tracked.known) ∧
    t.tasks[0]? = some ⟨0, .poll, false⟩ ∧
    tracker.step t (20003, .probed 0 (some .delivered)) = some t' ∧ .delivered ∉ of 0 t'.notified := by
  obtain ⟨t, reached, told, failed, asked, task, taken⟩ := tracker.exists_reaches_of_run (fun _ _ => true)
    (fun t => .queued ∈ of 0 t.told ∧ .failed ∈ of 0 t.notified ∧
      (∀ tracked ∈ t.messages[0]?, tracked.record.followUp ∧ tracked.known) ∧
      t.tasks[0]? = some ⟨0, .poll, false⟩ ∧
      (tracker.step t (20003, .probed 0 (some .delivered))).any fun t' => decide (.delivered ∉ of 0 t'.notified))
    (polledTwice ++ [(20002, .probed 1 (some (.gone (js "the session was archived"))))]) (by decide +kernel)
  obtain ⟨t', stepped, unreported⟩ := (Option.any_eq_true _ _).mp taken
  exact ⟨t, t', reached.reachable, told, failed, asked, task, stepped, of_decide_eq_true unreported⟩

end Takode.MessageDelivery
