import Takode.RemoteHost.Order

/-!
# Acknowledgements

An acknowledgement is a bare number, so it means something only while both sides
count alike: every command that the current host instance has applied, or will
apply, bears the ticket the queue has under its number. A host that the
coordinator welcomed, lost to another instance and meets again would count
differently; `loyal` is the condition that this does not happen.
-/

namespace Takode.RemoteHost

open HostLinkManager

/-- The frames from the first welcome on. -/
def fromWelcome (frames : List CoordinatorToHost) : List CoordinatorToHost :=
  frames.dropWhile fun frame => !frame.isWelcome

theorem fromWelcome_cons (frame : CoordinatorToHost) (rest : List CoordinatorToHost) :
    fromWelcome (frame :: rest) = if frame.isWelcome then frame :: rest else fromWelcome rest := by
  cases isWelcome : frame.isWelcome <;> simp [fromWelcome, isWelcome]

/-- The commands on its way that a host counts: those after its first welcome. -/
def HostAgent.heard (a : HostAgent) (frames : List CoordinatorToHost) : List QueuedCommand :=
  commandsOf (if a.coordinatorInstanceId = none then fromWelcome frames else frames)

theorem fromWelcome_append_subset (xs ys : List CoordinatorToHost) :
    fromWelcome (xs ++ ys) ⊆ fromWelcome xs ++ ys := by
  induction xs with
  | nil => exact (List.dropWhile_suffix _).subset
  | cons frame rest ih =>
    rw [List.cons_append, fromWelcome_cons, fromWelcome_cons]
    split
    · exact List.Subset.refl _
    · exact ih

theorem fromWelcome_append_unsolicited {xs ys : List CoordinatorToHost}
    (unsolicited : ∀ frame ∈ xs, frame.isWelcome = false) :
    fromWelcome (xs ++ ys) = fromWelcome ys := by
  induction xs with
  | nil => rfl
  | cons frame rest ih =>
    rw [List.cons_append, fromWelcome_cons, unsolicited frame List.mem_cons_self]
    exact ih fun other inside => unsolicited other (List.mem_cons_of_mem _ inside)

theorem fromWelcome_eq_nil {frames : List CoordinatorToHost}
    (unsolicited : ∀ frame ∈ frames, frame.isWelcome = false) : fromWelcome frames = [] := by
  apply List.dropWhile_eq_nil_iff.mpr
  intro frame inside
  simp [unsolicited frame inside]

theorem fromWelcome_subset_append (xs ys : List CoordinatorToHost) :
    fromWelcome xs ⊆ fromWelcome (xs ++ ys) := by
  induction xs with
  | nil => exact List.nil_subset _
  | cons frame rest ih =>
    rw [List.cons_append, fromWelcome_cons, fromWelcome_cons]
    split
    · exact List.subset_append_left _ _
    · exact ih

theorem fromWelcome_append_of_welcome {xs : List CoordinatorToHost} (ys : List CoordinatorToHost)
    (welcome : ∃ frame ∈ xs, frame.isWelcome = true) :
    fromWelcome (xs ++ ys) = fromWelcome xs ++ ys := by
  induction xs with
  | nil => simp at welcome
  | cons frame rest ih =>
    rw [List.cons_append, fromWelcome_cons, fromWelcome_cons]
    split
    · rfl
    · rename_i other
      exact ih (by simpa [other] using welcome)

theorem HostAgent.heard_append_eq {a : HostAgent} {xs ys : List CoordinatorToHost}
    (welcome : a.coordinatorInstanceId = none → ∃ frame ∈ xs, frame.isWelcome = true) :
    a.heard (xs ++ ys) = a.heard xs ++ commandsOf ys := by
  unfold heard
  by_cases none : a.coordinatorInstanceId = none
  · rw [if_pos none, if_pos none, fromWelcome_append_of_welcome ys (welcome none),
      commandsOf_append]
  · rw [if_neg none, if_neg none, commandsOf_append]

theorem HostAgent.heard_take (a : HostAgent) (frames : List CoordinatorToHost) (n : Nat) :
    a.heard (frames.take n) ⊆ a.heard frames := by
  intro f inside
  have inside := mem_commandsOf.mp inside
  refine mem_commandsOf.mpr ?_
  split at inside
  · rw [if_pos ‹_›]
    have := fromWelcome_subset_append (frames.take n) (frames.drop n) inside
    rwa [List.take_append_drop] at this
  · rw [if_neg ‹_›]
    exact List.mem_of_mem_take inside

theorem HostAgent.heard_tail (a : HostAgent) (frame : CoordinatorToHost)
    (rest : List CoordinatorToHost) : a.heard rest ⊆ a.heard (frame :: rest) := by
  intro f inside
  have inside := mem_commandsOf.mp inside
  refine mem_commandsOf.mpr ?_
  split at inside
  · rw [if_pos ‹_›, fromWelcome_cons]
    split
    · exact List.mem_cons_of_mem _ ((List.dropWhile_suffix _).subset inside)
    · exact inside
  · rw [if_neg ‹_›]
    exact List.mem_cons_of_mem _ inside

theorem HostAgent.heard_append {a : HostAgent} {xs ys : List CoordinatorToHost}
    {f : QueuedCommand} (inside : f ∈ a.heard (xs ++ ys)) : f ∈ a.heard xs ∨ f ∈ commandsOf ys := by
  unfold heard at *
  by_cases none : a.coordinatorInstanceId = none
  · rw [if_pos none] at *
    simpa [mem_commandsOf] using fromWelcome_append_subset xs ys (mem_commandsOf.mp inside)
  · rw [if_neg none] at *
    simpa using inside

/-- A host and the queue number commands alike. -/
structure Numbering (m : HostLinkManager) (a : HostAgent) : Prop where
  short : a.applied.length < m.link.nextCommandSeq
  agrees : ∀ q ∈ m.link.unacked, ∀ i t, a.applied[i]? = some t → q.seq = i + 1 → t = q.ticket

/-- The commands on their way to a host bear the numbers of the queue. -/
def Heard (m : HostLinkManager) (a : HostAgent) (frames : List CoordinatorToHost) : Prop :=
  ∀ f ∈ a.heard frames, f.seq < m.link.nextCommandSeq ∧
    ∀ q ∈ m.link.unacked, q.seq = f.seq → q.ticket = f.ticket

namespace Requeued

variable {acks : Nat → Prop} {m m' : HostLinkManager} {a : HostAgent}
  {frames : List CoordinatorToHost}

theorem numbering (requeued : Requeued acks m m') (numbering : Numbering m a) :
    Numbering m' a := by
  rcases requeued.cases with ⟨kept, next, -⟩ | ⟨command, queue, next, -⟩
  · exact ⟨next ▸ numbering.short, fun q queued => numbering.agrees q (kept.subset queued)⟩
  · have short := numbering.short
    refine ⟨by omega, fun q queued i t at' number => ?_⟩
    rw [queue] at queued
    rcases List.mem_append.mp queued with old | new
    · exact numbering.agrees q old i t at' number
    · obtain ⟨inside, -⟩ := List.getElem?_eq_some_iff.mp at'
      rw [List.mem_singleton.mp new] at number
      simp only at number
      omega

theorem heard (requeued : Requeued acks m m') (heard : Heard m a frames) :
    Heard m' a frames := by
  intro f inside
  obtain ⟨below, agrees⟩ := heard f inside
  rcases requeued.cases with ⟨kept, next, -⟩ | ⟨command, queue, next, -⟩
  · exact ⟨next ▸ below, fun q queued => agrees q (kept.subset queued)⟩
  · refine ⟨by omega, fun q queued same => ?_⟩
    rw [queue] at queued
    rcases List.mem_append.mp queued with old | new
    · exact agrees q old same
    · rw [List.mem_singleton.mp new] at same
      simp only at same
      omega

end Requeued

/-- Commands of the queue are sent after those on their way. -/
theorem Heard.append {m : HostLinkManager} {a : HostAgent} {frames more : List CoordinatorToHost}
    (heard : Heard m a frames) (numbered : Numbered m)
    (sent : (commandsOf more).Sublist m.link.unacked) : Heard m a (frames ++ more) := by
  intro f inside
  rcases HostAgent.heard_append inside with old | new
  · exact heard f old
  · have queued := sent.subset new
    exact ⟨(numbered.bound f queued).2, fun q other same =>
      congrArg QueuedCommand.ticket (numbered.eq_of_seq other queued same)⟩

namespace Handled

variable {K : Uuid} {m : HostLinkManager} {a : HostAgent} {frame : CoordinatorToHost}
  {r : HostAgent × List HostToCoordinator} {rest : List CoordinatorToHost}

theorem heard_subset (handled : Handled a frame r) : r.1.heard rest ⊆ a.heard (frame :: rest) := by
  have same : r.1.coordinatorInstanceId = a.coordinatorInstanceId →
      r.1.heard rest ⊆ a.heard (frame :: rest) := by
    intro eq
    unfold HostAgent.heard
    rw [eq]
    exact a.heard_tail frame rest
  cases handled with
  | calm _ _ reaction => exact same reaction.coordinatorInstanceId
  | closed _ _ _ _ coordinator => exact same coordinator
  | welcomed i e received isWelcome _ _ _ coordinator =>
    intro f inside
    have inside := mem_commandsOf.mp inside
    rw [coordinator, if_neg (by simp)] at inside
    refine mem_commandsOf.mpr ?_
    subst isWelcome
    split
    · rw [fromWelcome_cons]
      exact List.mem_cons_of_mem _ inside
    · exact List.mem_cons_of_mem _ inside
  | repeated _ _ _ reaction => exact same (by rw [reaction])
  | ignored _ _ _ reaction => exact same (by rw [reaction])
  | applied _ _ _ _ _ _ coordinator => exact same coordinator

theorem numbering (handled : Handled a frame r) (known : Acquainted K a) (history : History m a)
    (early : a.coordinatorInstanceId = none → ∀ q, frame = .command q → q.seq ≠ 1)
    (numbering : Numbering m a) (heard : Heard m a (frame :: rest)) : Numbering m r.1 := by
  have same : r.1.applied = a.applied → Numbering m r.1 := fun applied =>
    ⟨applied ▸ numbering.short, applied ▸ numbering.agrees⟩
  cases handled with
  | calm _ _ reaction => exact same reaction.applied
  | closed _ _ _ _ _ _ applied => exact same applied
  | welcomed _ _ _ _ _ _ _ _ _ applied => exact same applied
  | repeated _ _ _ reaction => exact same (by rw [reaction])
  | ignored _ _ _ reaction => exact same (by rw [reaction])
  | applied q isCommand next _ _ _ _ _ applied =>
    have welcomed : a.coordinatorInstanceId ≠ none := by
      intro none
      have notFirst := early none q isCommand
      rw [next, (known.untouched none).1] at notFirst
      exact notFirst rfl
    have length : q.seq = a.applied.length + 1 := by rw [next, history.count]
    obtain ⟨below, agrees⟩ := heard q (by simp [HostAgent.heard, welcomed, isCommand])
    refine ⟨?_, fun p queued i t at' number => ?_⟩
    · rw [applied]
      simp only [List.length_append, List.length_singleton]
      omega
    · rw [applied] at at'
      rcases Nat.lt_or_ge i a.applied.length with old | new
      · rw [List.getElem?_append_left old] at at'
        exact numbering.agrees p queued i t at' number
      · rw [List.getElem?_append_right new] at at'
        obtain ⟨zero, eq⟩ := List.getElem?_eq_some_iff.mp at'
        simp only [List.length_singleton] at zero
        rw [agrees p queued (by omega)]
        simpa using eq.symm

/-- A host acknowledges what it has applied. -/
theorem acked (handled : Handled a frame r) (history : History m a) {n : Nat}
    (ack : .commandAck n ∈ r.2) : n ≤ r.1.applied.length := by
  have plain : ∀ {frames : List HostToCoordinator}, (∀ frame ∈ frames, frame.plain = true) →
      .commandAck n ∉ frames := fun plain inside => by
    simpa [HostToCoordinator.plain] using plain _ inside
  cases handled with
  | calm _ _ reaction => exact absurd ack (plain reaction.plain)
  | closed _ _ _ _ _ _ _ quiet => simp [quiet] at ack
  | welcomed _ _ _ _ _ _ _ _ _ _ noAck => exact absurd ack (plain noAck)
  | repeated q _ old reaction =>
    subst reaction
    have eq : n = q.seq := by simpa using ack
    rw [eq, ← history.count]
    exact old
  | ignored _ _ _ reaction => simp [reaction] at ack
  | applied q _ next _ _ _ _ _ applied sent =>
    obtain ⟨events, noAck, eq⟩ := sent
    rw [eq] at ack
    rcases List.mem_append.mp ack with inside | last
    · exact absurd inside (plain noAck)
    · have eq : n = q.seq := by simpa using last
      rw [eq, next, history.count, applied]
      simp

theorem applied_prefix (handled : Handled a frame r) : a.applied <+: r.1.applied := by
  cases handled with
  | calm _ _ reaction => exact reaction.applied ▸ List.prefix_rfl
  | closed _ _ _ _ _ _ applied => exact applied ▸ List.prefix_rfl
  | welcomed _ _ _ _ _ _ _ _ _ applied => exact applied ▸ List.prefix_rfl
  | repeated _ _ _ reaction => exact reaction ▸ List.prefix_rfl
  | ignored _ _ _ reaction => exact reaction ▸ List.prefix_rfl
  | applied _ _ _ _ _ _ _ _ applied => exact applied ▸ List.prefix_append _ _

end Handled

/-- A host that says `hello`, but is not the instance connected last, was never welcomed by
this coordinator. -/
def World.loyal (w : World) : Action → Bool
  | .deliverUp s =>
    match (w.sockets s).up with
    | .hello hello :: _ =>
      decide (w.manager.link.socket ≠ some s) ||
        decide (w.manager.link.hostInstanceId = some hello.instanceId) ||
        (w.agents hello.instanceId).coordinatorInstanceId.isNone
    | _ => true
  | _ => true

structure Tracking (w : World) : Prop where
  numbering : ∀ {h}, w.manager.link.hostInstanceId = some h → Numbering w.manager (w.agents h)
  heard : ∀ {h s}, w.manager.link.hostInstanceId = some h → (w.agents h).socket = some s →
    Heard w.manager (w.agents h) (w.sockets s).down
  acked : ∀ {s n}, .commandAck n ∈ (w.sockets s).up →
    n ≤ (w.agents (w.sockets s).host).applied.length

namespace Tracking

variable {K : Uuid} {w w' : World}

theorem init (instanceId : Uuid) : Tracking (hostLink instanceId).start :=
  ⟨(fun current => nomatch current), (fun current => nomatch current), by simp [hostLink]⟩

theorem onSocket (tracking : Tracking w) {s : SocketId} {f : Socket → Socket}
    (heard : ∀ {h}, (w.agents h).socket = some s →
      (w.agents h).heard (f (w.sockets s)).down ⊆ (w.agents h).heard (w.sockets s).down)
    (acked : ∀ {n}, .commandAck n ∈ (f (w.sockets s)).up →
      (f (w.sockets s)).host = (w.sockets s).host ∧ .commandAck n ∈ (w.sockets s).up) :
    Tracking (w.onSocket s f) := by
  refine ⟨tracking.numbering, fun {h t} current held => ?_, fun {t n} => ?_⟩
  · rw [World.sockets_onSocket]
    split
    · rename_i same
      subst same
      exact fun g inside => tracking.heard current held g (heard held inside)
    · exact tracking.heard current held
  · rw [World.sockets_onSocket]
    split
    · intro ack
      obtain ⟨host, ack⟩ := acked ack
      rw [host]
      exact tracking.acked ack
    · exact tracking.acked

theorem setManager (tracking : Tracking w) {m : HostLinkManager}
    (queue : m.link.unacked = w.manager.link.unacked)
    (next : m.link.nextCommandSeq = w.manager.link.nextCommandSeq)
    (issued : m.issued = w.manager.issued)
    (released : m.released = w.manager.released)
    (current : m.link.hostInstanceId = w.manager.link.hostInstanceId) :
    Tracking { w with manager := m } :=
  have requeued : Requeued (fun _ => False) w.manager m := .unchanged queue next issued released
  ⟨fun isCurrent => requeued.numbering (tracking.numbering (current ▸ isCurrent)),
    fun isCurrent held => requeued.heard (tracking.heard (current ▸ isCurrent) held),
    tracking.acked⟩

theorem react (tracking : Tracking w) {r : HostLinkManager × List CoordinatorToHost}
    (numbered : Numbered r.1) (sent : (commandsOf r.2).Sublist r.1.link.unacked)
    (numbering : ∀ {h}, r.1.link.hostInstanceId = some h → Numbering r.1 (w.agents h))
    (heard : ∀ {h s}, r.1.link.hostInstanceId = some h → (w.agents h).socket = some s →
      Heard r.1 (w.agents h) (w.sockets s).down) : Tracking (w.react r) := by
  refine ⟨fun {h} current => ?_, fun {h t} current holds => ?_, fun {t n} => ?_⟩
  · rw [World.manager_react] at current ⊢
    rw [World.agents_react]
    exact numbering current
  · rw [World.manager_react] at current
    rw [World.agents_react] at holds
    rw [World.manager_react, World.agents_react]
    have before := heard current holds
    refine w.sockets_react_cases r (P := fun c => Heard r.1 (w.agents h) c.down) t (fun _ => ?_)
      before
    simp only [Socket.pushDown]
    split
    · exact before
    · exact before.append numbered sent
  · rw [w.sockets_react_field r Socket.up t rfl, w.sockets_react_field r Socket.host t rfl,
      World.agents_react]
    exact tracking.acked

theorem react_calm (tracking : Tracking w) (numbered : Numbered w.manager) {acks : Nat → Prop}
    {r : HostLinkManager × List CoordinatorToHost} (calm : Calm acks w.manager r) :
    Tracking (w.react r) := by
  refine tracking.react (calm.queue.numbered numbered) calm.sent (fun current => ?_)
    fun current held => ?_
  · exact calm.queue.numbering (tracking.numbering (calm.hostInstanceId ▸ current))
  · exact calm.queue.heard (tracking.heard (calm.hostInstanceId ▸ current) held)

theorem reply (tracking : Tracking w) {h : Uuid}
    {r : HostAgent × List HostToCoordinator}
    (numbering : w.manager.link.hostInstanceId = some h → Numbering w.manager r.1)
    (heard : ∀ {s}, w.manager.link.hostInstanceId = some h → r.1.socket = some s →
      Heard w.manager r.1 (w.sockets s).down)
    (socket : ∀ {s}, r.1.socket = some s → (w.sockets s).host = h)
    (acked : ∀ {n}, .commandAck n ∈ r.2 → n ≤ r.1.applied.length)
    (grown : (w.agents h).applied <+: r.1.applied) : Tracking (w.reply h r) := by
  refine ⟨fun {k} current => ?_, fun {k t} current holds => ?_, fun {t n} => ?_⟩
  · rw [World.manager_reply] at current ⊢
    rw [World.agents_reply]
    by_cases same : k = h
    · subst same
      simpa using numbering current
    · rw [Function.update_of_ne same]
      exact tracking.numbering current
  · rw [World.manager_reply] at current ⊢
    rw [w.sockets_reply_field h r Socket.down t rfl]
    rw [World.agents_reply] at holds ⊢
    by_cases same : k = h
    · subst same
      rw [Function.update_self] at holds ⊢
      exact heard current holds
    · rw [Function.update_of_ne same] at holds ⊢
      exact tracking.heard current holds
  · rw [w.sockets_reply_field h r Socket.host t rfl, World.agents_reply]
    have more : (w.agents (w.sockets t).host).applied.length ≤
        (Function.update w.agents h r.1 (w.sockets t).host).applied.length := by
      rw [Function.update_apply]
      split
      · rename_i same
        rw [same]
        exact grown.length_le
      · exact Nat.le_refl _
    refine w.sockets_reply_cases h r (P := fun c => .commandAck n ∈ c.up →
      n ≤ (Function.update w.agents h r.1 (w.sockets t).host).applied.length) t
      (fun holds _ ack => ?_) fun ack => Nat.le_trans (tracking.acked ack) more
    simp only [Socket.pushUp] at ack
    split at ack
    · exact Nat.le_trans (tracking.acked ack) more
    · rcases List.mem_append.mp ack with old | new
      · exact Nat.le_trans (tracking.acked old) more
      · rw [socket holds, Function.update_self]
        exact acked new

theorem reply_calm (tracking : Tracking w) (wired : Wired w) {h : Uuid}
    {r : HostAgent × List HostToCoordinator} (calm : AgentCalm (w.agents h) r) :
    Tracking (w.reply h r) := by
  refine tracking.reply (fun current => ?_) (fun {s} current held => ?_) (fun {s} held => ?_)
    (fun {n} ack => ?_) (calm.applied ▸ List.prefix_rfl)
  · have before := tracking.numbering current
    exact ⟨calm.applied ▸ before.short, calm.applied ▸ before.agrees⟩
  · have before := tracking.heard current (calm.socket ▸ held)
    unfold Heard HostAgent.heard at *
    rw [calm.coordinatorInstanceId]
    exact before
  · exact (wired.owner (calm.socket ▸ held)).1
  · exact absurd (calm.plain _ ack) (by simp [HostToCoordinator.plain])

theorem numbering_of_untouched {m : HostLinkManager} {a : HostAgent} (numbered : Numbered m)
    (untouched : a.applied = []) : Numbering m a :=
  ⟨by rw [untouched]; exact numbered.positive, by simp [untouched]⟩

theorem step (tracking : Tracking w) (wired : Wired w) (introduced : Introduced K w)
    (inOrder : InOrder w) {action : Action} (loyal : w.loyal action = true) (taken : Taken w action w') :
    Tracking w' := by
  cases taken with
  | @dial h s _ unheld =>
    have noUp := (wired.unopened (wired.fresh (wired.unattached unheld)).2).1
    have reset : Tracking (w.onSocket s fun _ => { host := h, dialed := true }) :=
      tracking.onSocket (fun held => absurd (wired.owner held).2 (by simp [unheld])) (by simp)
    refine reset.reply (h := h) (r := ((w.agents h).connect s, [])) (fun current => ?_)
      (fun {t} current held => ?_) (fun {t} held => ?_) (by simp) List.prefix_rfl
    · have before := tracking.numbering current
      exact ⟨before.short, before.agrees⟩
    · obtain rfl : s = t := by simpa [HostAgent.connect] using held
      intro f inside
      simp [World.sockets_onSocket, HostAgent.heard, fromWelcome] at inside
    · obtain rfl : s = t := by simpa [HostAgent.connect] using held
      simp [World.sockets_onSocket]
  | @accept s =>
    have accepted := tracking.onSocket (s := s) (f := fun c => { c with attached := true })
      (fun _ => List.Subset.refl _) fun ack => ⟨rfl, ack⟩
    exact accepted.setManager (m := w.manager.attach s) rfl rfl rfl rfl rfl
  | @socketOpens h s holds =>
    have opened := tracking.onSocket (s := s) (f := fun c => { c with opened := true })
      (fun _ => List.Subset.refl _) fun ack => ⟨rfl, ack⟩
    refine opened.reply (fun current => ?_) (fun {t} current held => ?_) (fun {t} held => ?_)
      (by simp [HostAgent.onOpen]) List.prefix_rfl
    · have before := tracking.numbering current
      exact ⟨before.short, before.agrees⟩
    · exact opened.heard current held
    · have host := w.sockets_onSocket_field Socket.host s t (fun c => { c with opened := true })
        fun _ => rfl
      exact host.trans (wired.owner held).1
  | @hangUp h =>
    refine tracking.reply (h := h) (r := ((w.agents h).onClose, [])) (fun current => ?_)
      (fun _ held => by cases held) (fun held => by cases held) (by simp) List.prefix_rfl
    have before := tracking.numbering current
    exact ⟨before.short, before.agrees⟩
  | @detach s =>
    unfold detach
    split
    · exact tracking.setManager rfl rfl rfl rfl rfl
    · exact tracking
  | loseUp =>
    exact tracking.onSocket (fun _ => List.Subset.refl _)
      fun ack => ⟨rfl, List.mem_of_mem_take ack⟩
  | loseDown =>
    exact tracking.onSocket (fun _ => HostAgent.heard_take _ _ _) fun ack => ⟨rfl, ack⟩
  | ignoredUp _ _ up =>
    exact tracking.onSocket (fun _ => List.Subset.refl _)
      fun ack => ⟨rfl, up ▸ List.mem_cons_of_mem _ ack⟩
  | @hello s hello rest held ungreeted up speaks own =>
    have popped := tracking.onSocket (s := s) (f := fun c => { c with up := rest })
      (fun _ => List.Subset.refl _) fun ack => ⟨rfl, up ▸ List.mem_cons_of_mem _ ack⟩
    have greets := handleHello_greets w.manager speaks
    obtain ⟨received, update, greeting⟩ := greets.sent
    have numbered := greets.numbered inOrder.numbered
    have connected : ∀ {h}, (w.manager.handleHello hello).1.link.hostInstanceId = some h →
        hello.instanceId = h := fun current =>
      Option.some.inj (greets.hostInstanceId.symm.trans current)
    by_cases same : w.manager.link.hostInstanceId = some hello.instanceId
    · obtain ⟨queue, next, released, -⟩ := greets.same same
      have kept : Requeued (fun _ => False) w.manager (w.manager.handleHello hello).1 :=
        .unchanged queue next greets.issued released
      refine popped.react numbered (greeting.commands ▸ greeting.resent) ?_ ?_
      · intro h current
        exact kept.numbering (tracking.numbering (connected current ▸ same))
      · intro h t current holds
        exact kept.heard (popped.heard (connected current ▸ same) holds)
    · have unwelcomed : (w.agents hello.instanceId).coordinatorInstanceId = none := by
        simpa [World.loyal, up, held, same] using loyal
      refine popped.react numbered (greeting.commands ▸ greeting.resent) ?_ ?_
      · intro h current
        obtain rfl := connected current
        exact numbering_of_untouched numbered ((introduced.known _).untouched unwelcomed).2
      · intro h t current holds
        obtain rfl := connected current
        -- the socket the host holds is this one, on which it was never welcomed, or a new one
        have isOpen : (w.sockets s).opened = true := by
          cases opened : (w.sockets s).opened with
          | true => rfl
          | false => simp [(wired.unopened opened).1] at up
        have nothing : fromWelcome (w.sockets t).down = [] := by
          rcases wired.newest held isOpen (own ▸ holds) with rfl | unheld
          · exact fromWelcome_eq_nil (wired.solicited ungreeted)
          · simp [(wired.fresh unheld).1, fromWelcome]
        have down := w.sockets_onSocket_field Socket.down s t (fun c => { c with up := rest })
          fun _ => rfl
        intro f inside
        rw [HostAgent.heard, World.agents_onSocket, if_pos unwelcomed, down, nothing] at inside
        cases inside
  | @message s frame rest held isGreeted up notHello =>
    have popped := tracking.onSocket (s := s) (f := fun c => { c with up := rest })
      (fun _ => List.Subset.refl _) fun ack => ⟨rfl, up ▸ List.mem_cons_of_mem _ ack⟩
    exact popped.react_calm inOrder.numbered (handleMessage_calm w.manager s notHello)
  | @ignoredDown s start frame rest unheld down =>
    exact tracking.onSocket (fun held => absurd ((wired.owner held).1 ▸ held) unheld)
      fun ack => ⟨rfl, ack⟩
  | @handled s start frame rest held isOpen down =>
    have popped := tracking.onSocket (s := s) (f := fun c => { c with down := rest })
      (fun _ => down ▸ HostAgent.heard_tail _ frame rest) fun ack => ⟨rfl, ack⟩
    have handled := HostAgent.handleMessage_handled (w.agents (w.sockets s).host) start frame
    have before : ∀ {h}, w.manager.link.hostInstanceId = some h → h = (w.sockets s).host →
        Heard w.manager (w.agents (w.sockets s).host) (frame :: rest) := by
      rintro h current rfl
      exact down ▸ tracking.heard current held
    refine popped.reply (fun current => ?_) (fun {t} current kept => ?_) (fun {t} kept => ?_)
      (handled.acked (inOrder.history _)) handled.applied_prefix
    · refine handled.numbering (introduced.known _) (inOrder.history _) ?_
        (tracking.numbering current) (before current rfl)
      intro none q eq
      exact (introduced.met held none).early q
        (by simp [down, eq, unwelcomed_cons, CoordinatorToHost.isWelcome])
    · obtain rfl : s = t := Option.some.inj (held.symm.trans (handled.socket kept).1)
      rw [World.sockets_onSocket, if_pos rfl]
      exact fun f inside => before current rfl f (handled.heard_subset inside)
    · obtain rfl : s = t := Option.some.inj (held.symm.trans (handled.socket kept).1)
      rw [World.sockets_onSocket, if_pos rfl]
  | coordinator done => exact tracking.react_calm inOrder.numbered (act_calm done)
  | @host h action => exact tracking.reply_calm wired (HostAgent.act_calm (w.agents h) action)

end Tracking

end Takode.RemoteHost
