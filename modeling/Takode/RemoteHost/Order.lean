import Takode.RemoteHost.Introduction

/-!
# The order of commands

A command number tells the order only within one numbering, and the numbering
starts over with every other host instance. What survives is that it starts over
at lower numbers: a command that was sent or applied under a number comes before
every queued command with a higher one. From this follows that a host that
counts what it applies applies the commands in the order they were enqueued.
-/

namespace Takode.RemoteHost

open HostLinkManager

theorem length_renumber (queue : List QueuedCommand) : (renumber queue).length = queue.length := by
  simp [renumber]

theorem getElem?_renumber {queue : List QueuedCommand} {i : Nat} {q : QueuedCommand} :
    (renumber queue)[i]? = some q ↔
      ∃ p, queue[i]? = some p ∧ q = { p with seq := i + 1 } := by
  rw [renumber, List.getElem?_mapIdx, Option.map_eq_some_iff]
  exact exists_congr fun p => and_congr_right fun _ => eq_comm

/-- Commands in the queue are numbered in the order in which they were enqueued. -/
structure Numbered (m : HostLinkManager) : Prop where
  sorted : m.link.unacked.Pairwise fun p q => p.seq < q.seq ∧ p.ticket < q.ticket
  bound : ∀ q ∈ m.link.unacked, 1 ≤ q.seq ∧ q.seq < m.link.nextCommandSeq
  positive : 1 ≤ m.link.nextCommandSeq
  issued : ∀ q ∈ m.link.unacked, m.issued[q.ticket]? = some q.command

theorem Numbered.ticket_lt {m : HostLinkManager} (numbered : Numbered m) {q : QueuedCommand}
    (queued : q ∈ m.link.unacked) : q.ticket < m.issued.length :=
  (List.getElem?_eq_some_iff.mp (numbered.issued q queued)).1

theorem Numbered.eq_of_seq {m : HostLinkManager} (numbered : Numbered m) {p q : QueuedCommand}
    (left : p ∈ m.link.unacked) (right : q ∈ m.link.unacked) (same : p.seq = q.seq) : p = q := by
  obtain ⟨i, hi, rfl⟩ := List.mem_iff_getElem.mp left
  obtain ⟨j, hj, rfl⟩ := List.mem_iff_getElem.mp right
  have sorted := List.pairwise_iff_getElem.mp numbered.sorted
  rcases Nat.lt_trichotomy i j with before | rfl | after
  · have := sorted i j hi hj before
    omega
  · rfl
  · have := sorted j i hj hi after
    omega

theorem Numbered.index_lt {m : HostLinkManager} (numbered : Numbered m)
    {kept : List QueuedCommand} (sub : kept.Sublist m.link.unacked) :
    ∀ {i : Nat} {q : QueuedCommand}, kept[i]? = some q → i + 1 ≤ q.seq := by
  have sorted := numbered.sorted.sublist sub
  intro i
  induction i with
  | zero =>
    intro q at'
    exact (numbered.bound q (sub.subset (List.mem_of_getElem? at'))).1
  | succ i ih =>
    intro q at'
    obtain ⟨inside, eq⟩ := List.getElem?_eq_some_iff.mp at'
    have before : kept[i]? = some kept[i] := List.getElem?_eq_getElem (by omega)
    have step := List.pairwise_iff_getElem.mp sorted i (i + 1) (by omega) inside (by omega)
    have := ih before
    rw [eq] at step
    omega

/-- From `m` to `m'` commands were enqueued, and others may have left the queue or have got a
smaller number. -/
structure Renewed (m m' : HostLinkManager) : Prop where
  issued : m.issued <+: m'.issued
  queue : ∀ q ∈ m'.link.unacked, m.issued.length ≤ q.ticket ∨
    ∃ p ∈ m.link.unacked, p.ticket = q.ticket ∧ q.seq ≤ p.seq

theorem Renewed.of_eq {m m' : HostLinkManager} (issued : m'.issued = m.issued)
    (queue : m'.link.unacked = m.link.unacked) : Renewed m m' :=
  ⟨issued ▸ List.prefix_rfl, fun q queued => .inr ⟨q, queue ▸ queued, rfl, Nat.le_refl _⟩⟩

namespace Requeued

variable {acks : Nat → Prop} {m m' : HostLinkManager}

theorem numbered (requeued : Requeued acks m m') (numbered : Numbered m) : Numbered m' := by
  rcases requeued.cases with ⟨kept, next, issued⟩ | ⟨command, queue, next, issued⟩
  · refine ⟨numbered.sorted.sublist kept, ?_, next ▸ numbered.positive, ?_⟩
    · intro q queued
      rw [next]
      exact numbered.bound q (kept.subset queued)
    · intro q queued
      rw [issued]
      exact numbered.issued q (kept.subset queued)
  · refine ⟨?_, ?_, by omega, ?_⟩
    · rw [queue]
      refine List.pairwise_append.mpr ⟨numbered.sorted, List.pairwise_singleton _ _, ?_⟩
      intro p queued q new
      rw [List.mem_singleton.mp new]
      exact ⟨(numbered.bound p queued).2, numbered.ticket_lt queued⟩
    · intro q queued
      rw [queue] at queued
      rw [next]
      rcases List.mem_append.mp queued with old | new
      · have := numbered.bound q old
        omega
      · rw [List.mem_singleton.mp new]
        exact ⟨numbered.positive, by simp⟩
    · intro q queued
      rw [queue] at queued
      rw [issued]
      rcases List.mem_append.mp queued with old | new
      · rw [List.getElem?_append_left (numbered.ticket_lt old)]
        exact numbered.issued q old
      · rw [List.mem_singleton.mp new]
        simp

theorem renewed (requeued : Requeued acks m m') : Renewed m m' := by
  rcases requeued.cases with ⟨kept, next, issued⟩ | ⟨command, queue, next, issued⟩
  · exact ⟨issued ▸ List.prefix_rfl, fun q queued => .inr ⟨q, kept.subset queued, rfl, Nat.le_refl _⟩⟩
  · refine ⟨by rw [issued]; exact List.prefix_append _ _, fun q queued => ?_⟩
    rw [queue] at queued
    rcases List.mem_append.mp queued with old | new
    · exact .inr ⟨q, old, rfl, Nat.le_refl _⟩
    · rw [List.mem_singleton.mp new]
      exact .inl (Nat.le_refl _)

end Requeued

theorem HostLinkManager.Greets.numbered {m : HostLinkManager} {hello : Hello}
    {r : HostLinkManager × List CoordinatorToHost} (greets : Greets m hello r)
    (numbered : Numbered m) : Numbered r.1 := by
  by_cases same : m.link.hostInstanceId = some hello.instanceId
  · obtain ⟨queue, next, -⟩ := greets.same same
    have issued := greets.issued
    exact ⟨by rw [queue]; exact numbered.sorted, by rw [queue, next]; exact numbered.bound,
      next ▸ numbered.positive, by rw [queue, issued]; exact numbered.issued⟩
  · obtain ⟨kept, sub, queue, next, -⟩ := greets.other same
    have sorted := numbered.sorted.sublist sub
    refine ⟨?_, ?_, by omega, ?_⟩
    · rw [queue, List.pairwise_iff_getElem]
      intro i j hi hj ordered
      rw [length_renumber] at hi hj
      have := List.pairwise_iff_getElem.mp sorted i j hi hj ordered
      simpa [renumber] using ⟨ordered, this.2⟩
    · intro q queued
      rw [queue] at queued
      obtain ⟨i, inside, rfl⟩ := List.mem_iff_getElem.mp queued
      rw [length_renumber] at inside
      rw [next]
      simp [renumber]
      omega
    · intro q queued
      rw [queue] at queued
      obtain ⟨i, at'⟩ := List.mem_iff_getElem?.mp queued
      obtain ⟨p, found, rfl⟩ := getElem?_renumber.mp at'
      rw [greets.issued]
      exact numbered.issued p (sub.subset (List.mem_of_getElem? found))

theorem HostLinkManager.Greets.renewed {m : HostLinkManager} {hello : Hello}
    {r : HostLinkManager × List CoordinatorToHost} (greets : Greets m hello r)
    (numbered : Numbered m) : Renewed m r.1 := by
  refine ⟨greets.issued ▸ List.prefix_rfl, fun q queued => .inr ?_⟩
  by_cases same : m.link.hostInstanceId = some hello.instanceId
  · rw [(greets.same same).1] at queued
    exact ⟨q, queued, rfl, Nat.le_refl _⟩
  · obtain ⟨kept, sub, queue, -⟩ := greets.other same
    rw [queue] at queued
    obtain ⟨i, at'⟩ := List.mem_iff_getElem?.mp queued
    obtain ⟨p, found, rfl⟩ := getElem?_renumber.mp at'
    exact ⟨p, sub.subset (List.mem_of_getElem? found), rfl, numbered.index_lt sub found⟩

/-- A command with this number and ticket comes before the queued commands with higher
numbers. -/
structure Below (m : HostLinkManager) (seq ticket : Nat) : Prop where
  issued : ticket < m.issued.length
  queue : ∀ q ∈ m.link.unacked, seq < q.seq → ticket < q.ticket

theorem Below.renewed {m m' : HostLinkManager} {seq ticket : Nat} (below : Below m seq ticket)
    (renewed : Renewed m m') : Below m' seq ticket := by
  refine ⟨Nat.lt_of_lt_of_le below.issued renewed.issued.length_le, fun q queued higher => ?_⟩
  rcases renewed.queue q queued with new | ⟨p, before, same, le⟩
  · exact Nat.lt_of_lt_of_le below.issued new
  · have := below.queue p before (by omega)
    omega

theorem Numbered.below {m : HostLinkManager} (numbered : Numbered m) {q : QueuedCommand}
    (queued : q ∈ m.link.unacked) : Below m q.seq q.ticket := by
  refine ⟨numbered.ticket_lt queued, fun p other higher => ?_⟩
  obtain ⟨i, hi, rfl⟩ := List.mem_iff_getElem.mp queued
  obtain ⟨j, hj, rfl⟩ := List.mem_iff_getElem.mp other
  have sorted := List.pairwise_iff_getElem.mp numbered.sorted
  rcases Nat.lt_trichotomy i j with before | rfl | after
  · exact (sorted i j hi hj before).2
  · omega
  · have := sorted j i hj hi after
    omega

/-- The commands in flight to a host. -/
structure InFlight (m : HostLinkManager) (frames : List CoordinatorToHost) : Prop where
  positive : ∀ f ∈ commandsOf frames, 1 ≤ f.seq
  issued : ∀ f ∈ commandsOf frames, m.issued[f.ticket]? = some f.command
  below : ∀ f ∈ commandsOf frames, Below m f.seq f.ticket
  sorted : (commandsOf frames).Pairwise fun f g => f.seq < g.seq → f.ticket < g.ticket

namespace InFlight

variable {m m' : HostLinkManager} {frames : List CoordinatorToHost}

theorem nil : InFlight m [] := ⟨by simp, by simp, by simp, by simp⟩

theorem sublist (inFlight : InFlight m frames) {fewer : List CoordinatorToHost}
    (sub : fewer.Sublist frames) : InFlight m fewer := by
  have commands : (commandsOf fewer).Sublist (commandsOf frames) := sub.filterMap _
  exact ⟨fun f inside => inFlight.positive f (commands.subset inside),
    fun f inside => inFlight.issued f (commands.subset inside),
    fun f inside => inFlight.below f (commands.subset inside), inFlight.sorted.sublist commands⟩

theorem renewed (inFlight : InFlight m frames) (renewed : Renewed m m') : InFlight m' frames := by
  refine ⟨inFlight.positive, fun f inside => ?_,
    fun f inside => (inFlight.below f inside).renewed renewed, inFlight.sorted⟩
  obtain ⟨more, eq⟩ := renewed.issued
  rw [← eq, List.getElem?_append_left (inFlight.below f inside).issued]
  exact inFlight.issued f inside

/-- Commands of the queue are sent after those in flight. -/
theorem append (inFlight : InFlight m frames) (numbered : Numbered m)
    {more : List CoordinatorToHost} (sent : (commandsOf more).Sublist m.link.unacked) :
    InFlight m (frames ++ more) := by
  have cases : ∀ {f}, f ∈ commandsOf (frames ++ more) →
      f ∈ commandsOf frames ∨ f ∈ m.link.unacked := by
    intro f inside
    rw [commandsOf_append] at inside
    exact (List.mem_append.mp inside).imp_right fun new => sent.subset new
  refine ⟨fun f inside => ?_, fun f inside => ?_, fun f inside => ?_, ?_⟩
  · rcases cases inside with old | queued
    · exact inFlight.positive f old
    · exact (numbered.bound f queued).1
  · rcases cases inside with old | queued
    · exact inFlight.issued f old
    · exact numbered.issued f queued
  · rcases cases inside with old | queued
    · exact inFlight.below f old
    · exact numbered.below queued
  · rw [commandsOf_append]
    refine List.pairwise_append.mpr ⟨inFlight.sorted, ?_, fun f old g new => ?_⟩
    · exact (numbered.sorted.sublist sent).imp fun ordered _ => ordered.2
    · exact (inFlight.below f old).queue g (sent.subset new)

end InFlight

/-- The commands a host has applied. -/
structure History (m : HostLinkManager) (a : HostAgent) : Prop where
  count : a.appliedCommandSeq = a.applied.length
  below : ∀ {i t}, a.applied[i]? = some t → Below m (i + 1) t
  sorted : a.applied.Pairwise (· < ·)

/-- The commands a host has applied come before those it has yet to handle. -/
def Live (a : HostAgent) (frames : List CoordinatorToHost) : Prop :=
  ∀ i t, a.applied[i]? = some t → ∀ f ∈ commandsOf frames, i + 1 < f.seq → t < f.ticket

theorem History.congr {m m' : HostLinkManager} {a a' : HostAgent} (history : History m a)
    (renewed : Renewed m m') (counter : a'.appliedCommandSeq = a.appliedCommandSeq)
    (applied : a'.applied = a.applied) : History m' a' := by
  refine ⟨?_, fun {i t} => ?_, ?_⟩
  · rw [counter, applied]
    exact history.count
  · rw [applied]
    exact fun at' => (history.below at').renewed renewed
  · rw [applied]
    exact history.sorted

theorem Renewed.refl (m : HostLinkManager) : Renewed m m := .of_eq rfl rfl

theorem Handled.history {m : HostLinkManager} {K : Uuid} {a : HostAgent}
    {frame : CoordinatorToHost} {r : HostAgent × List HostToCoordinator}
    {rest : List CoordinatorToHost} (handled : Handled a frame r) (history : History m a)
    (known : Acquainted K a) (fromK : ∀ {i e received}, frame = .welcome i e received → i = K)
    (inFlight : InFlight m (frame :: rest)) (live : Live a (frame :: rest)) :
    History m r.1 ∧ Live r.1 rest := by
  have tail : Live a rest := fun i t at' f inside =>
    live i t at' f (by cases frame <;> simp_all [commandsOf])
  have unchanged : r.1.appliedCommandSeq = a.appliedCommandSeq → r.1.applied = a.applied →
      History m r.1 ∧ Live r.1 rest := fun counter applied =>
    ⟨history.congr (.refl m) counter applied, by unfold Live; rw [applied]; exact tail⟩
  cases handled with
  | calm _ _ reaction => exact unchanged reaction.appliedCommandSeq reaction.applied
  | closed _ _ _ _ _ counter applied => exact unchanged counter applied
  | welcomed i e received isWelcome _ _ _ _ counter applied =>
    refine unchanged ?_ applied
    rw [counter]
    rcases known.coordinator with none | some
    · simp [none, (known.untouched none).1]
    · simp [some, fromK isWelcome]
  | repeated _ _ _ reaction => exact reaction ▸ ⟨history, tail⟩
  | ignored _ _ _ reaction => exact reaction ▸ ⟨history, tail⟩
  | applied q isCommand next _ _ _ _ counter applied =>
    subst isCommand
    have new : q ∈ commandsOf (.command q :: rest) := by simp
    have length : q.seq = a.applied.length + 1 := by rw [next, history.count]
    have earlier : ∀ t ∈ a.applied, t < q.ticket := by
      intro t inside
      obtain ⟨i, hi, rfl⟩ := List.mem_iff_getElem.mp inside
      exact live i _ (List.getElem?_eq_getElem hi) q new (by omega)
    have split : ∀ {i t}, (a.applied ++ [q.ticket])[i]? = some t →
        a.applied[i]? = some t ∨ i + 1 = q.seq ∧ t = q.ticket := by
      intro i t at'
      rcases Nat.lt_or_ge i a.applied.length with old | new
      · rw [List.getElem?_append_left old] at at'
        exact .inl at'
      · rw [List.getElem?_append_right new] at at'
        obtain ⟨zero, eq⟩ := List.getElem?_eq_some_iff.mp at'
        simp only [List.length_singleton] at zero
        exact .inr ⟨by omega, by simpa using eq.symm⟩
    refine ⟨⟨?_, ?_, ?_⟩, ?_⟩
    · rw [counter, applied]
      simp [length]
    · intro i t at'
      rw [applied] at at'
      rcases split at' with old | ⟨eq, rfl⟩
      · exact history.below old
      · exact eq ▸ inFlight.below q new
    · rw [applied]
      exact List.pairwise_append.mpr ⟨history.sorted, List.pairwise_singleton _ _,
        fun t inside u last => List.mem_singleton.mp last ▸ earlier t inside⟩
    · intro i t at' f inside higher
      rw [applied] at at'
      rcases split at' with old | ⟨eq, rfl⟩
      · exact tail i t old f inside higher
      · have sorted := inFlight.sorted
        rw [commandsOf_command] at sorted
        exact (List.pairwise_cons.mp sorted).1 f inside (eq ▸ higher)

structure InOrder (w : World) : Prop where
  numbered : Numbered w.manager
  inFlight : ∀ s, InFlight w.manager (w.sockets s).down
  history : ∀ h, History w.manager (w.agents h)
  live : ∀ {h s}, (w.agents h).socket = some s → Live (w.agents h) (w.sockets s).down

namespace InOrder

variable {w w' : World}

theorem init (instanceId : Uuid) : InOrder (hostLink instanceId).start where
  numbered := ⟨.nil, by simp [hostLink], by simp [hostLink], by simp [hostLink]⟩
  inFlight _ := .nil
  history _ := ⟨rfl, by simp [hostLink], .nil⟩
  live held := nomatch held

theorem onSocket (inOrder : InOrder w) {s : SocketId} {f : Socket → Socket}
    (down : (f (w.sockets s)).down.Sublist (w.sockets s).down) : InOrder (w.onSocket s f) := by
  refine ⟨inOrder.numbered, fun t => ?_, inOrder.history, fun {h t} held => ?_⟩
  · rw [World.sockets_onSocket]
    split
    · exact (inOrder.inFlight s).sublist down
    · exact inOrder.inFlight t
  · rw [World.sockets_onSocket]
    split
    · rename_i same
      subst same
      exact fun i t at' g inside =>
        inOrder.live held i t at' g ((down.filterMap _).subset inside)
    · exact inOrder.live held

theorem setManager (inOrder : InOrder w) {m : HostLinkManager}
    (queue : m.link.unacked = w.manager.link.unacked)
    (next : m.link.nextCommandSeq = w.manager.link.nextCommandSeq)
    (issued : m.issued = w.manager.issued) (released : m.released = w.manager.released) :
    InOrder { w with manager := m } :=
  have requeued : Requeued (fun _ => False) w.manager m := .unchanged queue next issued released
  ⟨requeued.numbered inOrder.numbered, fun s => (inOrder.inFlight s).renewed requeued.renewed,
    fun h => (inOrder.history h).congr requeued.renewed rfl rfl, inOrder.live⟩

/-- The coordinator reacts by sending commands of its queue. -/
theorem react (inOrder : InOrder w) {r : HostLinkManager × List CoordinatorToHost}
    (renewed : Renewed w.manager r.1) (numbered : Numbered r.1)
    (sent : (commandsOf r.2).Sublist r.1.link.unacked) : InOrder (w.react r) := by
  have history : ∀ h, History r.1 (w.agents h) := fun h =>
    (inOrder.history h).congr renewed rfl rfl
  refine ⟨by simpa using numbered, fun t => ?_, by simpa using history, fun {h t} held => ?_⟩
  · rw [World.manager_react]
    have before := (inOrder.inFlight t).renewed renewed
    refine w.sockets_react_cases r (P := fun c => InFlight r.1 c.down) t (fun _ => ?_) before
    simp only [Socket.pushDown]
    split
    · exact before
    · exact before.append numbered sent
  · rw [World.agents_react] at held ⊢
    have before := inOrder.live held
    refine w.sockets_react_cases r (P := fun c => Live (w.agents h) c.down) t (fun _ => ?_) before
    simp only [Socket.pushDown]
    split
    · exact before
    · intro i t' at' f inside higher
      rw [commandsOf_append] at inside
      rcases List.mem_append.mp inside with old | new
      · exact before i t' at' f old higher
      · exact ((history h).below at').queue f (sent.subset new) higher

theorem reply (inOrder : InOrder w) {h : Uuid} {r : HostAgent × List HostToCoordinator}
    (history : History w.manager r.1)
    (live : ∀ {s}, r.1.socket = some s → Live r.1 (w.sockets s).down) :
    InOrder (w.reply h r) := by
  refine ⟨by simpa using inOrder.numbered, fun t => ?_, fun k => ?_, fun {k t} held => ?_⟩
  · rw [World.manager_reply, w.sockets_reply_field h r Socket.down t rfl]
    exact inOrder.inFlight t
  · rw [World.manager_reply, World.agents_reply, Function.update_apply]
    split
    · exact history
    · exact inOrder.history k
  · rw [w.sockets_reply_field h r Socket.down t rfl]
    by_cases same : k = h
    · subst same
      rw [World.agents_reply, Function.update_self] at held ⊢
      exact live held
    · rw [World.agents_reply, Function.update_of_ne same] at held ⊢
      exact inOrder.live held

theorem reply_same (inOrder : InOrder w) {h : Uuid} {r : HostAgent × List HostToCoordinator}
    (counter : r.1.appliedCommandSeq = (w.agents h).appliedCommandSeq)
    (applied : r.1.applied = (w.agents h).applied)
    (socket : ∀ {s}, r.1.socket = some s →
      (w.agents h).socket = some s ∨ (w.sockets s).down = []) : InOrder (w.reply h r) := by
  refine inOrder.reply ((inOrder.history h).congr (.refl _) counter applied) fun {s} held => ?_
  unfold Live
  rw [applied]
  rcases socket held with before | empty
  · exact inOrder.live before
  · simp [empty]

theorem step {K : Uuid} (inOrder : InOrder w) (introduced : Introduced K w)
    {action : Action} (taken : Taken w action w') : InOrder w' := by
  cases taken with
  | @dial h s =>
    have reset : InOrder (w.onSocket s fun _ => { host := h, dialed := true }) :=
      inOrder.onSocket (List.nil_sublist _)
    have dialed := reset.reply_same (h := h) (r := ((w.agents h).connect s, [])) rfl rfl
      fun {t} held => .inr (by
        obtain rfl : s = t := by simpa [HostAgent.connect] using held
        simp [World.sockets_onSocket])
    exact dialed
  | @accept s =>
    have accepted := inOrder.onSocket (s := s) (f := fun c => { c with attached := true }) (.refl _)
    exact accepted.setManager (m := w.manager.attach s) rfl rfl rfl rfl
  | @socketOpens h s =>
    have opened := inOrder.onSocket (s := s) (f := fun c => { c with opened := true }) (.refl _)
    exact opened.reply_same rfl rfl .inl
  | @hangUp h =>
    exact inOrder.reply_same (r := ((w.agents h).onClose, [])) rfl rfl fun held => by cases held
  | @detach s =>
    unfold detach
    split
    · exact inOrder.setManager rfl rfl rfl rfl
    · exact inOrder
  | loseUp => exact inOrder.onSocket (.refl _)
  | loseDown => exact inOrder.onSocket (List.take_sublist _ _)
  | ignoredUp => exact inOrder.onSocket (.refl _)
  | @hello s hello rest held ungreeted up speaks =>
    have popped := inOrder.onSocket (s := s) (f := fun c => { c with up := rest }) (.refl _)
    have greets := handleHello_greets w.manager speaks
    obtain ⟨received, update, greeting⟩ := greets.sent
    refine popped.react (greets.renewed inOrder.numbered) (greets.numbered inOrder.numbered) ?_
    rw [greeting.commands]
    exact greeting.resent
  | @message s frame rest held isGreeted up notHello =>
    have popped := inOrder.onSocket (s := s) (f := fun c => { c with up := rest }) (.refl _)
    have calm := handleMessage_calm w.manager s notHello
    exact popped.react calm.queue.renewed (calm.queue.numbered inOrder.numbered) calm.sent
  | ignoredDown _ down =>
    exact inOrder.onSocket (down ▸ List.sublist_cons_self _ _)
  | @handled s start frame rest held isOpen down =>
    have popped := inOrder.onSocket (s := s) (f := fun c => { c with down := rest })
      (down ▸ List.sublist_cons_self _ _)
    have handled := HostAgent.handleMessage_handled (w.agents (w.sockets s).host) start frame
    obtain ⟨history, live⟩ := handled.history (inOrder.history _) (introduced.known _)
      (fun {i e received} eq => introduced.welcomes (s := s)
        (by rw [down, eq]; exact List.mem_cons_self))
      (down ▸ inOrder.inFlight s) (down ▸ inOrder.live held)
    refine popped.reply history fun {t} kept => ?_
    obtain rfl : s = t := Option.some.inj (held.symm.trans (handled.socket kept).1)
    simpa [World.sockets_onSocket] using live
  | coordinator done =>
    have calm := act_calm done
    exact inOrder.react calm.queue.renewed (calm.queue.numbered inOrder.numbered) calm.sent
  | @host h action =>
    have calm := HostAgent.act_calm (w.agents h) action
    exact inOrder.reply_same calm.appliedCommandSeq calm.applied
      fun held => .inl (calm.socket ▸ held)

end InOrder

theorem reaches_introduced {K : Uuid} {ok : World → Action → Prop}
    (patient : ∀ {w action}, ok w action → w.patient action = true) {w : World}
    (reached : (hostLink K).Reaches ok w) : Introduced K w :=
  reaches_invariant Introduced.init
    (fun wired introduced admitted => introduced.step wired (patient admitted)) reached

theorem reaches_inOrder {K : Uuid} {ok : World → Action → Prop}
    (patient : ∀ {w action}, ok w action → w.patient action = true) {w : World}
    (reached : (hostLink K).Reaches ok w) : InOrder w := by
  induction reached with
  | start => exact InOrder.init K
  | step before admitted stepped ih =>
    exact ih.step (reaches_introduced patient before) ((reaches_wired before).taken stepped)

end Takode.RemoteHost
