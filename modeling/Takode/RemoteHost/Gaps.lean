import Takode.RemoteHost.Commands

/-!
# No gap in the numbering lasts

A host ignores a command whose number is not the next one it expects, so a gap
in the queue would stall the link. The queue is consecutive as long as `release`
has not filtered it, acknowledgements only ever remove what the host has counted,
and what a greeting sends again starts where the host stopped. So once the frames
in flight are delivered, a connected host expects exactly the next number.
-/

namespace Takode.RemoteHost

open HostLinkManager

/-! ## Counting -/

/-- The counter of a host after the commands, which it applies if they come next. -/
def accept (n : Nat) (commands : List QueuedCommand) : Nat :=
  commands.foldl (fun n q => if q.seq = n + 1 then q.seq else n) n

@[simp] theorem accept_nil (n : Nat) : accept n [] = n := rfl

theorem accept_cons (n : Nat) (q : QueuedCommand) (rest : List QueuedCommand) :
    accept n (q :: rest) = accept (if q.seq = n + 1 then q.seq else n) rest := rfl

theorem accept_append (n : Nat) (xs ys : List QueuedCommand) :
    accept n (xs ++ ys) = accept (accept n xs) ys := by
  simp [accept]

theorem le_accept (n : Nat) (commands : List QueuedCommand) : n ≤ accept n commands := by
  induction commands generalizing n with
  | nil => exact Nat.le_refl n
  | cons q rest ih =>
    rw [accept_cons]
    refine Nat.le_trans ?_ (ih _)
    split <;> omega

theorem accept_lt {n next : Nat} {commands : List QueuedCommand} (start : n < next)
    (below : ∀ q ∈ commands, q.seq < next) : accept n commands < next := by
  induction commands generalizing n with
  | nil => exact start
  | cons q rest ih =>
    rw [accept_cons]
    refine ih ?_ fun q' inside => below q' (List.mem_cons_of_mem _ inside)
    split
    · exact below q List.mem_cons_self
    · exact start

/-- The numbers of a queue are consecutive and end just before `next`. -/
def Consecutive (next : Nat) : List QueuedCommand → Prop
  | [] => True
  | q :: rest => q.seq + rest.length + 1 = next ∧ Consecutive next rest

namespace Consecutive

variable {next : Nat} {queue : List QueuedCommand}

theorem append (consecutive : Consecutive next queue) {q : QueuedCommand} (last : q.seq = next) :
    Consecutive (next + 1) (queue ++ [q]) := by
  induction queue with
  | nil => simp [Consecutive, last]
  | cons p rest ih =>
    obtain ⟨first, later⟩ := consecutive
    rw [List.cons_append]
    refine ⟨?_, ih later⟩
    rw [List.length_append, List.length_singleton]
    omega

theorem next_le (consecutive : Consecutive next queue) :
    ∀ q ∈ queue, next ≤ q.seq + queue.length := by
  induction queue with
  | nil => simp
  | cons p rest ih =>
    obtain ⟨first, later⟩ := consecutive
    intro q inside
    rw [List.length_cons]
    rcases List.mem_cons.mp inside with rfl | inside
    · omega
    · have := ih later q inside
      omega

theorem filter (consecutive : Consecutive next queue) (n : Nat) :
    Consecutive next (queue.filter fun q => n < q.seq) := by
  induction queue with
  | nil => trivial
  | cons p rest ih =>
    obtain ⟨first, later⟩ := consecutive
    rw [List.filter_cons]
    split
    · rename_i above
      have above : n < p.seq := by simpa using above
      have all : rest.filter (fun q => n < q.seq) = rest := by
        apply List.filter_eq_self.mpr
        intro q inside
        have := later.next_le q inside
        simp only [decide_eq_true_eq]
        omega
      rw [all]
      exact ⟨first, later⟩
    · exact ih later

theorem length_filter (consecutive : Consecutive next queue) {n k : Nat} (counted : n ≤ k)
    (covered : next ≤ queue.length + k + 1) :
    next ≤ (queue.filter fun q => n < q.seq).length + k + 1 := by
  induction queue generalizing k with
  | nil => simpa using covered
  | cons p rest ih =>
    obtain ⟨first, later⟩ := consecutive
    rw [List.filter_cons]
    rw [List.length_cons] at covered
    split
    · have := ih later (k := k + 1) (by omega) (by omega)
      rw [List.length_cons]
      omega
    · rename_i notAbove
      have : p.seq ≤ n := by simpa using notAbove
      exact ih later counted (by omega)

/-- A host that has counted to `n` counts on through a consecutive queue that leaves no gap. -/
theorem accept (consecutive : Consecutive next queue) {n : Nat} (below : n < next)
    (covered : next ≤ queue.length + n + 1) : accept n queue + 1 = next := by
  induction queue generalizing n with
  | nil =>
    simp only [List.length_nil] at covered
    simp only [accept_nil]
    omega
  | cons p rest ih =>
    obtain ⟨first, later⟩ := consecutive
    rw [List.length_cons] at covered
    rw [accept_cons]
    split
    · exact ih later (by omega) (by omega)
    · exact ih later below (by omega)

theorem renumber (queue : List QueuedCommand) :
    Consecutive (queue.length + 1) (renumber queue) := by
  suffices shifted : ∀ k, Consecutive (queue.length + k + 1)
      (queue.mapIdx fun index queued => { queued with seq := index + k + 1 }) from shifted 0
  induction queue with
  | nil => exact fun _ => trivial
  | cons p rest ih =>
    intro k
    rw [List.mapIdx_cons]
    refine ⟨?_, ?_⟩
    · simp only [List.length_mapIdx, List.length_cons]
      omega
    · have shift : ∀ n, n + 1 + k + 1 = n + (k + 1) + 1 := by omega
      simp only [List.length_cons, shift]
      exact ih (k + 1)

end Consecutive

/-! ## What is sent -/

/-- What a reaction other than a handshake sends to a connected host. -/
inductive Served (m : HostLinkManager) (r : HostLinkManager × List CoordinatorToHost) : Prop where
  /-- An update is outstanding. -/
  | held (waiting : r.1.link.updateSent = true)
  | silent (before : m.link.updateSent = false) (commands : commandsOf r.2 = [])
      (next : r.1.link.nextCommandSeq = m.link.nextCommandSeq)
  | sent (q : QueuedCommand) (before : m.link.updateSent = false)
      (commands : commandsOf r.2 = [q]) (number : q.seq = m.link.nextCommandSeq)
      (next : r.1.link.nextCommandSeq = m.link.nextCommandSeq + 1)
  | resent (commands : commandsOf r.2 = r.1.link.unacked)
      (next : r.1.link.nextCommandSeq = m.link.nextCommandSeq)

namespace HostLinkManager

variable {m : HostLinkManager}

theorem served_of_silent {r : HostLinkManager × List CoordinatorToHost}
    (updateSent : m.link.updateSent = true → r.1.link.updateSent = true)
    (commands : commandsOf r.2 = []) (next : r.1.link.nextCommandSeq = m.link.nextCommandSeq) :
    Served m r := by
  cases before : m.link.updateSent with
  | true => exact .held (updateSent before)
  | false => exact .silent before commands next

theorem enqueue_served (online : m.link.online = true) (held : m.link.socket.isSome = true)
    (command : HostCommand) : Served m (m.enqueue command) := by
  cases before : m.link.updateSent with
  | true => exact .held before
  | false =>
    exact .sent ⟨m.link.nextCommandSeq, command, m.issued.length⟩ before
      (by simp [enqueue, online, held, before]) rfl rfl

theorem abandonUpdate_served (online : m.link.online = true)
    (held : m.link.socket.isSome = true) : Served m m.abandonUpdate :=
  .resent (by simp [abandonUpdate, online, held]) rfl

theorem act_served (online : m.link.online = true) (held : m.link.socket.isSome = true)
    {action : CoordinatorAction} {r : HostLinkManager × List CoordinatorToHost}
    (done : m.act action = some r) : Served m r := by
  cases action with
  | startProcess procId command =>
    simp only [act, Option.ite_none_right_eq_some, Option.some.injEq] at done
    obtain ⟨-, rfl⟩ := done
    cases before : m.link.updateSent with
    | true => exact .held before
    | false =>
      exact .sent ⟨m.link.nextCommandSeq, command, m.issued.length⟩ before
        (by simp [startProcess, enqueue, online, held, before]) rfl rfl
  | adopt procId =>
    simp only [act, Option.ite_none_right_eq_some, Option.some.injEq] at done
    obtain ⟨-, rfl⟩ := done
    refine served_of_silent ?_ rfl ?_
    · unfold adopt
      dsimp only
      split <;> exact id
    · unfold adopt
      dsimp only
      split <;> rfl
  | enqueue command =>
    simp only [act, Option.ite_none_right_eq_some, Option.some.injEq] at done
    exact done.2 ▸ enqueue_served online held command
  | release =>
    cases Option.some.inj done
    have same : m.release = m := by simp [release, online]
    rw [same]
    exact served_of_silent id rfl rfl
  | requestUpdate commit =>
    cases Option.some.inj done
    exact served_of_silent id rfl rfl
  | sendUpdate instanceId commit ready =>
    cases Option.some.inj done
    unfold sendUpdate
    split
    · exact served_of_silent id rfl rfl
    · split
      · exact served_of_silent id rfl rfl
      · exact .held rfl
  | updateTimeout =>
    cases Option.some.inj done
    unfold updateTimeout
    split
    · exact abandonUpdate_served online held
    · exact served_of_silent id rfl rfl
  | flushAcks s =>
    cases Option.some.inj done
    refine served_of_silent id (commandsOf_eq_nil fun q inside => ?_) rfl
    simp only [flushAcks] at inside
    split at inside
    · obtain ⟨ack, -, isCommand⟩ := List.mem_map.mp inside
      cases isCommand
    · cases inside
  | claimEpoch epoch =>
    cases Option.some.inj done
    exact served_of_silent id rfl rfl

theorem handleMessage_served (online : m.link.online = true) (held : m.link.socket.isSome = true)
    (s : SocketId) {frame : HostToCoordinator} (notHello : frame.isHello = false) :
    Served m (m.handleMessage s frame) := by
  cases frame with
  | hello hello => cases notHello
  | event procId seq event =>
    have same : (m.handleEvent s procId seq event).link.updateSent = m.link.updateSent ∧
        (m.handleEvent s procId seq event).link.nextCommandSeq = m.link.nextCommandSeq := by
      unfold handleEvent
      split
      · exact ⟨rfl, rfl⟩
      · split
        · split <;> exact ⟨rfl, rfl⟩
        · split <;> exact ⟨rfl, rfl⟩
    exact served_of_silent (fun before => same.1.trans before) rfl same.2
  | commandAck seq => exact served_of_silent id rfl rfl
  | updateFailed commit =>
    simp only [handleMessage]
    split
    · exact abandonUpdate_served online held
    · exact served_of_silent id rfl rfl

end HostLinkManager

/-- The counter of a host after the frames on their way. -/
def HostAgent.counts (a : HostAgent) (frames : List CoordinatorToHost) : Nat :=
  accept a.appliedCommandSeq (a.heard frames)

theorem HostAgent.counts_append {a : HostAgent} {xs ys : List CoordinatorToHost}
    (welcome : a.coordinatorInstanceId = none → ∃ frame ∈ xs, frame.isWelcome = true) :
    a.counts (xs ++ ys) = accept (a.counts xs) (commandsOf ys) := by
  unfold HostAgent.counts
  rw [HostAgent.heard_append_eq welcome, accept_append]

/-- A host counts as it handles what it was sent. -/
theorem Handled.counts {K : Uuid} {a : HostAgent} {frame : CoordinatorToHost}
    {r : HostAgent × List HostToCoordinator} {rest : List CoordinatorToHost} {s : Nat}
    (handled : Handled a frame r) (kept : r.1.socket = some s) (known : Acquainted K a)
    (fromK : ∀ {i e received}, frame = .welcome i e received → i = K)
    (early : a.coordinatorInstanceId = none → ∀ q, frame = .command q → q.seq ≠ 1) :
    r.1.counts rest = a.counts (frame :: rest) := by
  have skipped : ∀ {a' : HostAgent}, a'.appliedCommandSeq = a.appliedCommandSeq →
      a'.coordinatorInstanceId = a.coordinatorInstanceId → frame.isWelcome = false →
      (∀ q, frame = .command q → q.seq ≠ a.appliedCommandSeq + 1) →
      a'.counts rest = a.counts (frame :: rest) := by
    intro a' counter coordinator other notNext
    unfold HostAgent.counts HostAgent.heard
    rw [counter, coordinator]
    by_cases none : a.coordinatorInstanceId = none
    · simp [none, fromWelcome_cons, other]
    · rw [if_neg none, if_neg none]
      cases frame with
      | command q => simp [accept_cons, notNext q rfl]
      | _ => rfl
  cases handled with
  | calm other silent reaction =>
    exact skipped reaction.appliedCommandSeq reaction.coordinatorInstanceId other
      fun q eq => absurd eq (silent q)
  | closed _ closed => simp [closed] at kept
  | welcomed i e received isWelcome _ _ _ coordinator counter =>
    subst isWelcome
    have fromK : i = K := fromK rfl
    subst fromK
    unfold HostAgent.counts HostAgent.heard
    rw [coordinator, counter]
    rcases known.coordinator with none | some
    · simp [none, fromWelcome_cons, CoordinatorToHost.isWelcome, (known.untouched none).1,
        commandsOf]
    · simp [some, commandsOf]
  | repeated q isCommand old reaction =>
    subst reaction
    refine skipped rfl rfl (isCommand ▸ rfl) fun q' eq => ?_
    obtain rfl : q = q' := by simpa [isCommand] using eq
    omega
  | ignored q isCommand gap reaction =>
    subst reaction
    refine skipped rfl rfl (isCommand ▸ rfl) fun q' eq => ?_
    obtain rfl : q = q' := by simpa [isCommand] using eq
    omega
  | applied q isCommand next _ _ _ coordinator counter =>
    have welcomed : a.coordinatorInstanceId ≠ none := by
      intro none
      have notFirst := early none q isCommand
      rw [next, (known.untouched none).1] at notFirst
      exact notFirst rfl
    subst isCommand
    unfold HostAgent.counts HostAgent.heard
    rw [coordinator, if_neg welcomed, if_neg welcomed, commandsOf_command, accept_cons,
      if_pos next, counter]

/-! ## The invariant -/

/-- What a `hello` says its host has applied of the commands of a coordinator. -/
def Hello.appliedHere (hello : Hello) (instanceId : Uuid) : Nat :=
  if hello.appliedFrom = some instanceId then hello.appliedCommandSeq else 0

structure Gapless (w : World) : Prop where
  consecutive : w.manager.released = false →
    Consecutive w.manager.link.nextCommandSeq w.manager.link.unacked
  /-- Only what the current host has applied has left the queue. -/
  covered : ∀ {h}, w.manager.link.hostInstanceId = some h → w.manager.released = false →
    w.manager.link.nextCommandSeq ≤
      w.manager.link.unacked.length + (w.agents h).applied.length + 1
  /-- So it was when the host said the `hello` that is about to arrive. -/
  pending : ∀ {s hello rest}, w.manager.link.socket = some s → (w.sockets s).greeted = false →
    (w.sockets s).up = .hello hello :: rest →
      hello.appliedFrom = (w.agents (w.sockets s).host).coordinatorInstanceId ∧
      hello.appliedCommandSeq ≤ (w.agents (w.sockets s).host).applied.length ∧
      (w.manager.link.hostInstanceId = some (w.sockets s).host → w.manager.released = false →
        w.manager.link.nextCommandSeq ≤
          w.manager.link.unacked.length + hello.appliedCommandSeq + 1)
  counted : ∀ {s}, w.manager.link.socket = some s → (w.sockets s).greeted = true →
    (w.agents (w.sockets s).host).socket = some s → (w.sockets s).downCut = false →
    w.manager.link.updateSent = false → w.manager.released = false →
      (w.agents (w.sockets s).host).counts (w.sockets s).down + 1 = w.manager.link.nextCommandSeq

namespace Gapless

variable {K : Uuid} {w w' : World}

theorem init (instanceId : Uuid) : Gapless (hostLink instanceId).start :=
  ⟨fun _ => trivial, (fun current => nomatch current), (fun held => nomatch held),
    (fun held => nomatch held)⟩

/-- A step that the queue and the counters take no part in. -/
theorem still (gapless : Gapless w) (manager : w'.manager = w.manager)
    (coordinator : ∀ h, (w'.agents h).coordinatorInstanceId = (w.agents h).coordinatorInstanceId)
    (counter : ∀ h, (w'.agents h).appliedCommandSeq = (w.agents h).appliedCommandSeq)
    (applied : ∀ h, (w'.agents h).applied = (w.agents h).applied)
    (host : ∀ {s}, w.manager.link.socket = some s → (w'.sockets s).host = (w.sockets s).host)
    (greeted : ∀ {s}, w.manager.link.socket = some s →
      (w'.sockets s).greeted = (w.sockets s).greeted)
    (up : ∀ {s hello rest}, w.manager.link.socket = some s → (w.sockets s).greeted = false →
      (w'.sockets s).up = .hello hello :: rest → (∃ more, (w.sockets s).up = .hello hello :: more) ∨
        hello.appliedFrom = (w.agents (w.sockets s).host).coordinatorInstanceId ∧
          hello.appliedCommandSeq = (w.agents (w.sockets s).host).applied.length)
    (down : ∀ {s}, w.manager.link.socket = some s →
      (w'.agents (w.sockets s).host).socket = some s → (w'.sockets s).downCut = false →
      (w.agents (w.sockets s).host).socket = some s ∧ (w.sockets s).downCut = false ∧
        (w'.sockets s).down = (w.sockets s).down) : Gapless w' := by
  refine ⟨manager ▸ gapless.consecutive, fun {h} current => ?_,
    fun {s hello rest} held ungreeted inFlight => ?_,
    fun {s} held isGreeted holds uncut => ?_⟩
  · rw [applied, manager]
    rw [manager] at current
    exact gapless.covered current
  · rw [manager] at held ⊢
    rw [greeted held] at ungreeted
    rw [host held, coordinator, applied]
    rcases up held ungreeted inFlight with ⟨more, before⟩ | ⟨appliedFrom, count⟩
    · exact gapless.pending held ungreeted before
    · refine ⟨appliedFrom, count.le, fun current => ?_⟩
      rw [count]
      exact gapless.covered current
  · rw [manager] at held ⊢
    rw [greeted held] at isGreeted
    rw [host held] at holds ⊢
    obtain ⟨before, wasUncut, same⟩ := down held holds uncut
    rw [same]
    unfold HostAgent.counts HostAgent.heard
    rw [counter, coordinator]
    exact gapless.counted held isGreeted before wasUncut

/-- The coordinator reacts otherwise than to a `hello`. -/
theorem react (gapless : Gapless w) (wired : Wired w) (introduced : Introduced K w)
    (inOrder : InOrder w) (tracking : Tracking w) {acks : Nat → Prop}
    {r : HostLinkManager × List CoordinatorToHost} (calm : Calm acks w.manager r)
    (acked : ∀ {n h}, acks n → w.manager.link.hostInstanceId = some h →
      n ≤ (w.agents h).applied.length)
    (idle : ∀ {s}, w.manager.link.socket = some s → (w.sockets s).greeted = false →
      ∀ n, ¬ acks n)
    (served : w.manager.link.online = true → w.manager.link.socket.isSome = true →
      Served w.manager r) : Gapless (w.react r) := by
  have base : r.1.released = false → w.manager.released = false ∧
      ∀ k, (∀ n, acks n → n ≤ k) →
        w.manager.link.nextCommandSeq ≤ w.manager.link.unacked.length + k + 1 →
        r.1.link.nextCommandSeq ≤ r.1.link.unacked.length + k + 1 := by
    intro kept
    cases calm.queue with
    | unchanged queue next _ released =>
      exact ⟨released ▸ kept, fun k _ covered => by rw [queue, next]; exact covered⟩
    | acknowledged n isAcked queue next _ released =>
      refine ⟨released ▸ kept, fun k atMost covered => ?_⟩
      rw [queue, next]
      exact (gapless.consecutive (released ▸ kept)).length_filter (atMost n isAcked) covered
    | released _ _ _ _ released => simp [released] at kept
    | appended command queue next _ released =>
      refine ⟨released ▸ kept, fun k _ covered => ?_⟩
      rw [queue, next, List.length_append, List.length_singleton]
      omega
  have consecutive : r.1.released = false →
      Consecutive r.1.link.nextCommandSeq r.1.link.unacked := by
    intro kept
    have before := gapless.consecutive (base kept).1
    cases calm.queue with
    | unchanged queue next => rw [queue, next]; exact before
    | acknowledged n _ queue next => rw [queue, next]; exact before.filter n
    | released _ _ _ _ released => simp [released] at kept
    | appended command queue next => rw [queue, next]; exact before.append rfl
  have covered : ∀ {h}, w.manager.link.hostInstanceId = some h → r.1.released = false →
      r.1.link.nextCommandSeq ≤ r.1.link.unacked.length + (w.agents h).applied.length + 1 := by
    intro h current kept
    obtain ⟨before, grown⟩ := base kept
    exact grown _ (fun n isAcked => acked isAcked current) (gapless.covered current before)
  have quiet : r.2.any CoordinatorToHost.isWelcome = false := by simpa using calm.unwelcoming
  refine ⟨?_, fun {h} current kept => ?_, fun {s hello rest} held ungreeted up => ?_,
    fun {s} held isGreeted holds uncut after kept => ?_⟩
  · rw [World.manager_react]
    exact consecutive
  · rw [World.manager_react] at current kept ⊢
    rw [World.agents_react]
    exact covered (calm.hostInstanceId ▸ current) kept
  · rw [World.manager_react, calm.socket] at held
    rw [w.sockets_react_field r Socket.greeted s (by simp [Socket.pushDown, quiet])] at ungreeted
    rw [w.sockets_react_field r Socket.up s rfl] at up
    rw [w.sockets_react_field r Socket.host s rfl, World.agents_react, World.manager_react,
      calm.hostInstanceId]
    obtain ⟨appliedFrom, le, covered⟩ := gapless.pending held ungreeted up
    refine ⟨appliedFrom, le, fun current kept => ?_⟩
    obtain ⟨before, grown⟩ := base kept
    exact grown _ (fun n isAcked => absurd isAcked (idle held ungreeted n)) (covered current before)
  · rw [World.manager_react] at held kept after ⊢
    rw [calm.socket] at held
    rw [w.sockets_react_field r Socket.greeted s (by simp [Socket.pushDown, quiet])] at isGreeted
    rw [w.sockets_react_field r Socket.host s rfl, World.agents_react] at holds ⊢
    rw [w.sockets_react_field r Socket.downCut s rfl] at uncut
    obtain ⟨online, current, -⟩ := wired.greeted held isGreeted
    have down : ((w.react r).sockets s).down = (w.sockets s).down ++ r.2 := by
      rw [World.sockets_react, if_pos held]
      simp [Socket.pushDown, uncut]
    have welcome : (w.agents (w.sockets s).host).coordinatorInstanceId = none →
        ∃ frame ∈ (w.sockets s).down, frame.isWelcome = true :=
      fun none => (introduced.met holds none).promised isGreeted uncut
    rw [down, HostAgent.counts_append welcome]
    cases served online (by simp [held]) with
    | held waiting => simp [waiting] at after
    | silent before commands next =>
      rw [commands, next, accept_nil]
      exact gapless.counted held isGreeted holds uncut before (base kept).1
    | sent q before commands number next =>
      have counted := gapless.counted held isGreeted holds uncut before (base kept).1
      rw [commands, next, accept_cons, if_pos (by omega), accept_nil, number]
    | resent commands next =>
      rw [commands]
      have history := inOrder.history (w.sockets s).host
      have numbering := tracking.numbering current
      have counted := le_accept (w.agents (w.sockets s).host).appliedCommandSeq
        ((w.agents (w.sockets s).host).heard (w.sockets s).down)
      have below : (w.agents (w.sockets s).host).counts (w.sockets s).down <
          w.manager.link.nextCommandSeq :=
        accept_lt (history.count ▸ numbering.short)
          fun q inside => (tracking.heard current holds q inside).1
      refine (consecutive kept).accept (next ▸ below) ?_
      have := covered current kept
      rw [history.count] at counted
      unfold HostAgent.counts
      rw [history.count]
      omega

/-- A `hello` leaves no gap between what its host has applied and the queue. -/
theorem greeting (gapless : Gapless w) (introduced : Introduced K w)
    (tracking : Tracking w) {s : SocketId} {hello : Hello}
    {rest : List HostToCoordinator} (loyal : w.loyal (.deliverUp s) = true)
    (held : w.manager.link.socket = some s) (ungreeted : (w.sockets s).greeted = false)
    (up : (w.sockets s).up = .hello hello :: rest)
    (speaks : hello.protocol = hostProtocolVersion)
    (own : hello.instanceId = (w.sockets s).host)
    (kept : (w.manager.handleHello hello).1.released = false) :
    Consecutive (w.manager.handleHello hello).1.link.nextCommandSeq
        (w.manager.handleHello hello).1.link.unacked ∧
      hello.appliedHere K < (w.manager.handleHello hello).1.link.nextCommandSeq ∧
      (w.manager.handleHello hello).1.link.nextCommandSeq ≤
        (w.manager.handleHello hello).1.link.unacked.length + hello.appliedHere K + 1 := by
  have greets := handleHello_greets w.manager speaks
  obtain ⟨appliedFrom, le, covered⟩ := gapless.pending held ungreeted up
  have unwelcomed : (w.agents (w.sockets s).host).coordinatorInstanceId = none →
      hello.appliedHere K = 0 := fun none => by simp [Hello.appliedHere, appliedFrom, none]
  by_cases same : w.manager.link.hostInstanceId = some hello.instanceId
  · obtain ⟨queue, next, released, -⟩ := greets.same same
    rw [released] at kept
    rw [queue, next]
    rw [own] at same
    have short := (tracking.numbering same).short
    have covered := covered same kept
    refine ⟨gapless.consecutive kept, ?_⟩
    rcases (introduced.known (w.sockets s).host).coordinator with none | some
    · rw [unwelcomed none]
      have untouched := ((introduced.known _).untouched none).2
      rw [untouched, List.length_nil] at le
      exact ⟨by omega, by omega⟩
    · have here : hello.appliedHere K = hello.appliedCommandSeq := by
        simp [Hello.appliedHere, appliedFrom, some]
      rw [here]
      exact ⟨by omega, covered⟩
  · obtain ⟨filtered, -, queue, next, -⟩ := greets.other same
    have none : (w.agents (w.sockets s).host).coordinatorInstanceId = none := by
      rw [← own]
      simpa [World.loyal, up, held, same] using loyal
    rw [unwelcomed none, queue, next]
    exact ⟨.renumber filtered, by omega, by rw [length_renumber]⟩

theorem hello (gapless : Gapless w) (wired : Wired w) (introduced : Introduced K w)
    (inOrder : InOrder w) (tracking : Tracking w) {s : SocketId} {hello : Hello}
    {rest : List HostToCoordinator} (loyal : w.loyal (.deliverUp s) = true)
    (held : w.manager.link.socket = some s) (ungreeted : (w.sockets s).greeted = false)
    (up : (w.sockets s).up = .hello hello :: rest)
    (speaks : hello.protocol = hostProtocolVersion)
    (own : hello.instanceId = (w.sockets s).host) :
    Gapless ((w.onSocket s fun c => { c with up := rest }).react
      (w.manager.handleHello hello)) := by
  have greets := handleHello_greets w.manager speaks
  obtain ⟨received, update, sends⟩ := greets.sent
  have greeting := gapless.greeting introduced tracking loyal held ungreeted up
    speaks own
  have only : ∀ {t}, (w.manager.handleHello hello).1.link.socket = some t → s = t := fun holds =>
    Option.some.inj (held.symm.trans (greets.socket.symm.trans holds))
  have pushed : ((w.onSocket s fun c => { c with up := rest }).react
      (w.manager.handleHello hello)).sockets s =
        { w.sockets s with up := rest }.pushDown (w.manager.handleHello hello).2 := by
    rw [World.sockets_react, World.manager_onSocket, if_pos held, World.sockets_onSocket, if_pos rfl]
  have welcomed : (w.manager.handleHello hello).2.any CoordinatorToHost.isWelcome = true := by
    rw [sends.frames]
    rfl
  refine ⟨fun kept => ?_, fun {h} current kept => ?_, fun {t other more} holds unmet => ?_,
    fun {t} holds _ agentHolds uncut after kept => ?_⟩
  · rw [World.manager_react] at kept ⊢
    exact (greeting kept).1
  · rw [World.manager_react] at current kept ⊢
    rw [World.agents_react, World.agents_onSocket]
    obtain rfl : hello.instanceId = h :=
      Option.some.inj (greets.hostInstanceId.symm.trans current)
    by_cases same : w.manager.link.hostInstanceId = some hello.instanceId
    · obtain ⟨queue, next, released, -⟩ := greets.same same
      rw [queue, next]
      exact gapless.covered same (released ▸ kept)
    · obtain ⟨filtered, -, queue, next, -⟩ := greets.other same
      rw [queue, next, length_renumber]
      omega
  · rw [World.manager_react] at holds
    obtain rfl := only holds
    rw [pushed] at unmet
    simp [Socket.pushDown, welcomed] at unmet
  · rw [World.manager_react] at holds after kept ⊢
    obtain rfl := only holds
    rw [World.agents_react, World.agents_onSocket, pushed] at agentHolds ⊢
    rw [pushed] at uncut
    have uncut : (w.sockets s).downCut = false := uncut
    have host : ({ w.sockets s with up := rest }.pushDown
        (w.manager.handleHello hello).2).host = (w.sockets s).host := rfl
    have down : ({ w.sockets s with up := rest }.pushDown (w.manager.handleHello hello).2).down =
        (w.sockets s).down ++ (w.manager.handleHello hello).2 := by
      simp [Socket.pushDown, uncut]
    rw [host] at agentHolds ⊢
    rw [down]
    obtain ⟨consecutive, below, covered⟩ := greeting kept
    have resent : commandsOf (w.manager.handleHello hello).2 =
        (w.manager.handleHello hello).1.link.unacked.filter
          fun q => hello.appliedHere K < q.seq := by
      rw [sends.commands, resent, after, greets.instanceId, introduced.own]
      rfl
    have consecutive := consecutive.filter (hello.appliedHere K)
    have covered := (greeting kept).1.length_filter (Nat.le_refl _) covered
    rcases (introduced.known (w.sockets s).host).coordinator with none | known
    · -- the first welcome: nothing before it is heard, and the host counts from 0
      have heard : (w.agents (w.sockets s).host).heard
          ((w.sockets s).down ++ (w.manager.handleHello hello).2) =
            commandsOf (w.manager.handleHello hello).2 := by
        rw [HostAgent.heard, if_pos none, fromWelcome_append_unsolicited (wired.solicited ungreeted),
          sends.frames, fromWelcome_cons]
        rfl
      have zero : hello.appliedHere K = 0 := by
        simp [Hello.appliedHere, (gapless.pending held ungreeted up).1, none]
      rw [HostAgent.counts, heard, resent, ((introduced.known _).untouched none).1]
      rw [zero] at covered below consecutive ⊢
      exact consecutive.accept below covered
    · -- the host counts on from what it hears before the welcome
      have same : w.manager.link.hostInstanceId = some hello.instanceId := by
        by_contra other
        rw [← own] at known
        simp [World.loyal, up, held, other, known] at loyal
      have counted := le_accept (w.agents (w.sockets s).host).appliedCommandSeq
        ((w.agents (w.sockets s).host).heard (w.sockets s).down)
      have numbering := tracking.numbering (own ▸ same)
      have history := inOrder.history (w.sockets s).host
      obtain ⟨appliedFrom, le, -⟩ := gapless.pending held ungreeted up
      have here : hello.appliedHere K = hello.appliedCommandSeq := by
        simp [Hello.appliedHere, appliedFrom, known]
      have short : (w.agents (w.sockets s).host).counts (w.sockets s).down <
          w.manager.link.nextCommandSeq :=
        accept_lt (history.count ▸ numbering.short)
          fun q inside => (tracking.heard (own ▸ same) agentHolds q inside).1
      rw [HostAgent.counts_append (fun none => by simp [none] at known), resent]
      refine consecutive.accept ((greets.same same).2.1 ▸ short) ?_
      rw [history.count] at counted
      have : hello.appliedHere K ≤ (w.agents (w.sockets s).host).counts (w.sockets s).down := by
        unfold HostAgent.counts
        rw [history.count]
        omega
      omega

theorem handled (gapless : Gapless w) (wired : Wired w) (introduced : Introduced K w)
    {s : SocketId} {start : StartResult} {frame : CoordinatorToHost} {rest : List CoordinatorToHost}
    (held : (w.agents (w.sockets s).host).socket = some s)
    (down : (w.sockets s).down = frame :: rest) :
    Gapless ((w.onSocket s fun c => { c with down := rest }).reply (w.sockets s).host
      ((w.agents (w.sockets s).host).handleMessage start frame)) := by
  have handled := HostAgent.handleMessage_handled (w.agents (w.sockets s).host) start frame
  have fromK : ∀ {i e received}, frame = .welcome i e received → i = K := fun eq =>
    introduced.welcomes (s := s) (by rw [down, eq]; exact List.mem_cons_self)
  have early : (w.agents (w.sockets s).host).coordinatorInstanceId = none →
      ∀ q, frame = .command q → q.seq ≠ 1 := fun none q eq =>
    (introduced.met held none).early q
      (by simp [down, eq, unwelcomed_cons, CoordinatorToHost.isWelcome])
  generalize eqReaction : (w.agents (w.sockets s).host).handleMessage start frame = r at handled
  have kept : ∀ {α : Type} (field : Socket → α) (t : SocketId),
      (∀ c rest, field { c with down := rest } = field c) →
      (∀ c frames, field (Socket.pushUp c frames) = field c) →
      field (((w.onSocket s fun c => { c with down := rest }).reply (w.sockets s).host
        r).sockets t) = field (w.sockets t) := by
    intro α field t popped pushed
    rw [World.sockets_reply_field _ _ _ field t (pushed _ _),
      w.sockets_onSocket_field field s t _ fun c => popped c rest]
  have agent : ∀ k, k ≠ (w.sockets s).host →
      ((w.onSocket s fun c => { c with down := rest }).reply (w.sockets s).host r).agents k =
        w.agents k := fun k other => by
    rw [World.agents_reply, World.agents_onSocket, Function.update_of_ne other]
  have self : ((w.onSocket s fun c => { c with down := rest }).reply (w.sockets s).host r).agents
      (w.sockets s).host = r.1 := by
    rw [World.agents_reply, Function.update_self]
  refine ⟨?_, fun {h} current => ?_, fun {t hello more} holds ungreeted up => ?_,
    fun {t} holds isGreeted agentHolds uncut => ?_⟩
  · rw [World.manager_reply]
    exact gapless.consecutive
  · rw [World.manager_reply] at current ⊢
    intro unfiltered
    have before := gapless.covered current unfiltered
    by_cases same : h = (w.sockets s).host
    · subst same
      rw [self]
      have := handled.applied_prefix.length_le
      simp only [World.manager_onSocket]
      omega
    · rw [agent h same]
      exact before
  · rw [World.manager_reply] at holds ⊢
    have holds : w.manager.link.socket = some t := holds
    rw [kept Socket.greeted t (fun _ _ => rfl) fun _ _ => rfl] at ungreeted
    rw [kept Socket.host t (fun _ _ => rfl) fun _ _ => rfl]
    have said : ∃ before, (w.sockets t).up = .hello hello :: before := by
      have same := w.sockets_onSocket_field Socket.up s t (fun c => { c with down := rest })
        fun _ => rfl
      refine World.sockets_reply_cases _ _ r (P := fun c => c.up = .hello hello :: more →
        ∃ before, (w.sockets t).up = .hello hello :: before) t (fun _ _ pushed => ?_)
        (fun before => ⟨more, same ▸ before⟩) up
      simp only [Socket.pushUp] at pushed
      rw [same] at pushed
      split at pushed
      · exact ⟨more, pushed⟩
      · cases before : (w.sockets t).up with
        | nil =>
          rw [before, List.nil_append] at pushed
          exact absurd (handled.noHello _ (pushed ▸ List.mem_cons_self)) (by
            simp [HostToCoordinator.isHello])
        | cons first others =>
          rw [before, List.cons_append] at pushed
          exact ⟨others, by rw [(List.cons.inj pushed).1]⟩
    obtain ⟨before, said⟩ := said
    obtain ⟨appliedFrom, le, covered⟩ := gapless.pending holds ungreeted said
    by_cases same : (w.sockets t).host = (w.sockets s).host
    · -- the host has not been welcomed meanwhile: it holds the socket it said `hello` on
      have isOpen : (w.sockets t).opened = true := by
        cases opened : (w.sockets t).opened with
        | true => rfl
        | false => simp [(wired.unopened opened).1] at said
      have here : s = t := by
        rcases wired.newest holds isOpen (same ▸ held) with here | unheld
        · exact here
        · simp [(wired.fresh unheld).1] at down
      subst here
      have notWelcome := wired.solicited ungreeted frame (down ▸ List.mem_cons_self)
      rw [self]
      refine ⟨appliedFrom.trans (handled.coordinatorInstanceId notWelcome).symm,
        Nat.le_trans le handled.applied_prefix.length_le, covered⟩
    · rw [agent _ same]
      exact ⟨appliedFrom, le, covered⟩
  · rw [World.manager_reply] at holds ⊢
    have holds : w.manager.link.socket = some t := holds
    rw [kept Socket.greeted t (fun _ _ => rfl) fun _ _ => rfl] at isGreeted
    rw [kept Socket.host t (fun _ _ => rfl) fun _ _ => rfl] at agentHolds ⊢
    rw [kept Socket.downCut t (fun _ _ => rfl) fun _ _ => rfl] at uncut
    rw [World.sockets_reply_field _ _ _ Socket.down t rfl, World.sockets_onSocket]
    by_cases same : (w.sockets t).host = (w.sockets s).host
    · rw [same, self] at agentHolds ⊢
      obtain rfl : s = t := Option.some.inj (held.symm.trans (handled.socket agentHolds).1)
      rw [if_pos rfl, handled.counts agentHolds (introduced.known _) fromK early, ← down]
      exact gapless.counted holds isGreeted held uncut
    · have elsewhere : t ≠ s := fun here => same (here ▸ rfl)
      rw [agent _ same] at agentHolds ⊢
      rw [if_neg elsewhere]
      exact gapless.counted holds isGreeted agentHolds uncut

theorem setAgent (gapless : Gapless w) {h : Uuid} {a : HostAgent}
    (coordinator : a.coordinatorInstanceId = (w.agents h).coordinatorInstanceId)
    (counter : a.appliedCommandSeq = (w.agents h).appliedCommandSeq)
    (applied : a.applied = (w.agents h).applied)
    (socket : ∀ {s}, a.socket = some s → w.manager.link.socket = some s →
      (w.agents h).socket = some s) :
    Gapless { w with agents := Function.update w.agents h a } := by
  have same : ∀ {α : Type} (field : HostAgent → α), field a = field (w.agents h) →
      ∀ k, field (Function.update w.agents h a k) = field (w.agents k) := by
    intro α field eq k
    rw [Function.update_apply]
    split
    · rename_i here
      rw [eq, here]
    · rfl
  refine gapless.still rfl (same _ coordinator) (same _ counter) (same _ applied) (fun _ => rfl)
    (fun _ => rfl) (fun _ _ up => .inl ⟨_, up⟩) fun {s} held holds uncut => ⟨?_, uncut, rfl⟩
  by_cases here : (w.sockets s).host = h
  · rw [here] at holds ⊢
    simp only [Function.update_self] at holds
    exact socket holds held
  · simpa [here] using holds

/-- A change of one socket. -/
theorem onSocket (gapless : Gapless w) {s : SocketId} {f : Socket → Socket}
    (host : w.manager.link.socket = some s → (f (w.sockets s)).host = (w.sockets s).host)
    (greeted : w.manager.link.socket = some s →
      (f (w.sockets s)).greeted = (w.sockets s).greeted)
    (up : ∀ {hello rest}, w.manager.link.socket = some s → (w.sockets s).greeted = false →
      (f (w.sockets s)).up = .hello hello :: rest → ∃ more, (w.sockets s).up = .hello hello :: more)
    (down : w.manager.link.socket = some s → (w.agents (w.sockets s).host).socket = some s →
      (f (w.sockets s)).downCut = false →
        (w.sockets s).downCut = false ∧ (f (w.sockets s)).down = (w.sockets s).down) :
    Gapless (w.onSocket s f) := by
  have pick : ∀ (P : Socket → Prop) (t : SocketId), (t = s → P (f (w.sockets s))) →
      P (w.sockets t) → P ((w.onSocket s f).sockets t) := by
    intro P t here there
    rw [World.sockets_onSocket]
    split
    · exact here ‹_›
    · exact there
  refine gapless.still rfl (fun _ => rfl) (fun _ => rfl) (fun _ => rfl) ?_ ?_ ?_ ?_
  · intro t held
    exact pick (·.host = _) t (fun same => same ▸ host (same ▸ held)) rfl
  · intro t held
    exact pick (·.greeted = _) t (fun same => same ▸ greeted (same ▸ held)) rfl
  · intro t hello rest held ungreeted said
    left
    refine pick (fun c => c.up = .hello hello :: rest →
      ∃ more, (w.sockets t).up = .hello hello :: more) t (fun same said => ?_)
      (fun said => ⟨rest, said⟩) said
    subst same
    exact up held ungreeted said
  · intro t held holds uncut
    refine pick (fun c => c.downCut = false → _ ∧ _ ∧ c.down = _) t (fun same uncut => ?_)
      (fun uncut => ⟨holds, uncut, rfl⟩) uncut
    subst same
    exact ⟨holds, down held holds uncut⟩

/-- What a host sends does not matter, unless it is a `hello`. -/
theorem reply (gapless : Gapless w) {h : Uuid} {r : HostAgent × List HostToCoordinator}
    (calm : AgentCalm (w.agents h) r) : Gapless (w.reply h r) := by
  have set := gapless.setAgent (h := h) calm.coordinatorInstanceId calm.appliedCommandSeq
    calm.applied fun held _ => calm.socket ▸ held
  refine set.still (by simp) (by simp) (by simp) (by simp)
    (fun _ => w.sockets_reply_field h r Socket.host _ rfl)
    (fun _ => w.sockets_reply_field h r Socket.greeted _ rfl)
    (fun {s hello rest} _ _ up => .inl ?_) fun {s} _ holds uncut => ⟨?_, ?_, ?_⟩
  · refine w.sockets_reply_cases h r (P := fun c => c.up = .hello hello :: rest →
      ∃ more, (w.sockets s).up = .hello hello :: more) s (fun _ _ pushed => ?_)
      (fun before => ⟨rest, before⟩) up
    simp only [Socket.pushUp] at pushed
    split at pushed
    · exact ⟨rest, pushed⟩
    · cases before : (w.sockets s).up with
      | nil =>
        rw [before, List.nil_append] at pushed
        exact absurd (calm.noHello _ (pushed ▸ List.mem_cons_self))
          (by simp [HostToCoordinator.isHello])
      | cons first others =>
        rw [before, List.cons_append] at pushed
        exact ⟨others, by rw [(List.cons.inj pushed).1]⟩
  · simpa using holds
  · rw [w.sockets_reply_field h r Socket.downCut s rfl] at uncut
    exact uncut
  · exact w.sockets_reply_field h r Socket.down s rfl

theorem step (gapless : Gapless w) (wired : Wired w) (introduced : Introduced K w)
    (inOrder : InOrder w) (tracking : Tracking w) {action : Action}
    (loyal : w.loyal action = true) (taken : Taken w action w') : Gapless w' := by
  cases taken with
  | @dial h s _ unheld =>
    have elsewhere : w.manager.link.socket ≠ some s := fun held => by
      simp [wired.dialed (wired.linked held)] at unheld
    have reset : Gapless (w.onSocket s fun _ => { host := h, dialed := true }) :=
      gapless.onSocket (fun held => absurd held elsewhere) (fun held => absurd held elsewhere)
        (fun held => absurd held elsewhere) fun held => absurd held elsewhere
    refine reset.setAgent rfl rfl rfl fun {t} holds held => ?_
    obtain rfl : s = t := by simpa [HostAgent.connect] using holds
    exact absurd held elsewhere
  | @accept s isDialed unheld =>
    obtain ⟨-, notOpen⟩ := wired.fresh unheld
    obtain ⟨noUp, ungreeted⟩ := wired.unopened notOpen
    refine ⟨gapless.consecutive, gapless.covered, fun {t hello rest} held _ up => ?_,
      fun {t} held isGreeted => ?_⟩
    · obtain rfl : s = t := by simpa [attach] using held
      simp [World.sockets_onSocket, noUp] at up
    · obtain rfl : s = t := by simpa [attach] using held
      simp [World.sockets_onSocket, ungreeted] at isGreeted
  | @socketOpens h s holds _ notOpen =>
    obtain ⟨noUp, -⟩ := wired.unopened notOpen
    have opened : Gapless (w.onSocket s fun c => { c with opened := true }) :=
      gapless.onSocket (fun _ => rfl) (fun _ => rfl) (fun _ _ up => ⟨_, up⟩)
        fun _ _ uncut => ⟨uncut, rfl⟩
    have same : ∀ {α : Type} (field : HostAgent → α),
        (∀ a : HostAgent, field a.onOpen.1 = field a) → ∀ k,
        field (Function.update w.agents h (w.agents h).onOpen.1 k) = field (w.agents k) := by
      intro α field eq k
      rw [Function.update_apply]
      split
      · rename_i here
        rw [eq, here]
      · rfl
    refine opened.still (by simp) ?_ ?_ ?_ (fun _ => World.sockets_reply_field _ h _ Socket.host _ rfl)
      (fun _ => World.sockets_reply_field _ h _ Socket.greeted _ rfl)
      (fun {t hello rest} _ _ up => ?_) fun {t} _ agentHolds uncut => ⟨?_, ?_, ?_⟩
    · simpa using same HostAgent.coordinatorInstanceId fun _ => rfl
    · simpa using same HostAgent.appliedCommandSeq fun _ => rfl
    · simpa using same HostAgent.applied fun _ => rfl
    · rw [World.sockets_reply] at up
      split at up
      · rename_i sends
        obtain rfl : s = t := Option.some.inj (holds.symm.trans sends.1)
        right
        cases cut : (w.sockets s).upCut with
        | true => simp [World.sockets_onSocket, Socket.pushUp, cut, noUp] at up
        | false =>
          have said : (w.agents h).onOpen.2 = .hello hello :: rest := by
            simpa [World.sockets_onSocket, Socket.pushUp, cut, noUp] using up
          have owner := (wired.owner holds).1
          obtain rfl := HostToCoordinator.hello.inj (List.cons.inj said.symm).1
          simp [World.sockets_onSocket, owner, (inOrder.history h).count]
      · exact .inl ⟨rest, up⟩
    · rw [World.agents_reply] at agentHolds
      have := same HostAgent.socket (fun _ => rfl)
        ((w.onSocket s fun c => { c with opened := true }).sockets t).host
      exact this.symm.trans agentHolds
    · rw [World.sockets_reply_field _ h _ Socket.downCut t rfl] at uncut
      exact uncut
    · exact World.sockets_reply_field _ h _ Socket.down t rfl
  | @hangUp h => exact gapless.setAgent rfl rfl rfl fun held => by cases held
  | @detach s =>
    unfold detach
    split
    · exact ⟨gapless.consecutive, gapless.covered, (fun held => by cases held),
        (fun held => by cases held)⟩
    · exact gapless
  | @loseUp s n =>
    refine gapless.onSocket (fun _ => rfl) (fun _ => rfl) (fun {hello rest} _ _ up => ?_)
      fun _ _ uncut => ⟨uncut, rfl⟩
    cases before : (w.sockets s).up with
    | nil => simp [before] at up
    | cons first others =>
      cases n with
      | zero => simp at up
      | succ n =>
        rw [before, List.take_succ_cons] at up
        exact ⟨others, by rw [(List.cons.inj up).1]⟩
  | loseDown =>
    exact gapless.onSocket (fun _ => rfl) (fun _ => rfl) (fun _ _ up => ⟨_, up⟩)
      fun _ _ uncut => by cases uncut
  | ignoredUp unheld =>
    exact gapless.onSocket (fun _ => rfl) (fun _ => rfl) (fun held => absurd held unheld)
      fun held => absurd held unheld
  | @hello s hello rest held ungreeted up speaks own =>
    exact gapless.hello wired introduced inOrder tracking loyal held ungreeted up speaks own
  | @message s frame rest held isGreeted up notHello =>
    have popped : Gapless (w.onSocket s fun c => { c with up := rest }) :=
      gapless.onSocket (fun _ => rfl) (fun _ => rfl)
        (fun _ ungreeted => by simp [isGreeted] at ungreeted) fun _ _ uncut => ⟨uncut, rfl⟩
    refine popped.react (wired.popUp up fun _ => isGreeted)
      (introduced.onSocket (List.Subset.refl _) fun _ _ met => met.congr rfl rfl rfl)
      (inOrder.onSocket (.refl _))
      (tracking.onSocket (fun _ => List.Subset.refl _)
        fun ack => ⟨rfl, up ▸ List.mem_cons_of_mem _ ack⟩)
      (handleMessage_calm w.manager s notHello) (fun {n h} ack current => ?_)
      (fun {t} holds ungreeted => ?_)
      fun online linked => handleMessage_served online linked s notHello
    · obtain ⟨-, here, -⟩ := wired.greeted held isGreeted
      obtain rfl : (w.sockets s).host = h := Option.some.inj (here.symm.trans current)
      exact tracking.acked (by rw [up, ack]; exact List.mem_cons_self)
    · obtain rfl : s = t := Option.some.inj (held.symm.trans holds)
      simp [World.sockets_onSocket, isGreeted] at ungreeted
  | ignoredDown unheld =>
    exact gapless.onSocket (fun _ => rfl) (fun _ => rfl) (fun _ _ up => ⟨_, up⟩)
      fun _ holds => absurd holds unheld
  | @handled s start frame rest held isOpen down =>
    exact gapless.handled wired introduced held down
  | coordinator done =>
    exact gapless.react wired introduced inOrder tracking (act_calm done) (fun no => no.elim)
      (fun _ _ _ => id) fun online held => act_served online held done
  | @host h action => exact gapless.reply (HostAgent.act_calm (w.agents h) action)

end Gapless

theorem reaches_queue {K : Uuid} {ok : World → Action → Prop} {w : World}
    (reached : (hostLink K).Reaches ok w) :
    Numbered w.manager ∧ (w.manager.released = false →
      Consecutive w.manager.link.nextCommandSeq w.manager.link.unacked) := by
  refine reaches_invariant (I := fun w => Numbered w.manager ∧ (w.manager.released = false →
    Consecutive w.manager.link.nextCommandSeq w.manager.link.unacked))
    ⟨(InOrder.init K).numbered, fun _ => trivial⟩ ?_ reached
  intro w action w' _ queue _ taken
  rcases taken.manager with ⟨acks, requeued⟩ | ⟨hello, speaks, eq⟩
  · refine ⟨requeued.numbered queue.1, fun kept => ?_⟩
    cases requeued with
    | unchanged same next _ released => rw [same, next]; exact queue.2 (released ▸ kept)
    | acknowledged n _ same next _ released =>
      rw [same, next]
      exact (queue.2 (released ▸ kept)).filter n
    | released _ _ _ _ released => simp [released] at kept
    | appended command same next _ released =>
      rw [same, next]
      exact (queue.2 (released ▸ kept)).append rfl
  · have greets := handleHello_greets w.manager speaks
    rw [eq]
    refine ⟨greets.numbered queue.1, fun kept => ?_⟩
    by_cases same : w.manager.link.hostInstanceId = some hello.instanceId
    · obtain ⟨unacked, next, released, -⟩ := greets.same same
      rw [unacked, next]
      exact queue.2 (released ▸ kept)
    · obtain ⟨filtered, -, unacked, next, -⟩ := greets.other same
      rw [unacked, next]
      exact .renumber filtered

theorem reaches_gapless {K : Uuid} {w : World}
    (reached : (hostLink K).Reaches (fun w action => w.heeds action = true) w) : Gapless w := by
  induction reached with
  | start => exact Gapless.init K
  | step before admitted stepped ih =>
    have wired := reaches_wired before
    have patient := fun {w action} (ok : World.heeds w action = true) => (World.heeds_iff.mp ok).1
    have loyal := fun {w action} (ok : World.heeds w action = true) => (World.heeds_iff.mp ok).2
    exact ih.step wired (reaches_introduced patient before) (reaches_inOrder patient before)
      (reaches_tracking patient loyal before) (loyal admitted) (wired.taken stepped)

theorem no_command_gap_lasts {K : Uuid} {w : World} :
    ((hostLink K).Reachable w →
      (w.manager.link.unacked.Pairwise fun p q => p.seq < q.seq) ∧
      (∀ q ∈ w.manager.link.unacked, 1 ≤ q.seq ∧ q.seq < w.manager.link.nextCommandSeq) ∧
      (w.manager.released = false →
        Consecutive w.manager.link.nextCommandSeq w.manager.link.unacked)) ∧
    ((hostLink K).Reaches (fun w action => w.heeds action = true) w →
      -- what a `hello` is answered with
      (∀ s hello rest, w.loyal (.deliverUp s) = true → w.manager.link.socket = some s →
        (w.sockets s).up = .hello hello :: rest →
        (w.manager.handleHello hello).1.released = false →
        ∃ waiting, waiting = (w.manager.handleHello hello).1.link.unacked.filter
            (fun q => hello.appliedHere K < q.seq) ∧
          commandsOf (w.manager.handleHello hello).2 =
            (if (w.manager.handleHello hello).1.link.updateSent then [] else waiting) ∧
          (waiting.head?.map QueuedCommand.seq = some (hello.appliedHere K + 1) ∨
            waiting = [] ∧ (w.manager.handleHello hello).1.link.nextCommandSeq =
              hello.appliedHere K + 1)) ∧
      -- what a connected host expects after the frames in flight
      ∀ s, w.manager.link.socket = some s → (w.sockets s).greeted = true →
        (w.agents (w.sockets s).host).socket = some s → (w.sockets s).downCut = false →
        w.manager.link.updateSent = false → w.manager.released = false →
          (w.agents (w.sockets s).host).counts (w.sockets s).down + 1 =
            w.manager.link.nextCommandSeq) := by
  refine ⟨fun reached => ?_, fun reached => ⟨?_, ?_⟩⟩
  · obtain ⟨numbered, consecutive⟩ := reaches_queue reached
    exact ⟨numbered.sorted.imp fun both => both.1, numbered.bound, consecutive⟩
  · intro s hello rest loyal held up kept
    have wired := reaches_wired reached
    have introduced := reaches_introduced (fun ok => (World.heeds_iff.mp ok).1) reached
    have tracking := reaches_tracking (fun ok => (World.heeds_iff.mp ok).1)
      (fun ok => (World.heeds_iff.mp ok).2) reached
    obtain ⟨ungreeted, speaks, own⟩ := wired.arriving held up
    obtain ⟨consecutive, below, covered⟩ := (reaches_gapless reached).greeting introduced tracking
      loyal held ungreeted up speaks own kept
    have greets := handleHello_greets w.manager speaks
    obtain ⟨received, update, greeting⟩ := greets.sent
    refine ⟨_, rfl, ?_, ?_⟩
    · rw [greeting.commands, resent, greets.instanceId, introduced.own]
      rfl
    · have waiting := consecutive.filter (hello.appliedHere K)
      have covered := consecutive.length_filter (Nat.le_refl _) covered
      cases eq : (w.manager.handleHello hello).1.link.unacked.filter
          (fun q => hello.appliedHere K < q.seq) with
      | nil =>
        rw [eq, List.length_nil] at covered
        exact .inr ⟨rfl, by omega⟩
      | cons q others =>
        left
        have asked : q ∈ (w.manager.handleHello hello).1.link.unacked.filter
            (fun q => hello.appliedHere K < q.seq) := eq ▸ List.mem_cons_self
        have above := of_decide_eq_true (List.mem_filter.mp asked).2
        rw [eq] at waiting covered
        obtain ⟨first, -⟩ := waiting
        rw [List.length_cons] at covered
        rw [List.head?_cons, Option.map_some]
        congr 1
        omega
  · exact fun s => (reaches_gapless reached).counted

/-- A host that applied a command and lost its acknowledgement is about to come back. -/
def returningRun : List Action :=
  connecting 1 10 ++ [.deliverUp 10, .deliverDown 10 .started,
    .coordinator (.startProcess 7 (.spawn 7 none)), .deliverDown 10 .started, .loseUp 10 0,
    .detach 10, .coordinator (.enqueue (.stdinEnd 7)), .hangUp 1] ++ connecting 1 11

theorem returning_leaves_no_gap :
    ∃ w, ((hostLink 0).Reachable w ∧
        (hostLink 0).Reaches (fun w action => w.heeds action = true) w) ∧
      w.manager.link.unacked.map QueuedCommand.seq = [1, 2] ∧
      (w.manager.link.unacked.Pairwise fun p q => p.seq < q.seq) ∧
      ∃ hello, (w.sockets 11).up = [.hello hello] ∧ hello.appliedHere 0 = 1 ∧
        ∃ waiting, commandsOf (w.manager.handleHello hello).2 = waiting ∧
          waiting.map QueuedCommand.seq = [2] := by
  obtain ⟨w, reached, queue, up, held, loyal, kept, idle, filtered⟩ :=
    Machine.exists_reaches_of_run
    (hostLink 0) World.heeds
    (fun w => w.manager.link.unacked.map QueuedCommand.seq = [1, 2] ∧
      (w.sockets 11).up = [.hello ⟨3, 1, 1, some 0, some [7]⟩] ∧
      w.manager.link.socket = some 11 ∧ w.loyal (.deliverUp 11) = true ∧
      (w.manager.handleHello ⟨3, 1, 1, some 0, some [7]⟩).1.released = false ∧
      (w.manager.handleHello ⟨3, 1, 1, some 0, some [7]⟩).1.link.updateSent = false ∧
      ((w.manager.handleHello ⟨3, 1, 1, some 0, some [7]⟩).1.link.unacked.filter
        (fun q => Hello.appliedHere ⟨3, 1, 1, some 0, some [7]⟩ 0 < q.seq)).map
          QueuedCommand.seq = [2])
    returningRun (by decide +kernel)
  obtain ⟨always, heeding⟩ := no_command_gap_lasts (K := 0) (w := w)
  obtain ⟨waiting, eq, sent, -⟩ := (heeding reached).1 11 _ [] loyal held up kept
  rw [idle] at sent
  exact ⟨w, ⟨reached.reachable, reached⟩, queue, (always reached.reachable).1, _, up, rfl, waiting,
    sent, eq ▸ filtered⟩

/-- `release` takes a command out of the middle of the queue of a host that is away. -/
theorem release_leaves_a_gap :
    ∃ w, (hostLink 0).Reachable w ∧ w.manager.link.unacked.map QueuedCommand.seq = [1, 3] ∧
      ¬ Consecutive w.manager.link.nextCommandSeq w.manager.link.unacked := by
  obtain ⟨w, reached, queue, next⟩ := Machine.exists_reaches_of_run (hostLink 0)
    (fun _ _ => true)
    (fun w => w.manager.link.unacked =
        [⟨1, .writeFile [] [], 0⟩, ⟨3, .writeFile [] [], 2⟩] ∧ w.manager.link.nextCommandSeq = 4)
    [.coordinator (.enqueue (.writeFile [] [])),
      .coordinator (.startProcess 7 (.spawn 7 none)),
      .coordinator (.enqueue (.writeFile [] [])), .coordinator .release]
    (by decide +kernel)
  refine ⟨w, reached.reachable, by simp [queue], fun consecutive => ?_⟩
  rw [queue, next] at consecutive
  exact absurd consecutive.1 (by decide)

end Takode.RemoteHost
