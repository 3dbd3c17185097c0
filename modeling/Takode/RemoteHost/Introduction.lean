import Mathlib.Data.List.TakeWhile
import Takode.RemoteHost.Wiring

/-!
# Hosts that were never welcomed

A host applies command 1 whenever its counter is 0, and a first welcome sets the
counter to 0. So a host that has no welcome yet must not see a command 1 before
it. The coordinator sends commands while it believes the link online, which it
still does when a new socket replaces one that was never closed; `patient` is
the condition under which it does not do so too early.
-/

namespace Takode.RemoteHost

/-- The frames before the first welcome. -/
def unwelcomed (frames : List CoordinatorToHost) : List CoordinatorToHost :=
  frames.takeWhile fun frame => !frame.isWelcome

theorem unwelcomed_subset {frames : List CoordinatorToHost} : unwelcomed frames ⊆ frames :=
  (List.takeWhile_prefix _).subset

theorem unwelcomed_cons (frame : CoordinatorToHost) (rest : List CoordinatorToHost) :
    unwelcomed (frame :: rest) = if frame.isWelcome then [] else frame :: unwelcomed rest := by
  cases isWelcome : frame.isWelcome <;> simp [unwelcomed, isWelcome]

theorem unwelcomed_append_of_welcome {xs : List CoordinatorToHost} (ys : List CoordinatorToHost)
    (welcome : ∃ frame ∈ xs, frame.isWelcome = true) : unwelcomed (xs ++ ys) = unwelcomed xs := by
  induction xs with
  | nil => simp at welcome
  | cons frame rest ih =>
    rw [List.cons_append, unwelcomed_cons, unwelcomed_cons]
    split
    · rfl
    · rename_i other
      have later : ∃ frame ∈ rest, frame.isWelcome = true := by simpa [other] using welcome
      rw [ih later]

theorem unwelcomed_append_subset (xs ys : List CoordinatorToHost) :
    unwelcomed (xs ++ ys) ⊆ unwelcomed xs ++ ys := by
  induction xs with
  | nil => exact unwelcomed_subset
  | cons frame rest ih =>
    rw [List.cons_append, unwelcomed_cons, unwelcomed_cons]
    split
    · exact List.nil_subset _
    · exact List.cons_subset_cons frame ih

theorem unwelcomed_subset_append (xs ys : List CoordinatorToHost) :
    unwelcomed xs ⊆ unwelcomed (xs ++ ys) := by
  induction xs with
  | nil => exact List.nil_subset _
  | cons frame rest ih =>
    rw [List.cons_append, unwelcomed_cons, unwelcomed_cons]
    split
    · exact List.nil_subset _
    · exact List.cons_subset_cons frame ih

theorem unwelcomed_append_welcome (xs ys : List CoordinatorToHost) {frame : CoordinatorToHost}
    (isWelcome : frame.isWelcome = true) : unwelcomed (xs ++ frame :: ys) ⊆ xs := by
  induction xs with
  | nil => simp [unwelcomed_cons, isWelcome]
  | cons first rest ih =>
    rw [List.cons_append, unwelcomed_cons]
    split
    · exact List.nil_subset _
    · exact List.cons_subset_cons first ih

/-- The manager sends a command numbered 1 outside a handshake. -/
def HostLinkManager.sendsFirst (m : HostLinkManager) : CoordinatorAction → Bool
  | .startProcess _ _ | .enqueue _ =>
    m.link.online && !m.link.updateSent && m.link.nextCommandSeq == 1
  | .updateTimeout =>
    m.link.online && m.link.updateSent && m.link.unacked.any fun queued => queued.seq == 1
  | _ => false

/-- The coordinator holds the socket of a host that it has neither heard on that socket nor
ever welcomed. -/
def World.stranger (w : World) : Bool :=
  w.manager.link.socket.any fun s =>
    !(w.sockets s).greeted && (w.agents (w.sockets s).host).coordinatorInstanceId.isNone

/-- No command numbered 1 is sent to a host before its first welcome. -/
def World.patient (w : World) : Action → Bool
  | .coordinator action => !(w.stranger && w.manager.sendsFirst action)
  | _ => true

theorem HostLinkManager.sendsFirst_of_sent {m : HostLinkManager} {action : CoordinatorAction}
    {r : HostLinkManager × List CoordinatorToHost} (done : m.act action = some r)
    {q : QueuedCommand} (sent : q ∈ commandsOf r.2) (first : q.seq = 1) :
    m.sendsFirst action = true := by
  have enqueued : ∀ {m : HostLinkManager} {command}, q ∈ commandsOf (m.enqueue command).2 →
      (m.link.online && !m.link.updateSent && m.link.nextCommandSeq == 1) = true := by
    intro m command sent
    simp only [enqueue] at sent
    split at sent
    · rename_i ready
      have eq : q = ⟨m.link.nextCommandSeq, command, m.issued.length⟩ := by simpa using sent
      subst eq
      simp_all
    · simp at sent
  cases action with
  | startProcess procId command =>
    simp only [act, Option.ite_none_right_eq_some, Option.some.injEq] at done
    obtain ⟨-, rfl⟩ := done
    exact enqueued sent
  | enqueue command =>
    simp only [act, Option.ite_none_right_eq_some, Option.some.injEq] at done
    obtain ⟨-, rfl⟩ := done
    exact enqueued sent
  | updateTimeout =>
    rw [← Option.some.inj done, updateTimeout] at sent
    split at sent
    · rename_i waiting
      simp only [abandonUpdate] at sent
      split at sent
      · rename_i ready
        simp only [Bool.and_eq_true] at ready
        have queued : q ∈ m.link.unacked := by simpa using sent
        simpa [sendsFirst, ready.1, waiting] using ⟨q, queued, first⟩
      · simp at sent
    · simp at sent
  | adopt procId =>
    simp only [act, Option.ite_none_right_eq_some, Option.some.injEq] at done
    obtain ⟨-, rfl⟩ := done
    simp at sent
  | release =>
    rw [← Option.some.inj done] at sent
    simp at sent
  | requestUpdate commit =>
    rw [← Option.some.inj done] at sent
    simp at sent
  | sendUpdate instanceId commit ready =>
    rw [← Option.some.inj done, sendUpdate] at sent
    split at sent
    · simp at sent
    · split at sent
      · simp at sent
      · rw [commandsOf_eq_nil (by simp)] at sent
        simp at sent
  | flushAcks s =>
    rw [← Option.some.inj done, flushAcks] at sent
    rw [commandsOf_eq_nil] at sent
    · simp at sent
    · intro q inside
      split at inside
      · simp at inside
      · simp at inside
  | claimEpoch epoch =>
    rw [← Option.some.inj done] at sent
    simp at sent

/-- What a host without a welcome may find on its socket. -/
structure Met (c : Socket) : Prop where
  early : ∀ q ∈ commandsOf (unwelcomed c.down), q.seq ≠ 1
  promised : c.greeted = true → c.downCut = false → ∃ frame ∈ c.down, frame.isWelcome = true

theorem Met.fresh {c : Socket} (noDown : c.down = []) (ungreeted : c.greeted = false) : Met c :=
  ⟨by simp [noDown, unwelcomed], by simp [ungreeted]⟩

/-- Only what comes down a socket matters. -/
theorem Met.congr {c c' : Socket} (met : Met c) (down : c'.down = c.down)
    (greeted : c'.greeted = c.greeted) (downCut : c'.downCut = c.downCut) : Met c' :=
  ⟨by rw [down]; exact met.early, by rw [down, greeted, downCut]; exact met.promised⟩

theorem Met.take {c : Socket} (met : Met c) (n : Nat) :
    Met { c with down := c.down.take n, downCut := true } := by
  refine ⟨fun q inside => met.early q ?_, by simp⟩
  have shorter : unwelcomed (c.down.take n) ⊆ unwelcomed c.down := by
    simpa using unwelcomed_subset_append (c.down.take n) (c.down.drop n)
  exact mem_commandsOf.mpr (shorter (mem_commandsOf.mp inside))

theorem Met.pushDown {c : Socket} (met : Met c) {frames : List CoordinatorToHost}
    (quiet : ∀ frame ∈ frames, frame.isWelcome = false)
    (later : c.greeted = false → ∀ q ∈ commandsOf frames, q.seq ≠ 1) : Met (c.pushDown frames) := by
  have sameGreeted : (c.pushDown frames).greeted = c.greeted := by
    have none : frames.any CoordinatorToHost.isWelcome = false := by simpa using quiet
    simp [Socket.pushDown, none]
  cases cut : c.downCut with
  | true => exact met.congr (by simp [Socket.pushDown, cut]) sameGreeted rfl
  | false =>
    have down : (c.pushDown frames).down = c.down ++ frames := by simp [Socket.pushDown, cut]
    cases greeted : c.greeted with
    | true =>
      have welcome := met.promised greeted cut
      refine ⟨?_, fun _ _ => ?_⟩
      · rw [down, unwelcomed_append_of_welcome frames welcome]
        exact met.early
      · obtain ⟨frame, inside, isWelcome⟩ := welcome
        exact ⟨frame, by simp [down, inside], isWelcome⟩
    | false =>
      refine ⟨fun q inside => ?_, by simp [sameGreeted, greeted]⟩
      rw [down] at inside
      rcases List.mem_append.mp (unwelcomed_append_subset _ _ (mem_commandsOf.mp inside)) with
        before | new
      · exact met.early q (mem_commandsOf.mpr before)
      · exact later greeted q (mem_commandsOf.mpr new)

/-- The answer to a `hello` starts with the welcome. -/
theorem Met.greet {c : Socket} (met : Met c)
    (unsolicited : ∀ frame ∈ c.down, frame.isWelcome = false) {welcome : CoordinatorToHost}
    (isWelcome : welcome.isWelcome = true) (frames : List CoordinatorToHost) :
    Met (c.pushDown (welcome :: frames)) := by
  cases cut : c.downCut with
  | true =>
    refine ⟨?_, by simp [Socket.pushDown, cut]⟩
    simpa [Socket.pushDown, cut] using met.early
  | false =>
    have down : (c.pushDown (welcome :: frames)).down = c.down ++ welcome :: frames := by
      simp [Socket.pushDown, cut]
    have all : unwelcomed c.down = c.down :=
      List.takeWhile_eq_self_iff.mpr fun frame inside => by simp [unsolicited frame inside]
    refine ⟨fun q inside => met.early q ?_, fun _ _ => ⟨welcome, by simp [down], isWelcome⟩⟩
    rw [down] at inside
    rw [all]
    exact mem_commandsOf.mpr
      (unwelcomed_append_welcome c.down frames isWelcome (mem_commandsOf.mp inside))

/-- A frame other than a welcome is handled. -/
theorem Met.pop {c : Socket} (met : Met c) {frame : CoordinatorToHost}
    {rest : List CoordinatorToHost} (down : c.down = frame :: rest)
    (other : frame.isWelcome = false) : Met { c with down := rest } := by
  have tail : unwelcomed c.down = frame :: unwelcomed rest := by
    rw [down, unwelcomed_cons, other]
    rfl
  refine ⟨fun q inside => met.early q ?_, fun greeted cut => ?_⟩
  · rw [tail]
    exact mem_commandsOf.mpr (List.mem_cons_of_mem _ (mem_commandsOf.mp inside))
  · obtain ⟨welcome, inside, isWelcome⟩ := met.promised greeted cut
    rw [down] at inside
    rcases List.mem_cons.mp inside with rfl | inside
    · simp [other] at isWelcome
    · exact ⟨welcome, inside, isWelcome⟩

/-- A host knows at most the one coordinator, and before its welcome has applied nothing. -/
structure Acquainted (K : Uuid) (a : HostAgent) : Prop where
  coordinator : a.coordinatorInstanceId = none ∨ a.coordinatorInstanceId = some K
  untouched : a.coordinatorInstanceId = none → a.appliedCommandSeq = 0 ∧ a.applied = []

namespace Handled

variable {K : Uuid} {a : HostAgent} {frame : CoordinatorToHost}
  {r : HostAgent × List HostToCoordinator}

theorem acquainted (handled : Handled a frame r) (known : Acquainted K a)
    (fromK : ∀ {i e received}, frame = .welcome i e received → i = K)
    (early : a.coordinatorInstanceId = none → ∀ q, frame = .command q → q.seq ≠ 1) :
    Acquainted K r.1 := by
  cases handled with
  | calm _ _ reaction =>
    refine ⟨?_, ?_⟩
    · rw [reaction.coordinatorInstanceId]
      exact known.coordinator
    · rw [reaction.coordinatorInstanceId, reaction.appliedCommandSeq, reaction.applied]
      exact known.untouched
  | closed _ _ _ _ coordinator counter applied =>
    refine ⟨?_, ?_⟩
    · rw [coordinator]
      exact known.coordinator
    · rw [coordinator, counter, applied]
      exact known.untouched
  | welcomed i e received isWelcome _ _ _ coordinator =>
    refine ⟨.inr ?_, ?_⟩
    · rw [coordinator, fromK isWelcome]
    · simp [coordinator]
  | repeated _ _ _ reaction => exact reaction ▸ known
  | ignored _ _ _ reaction => exact reaction ▸ known
  | applied q isCommand next _ _ _ coordinator =>
    refine ⟨?_, fun unwelcomed => ?_⟩
    · rw [coordinator]
      exact known.coordinator
    · rw [coordinator] at unwelcomed
      have notFirst := early unwelcomed q isCommand
      rw [next, (known.untouched unwelcomed).1] at notFirst
      exact absurd rfl notFirst

/-- A host that still waits for its welcome on a socket has not been given it. -/
theorem unwelcome (handled : Handled a frame r) {s : Nat} (held : r.1.socket = some s)
    (unwelcomed : r.1.coordinatorInstanceId = none) :
    a.coordinatorInstanceId = none ∧ frame.isWelcome = false := by
  cases handled with
  | calm other _ reaction => exact ⟨reaction.coordinatorInstanceId ▸ unwelcomed, other⟩
  | closed _ closed => simp [closed] at held
  | welcomed _ _ _ _ _ _ _ coordinator => simp [coordinator] at unwelcomed
  | repeated _ isCommand _ reaction =>
    subst reaction
    exact ⟨unwelcomed, isCommand ▸ rfl⟩
  | ignored _ isCommand _ reaction =>
    subst reaction
    exact ⟨unwelcomed, isCommand ▸ rfl⟩
  | applied _ isCommand _ _ _ _ coordinator =>
    exact ⟨coordinator ▸ unwelcomed, isCommand ▸ rfl⟩

end Handled

theorem AgentCalm.acquainted {K : Uuid} {a : HostAgent} {r : HostAgent × List HostToCoordinator}
    (calm : AgentCalm a r) (known : Acquainted K a) : Acquainted K r.1 := by
  refine ⟨?_, ?_⟩
  · rw [calm.coordinatorInstanceId]
    exact known.coordinator
  · rw [calm.coordinatorInstanceId, calm.appliedCommandSeq, calm.applied]
    exact known.untouched

structure Introduced (K : Uuid) (w : World) : Prop where
  own : w.manager.instanceId = K
  known : ∀ h, Acquainted K (w.agents h)
  welcomes : ∀ {s i e received}, .welcome i e received ∈ (w.sockets s).down → i = K
  met : ∀ {h s}, (w.agents h).socket = some s → (w.agents h).coordinatorInstanceId = none →
    Met (w.sockets s)

namespace Introduced

variable {K : Uuid} {w w' : World}

theorem init : Introduced K (hostLink K).start :=
  ⟨rfl, fun _ => ⟨.inl rfl, fun _ => ⟨rfl, rfl⟩⟩, by simp [hostLink], fun held => nomatch held⟩

theorem setAgent (introduced : Introduced K w) {h : Uuid} {a : HostAgent} (known : Acquainted K a)
    (met : ∀ {s}, a.socket = some s → a.coordinatorInstanceId = none → Met (w.sockets s)) :
    Introduced K { w with agents := Function.update w.agents h a } := by
  refine ⟨introduced.own, fun k => ?_, introduced.welcomes, fun {k s} => ?_⟩
  · by_cases same : k = h
    · subst same
      simpa using known
    · simpa [same] using introduced.known k
  · by_cases same : k = h
    · subst same
      simpa using met
    · simpa [same] using introduced.met

theorem onSocket (introduced : Introduced K w) {s : SocketId} {f : Socket → Socket}
    (down : (f (w.sockets s)).down ⊆ (w.sockets s).down)
    (met : ∀ {h}, (w.agents h).socket = some s → (w.agents h).coordinatorInstanceId = none →
      Met (w.sockets s) → Met (f (w.sockets s))) : Introduced K (w.onSocket s f) := by
  refine ⟨introduced.own, introduced.known, fun {t i e received} => ?_, fun {h t} held none => ?_⟩
  · rw [World.sockets_onSocket]
    split
    · exact fun inside => introduced.welcomes (down inside)
    · exact introduced.welcomes
  · rw [World.sockets_onSocket]
    split
    · rename_i same
      subst same
      exact met held none (introduced.met held none)
    · exact introduced.met held none

theorem reply_of_others {h : Uuid} {r : HostAgent × List HostToCoordinator}
    (own : w.manager.instanceId = K) (known : ∀ k, Acquainted K (if k = h then r.1 else w.agents k))
    (welcomes : ∀ {s i e received}, .welcome i e received ∈ (w.sockets s).down → i = K)
    (met : ∀ {s}, r.1.socket = some s → r.1.coordinatorInstanceId = none → Met (w.sockets s))
    (others : ∀ {k s}, k ≠ h → (w.agents k).socket = some s →
      (w.agents k).coordinatorInstanceId = none → Met (w.sockets s)) :
    Introduced K (w.reply h r) := by
  refine ⟨by simpa using own, fun k => ?_, fun {t i e received} => ?_, fun {k t} held none => ?_⟩
  · rw [World.agents_reply, Function.update_apply]
    exact known k
  · rw [w.sockets_reply_field h r Socket.down t rfl]
    exact welcomes
  · rw [World.agents_reply, Function.update_apply] at held none
    have before : Met (w.sockets t) := by
      split at held
      · exact met held (by simpa [*] using none)
      · exact others ‹_› held (by simpa [*] using none)
    exact before.congr (w.sockets_reply_field h r Socket.down t rfl)
      (w.sockets_reply_field h r Socket.greeted t rfl)
      (w.sockets_reply_field h r Socket.downCut t rfl)

theorem reply (introduced : Introduced K w) {h : Uuid} {r : HostAgent × List HostToCoordinator}
    (known : Acquainted K r.1)
    (met : ∀ {s}, r.1.socket = some s → r.1.coordinatorInstanceId = none → Met (w.sockets s)) :
    Introduced K (w.reply h r) := by
  refine reply_of_others introduced.own (fun k => ?_) introduced.welcomes met
    fun _ => introduced.met
  split
  · exact known
  · exact introduced.known k

theorem react (introduced : Introduced K w) {r : HostLinkManager × List CoordinatorToHost}
    (instanceId : r.1.instanceId = w.manager.instanceId)
    (welcomes : ∀ {i e received}, .welcome i e received ∈ r.2 → i = K)
    (met : ∀ {h s}, w.manager.link.socket = some s → (w.agents h).socket = some s →
      (w.agents h).coordinatorInstanceId = none → Met ((w.sockets s).pushDown r.2)) :
    Introduced K (w.react r) := by
  refine ⟨by simpa using instanceId.trans introduced.own, by simpa using introduced.known,
    fun {t i e received} => ?_, fun {h t} holds none => ?_⟩
  · refine w.sockets_react_cases r
      (P := fun c => .welcome i e received ∈ c.down → i = K) t (fun _ inside => ?_)
      introduced.welcomes
    simp only [Socket.pushDown] at inside
    split at inside
    · exact introduced.welcomes inside
    · rcases List.mem_append.mp inside with old | new
      · exact introduced.welcomes old
      · exact welcomes new
  · rw [World.agents_react] at holds none
    exact w.sockets_react_cases r t (fun held => met held holds none)
      (introduced.met holds none)

theorem react_calm (introduced : Introduced K w) {acks : Nat → Prop}
    {r : HostLinkManager × List CoordinatorToHost} (calm : Calm acks w.manager r)
    (patient : ∀ {h s}, w.manager.link.socket = some s → (w.agents h).socket = some s →
      (w.agents h).coordinatorInstanceId = none → (w.sockets s).greeted = false →
        ∀ q ∈ commandsOf r.2, q.seq ≠ 1) : Introduced K (w.react r) := by
  refine introduced.react calm.instanceId ?_ ?_
  · intro i e received inside
    exact absurd (calm.unwelcoming _ inside) (by simp [CoordinatorToHost.isWelcome])
  · intro h s held holds none
    exact (introduced.met holds none).pushDown calm.unwelcoming (patient held holds none)

theorem step (introduced : Introduced K w) (wired : Wired w) {action : Action}
    (patient : w.patient action = true) (taken : Taken w action w') : Introduced K w' := by
  have same : ∀ {h} {a : HostAgent},
      a.coordinatorInstanceId = (w.agents h).coordinatorInstanceId →
      a.appliedCommandSeq = (w.agents h).appliedCommandSeq →
      a.applied = (w.agents h).applied → Acquainted K a := by
    intro h a coordinator counter applied
    refine ⟨?_, ?_⟩
    · rw [coordinator]
      exact (introduced.known h).coordinator
    · rw [coordinator, counter, applied]
      exact (introduced.known h).untouched
  cases taken with
  | @dial h s _ unheld =>
    have reset : Introduced K (w.onSocket s fun _ => { host := h, dialed := true }) :=
      introduced.onSocket (List.nil_subset _) fun _ _ _ => .fresh rfl rfl
    refine reset.setAgent (same (h := h) rfl rfl rfl) fun {t} held _ => ?_
    obtain rfl : s = t := by simpa [HostAgent.connect] using held
    exact .fresh (by simp [World.sockets_onSocket]) (by simp [World.sockets_onSocket])
  | @accept s =>
    have accepted := introduced.onSocket (s := s) (f := fun c => { c with attached := true })
      (List.Subset.refl _) fun _ _ met => met.congr rfl rfl rfl
    exact ⟨introduced.own, accepted.known, accepted.welcomes, accepted.met⟩
  | @socketOpens h s holds =>
    have opened := introduced.onSocket (s := s) (f := fun c => { c with opened := true })
      (List.Subset.refl _) fun _ _ met => met.congr rfl rfl rfl
    exact opened.reply (same (h := h) rfl rfl rfl) fun held none => opened.met held none
  | @hangUp h => exact introduced.setAgent (same (h := h) rfl rfl rfl) fun held => by cases held
  | @detach s =>
    refine ⟨?_, introduced.known, introduced.welcomes, introduced.met⟩
    unfold HostLinkManager.detach
    split <;> exact introduced.own
  | loseUp =>
    exact introduced.onSocket (List.Subset.refl _) fun _ _ met => met.congr rfl rfl rfl
  | loseDown =>
    exact introduced.onSocket (List.take_sublist _ _).subset fun _ _ met => met.take _
  | ignoredUp =>
    exact introduced.onSocket (List.Subset.refl _) fun _ _ met => met.congr rfl rfl rfl
  | @hello s hello rest held ungreeted up speaks =>
    have popped := introduced.onSocket (s := s) (f := fun c => { c with up := rest })
      (List.Subset.refl _) fun _ _ met => met.congr rfl rfl rfl
    have greets := HostLinkManager.handleHello_greets w.manager speaks
    obtain ⟨received, update, greeting⟩ := greets.sent
    refine popped.react greets.instanceId ?_ ?_
    · intro i e received' inside
      rw [greeting.frames] at inside
      rcases List.mem_cons.mp inside with eq | inside
      · obtain ⟨rfl, -⟩ := CoordinatorToHost.welcome.inj eq
        exact greets.instanceId.trans introduced.own
      · rcases List.mem_append.mp inside with inside | inside
        · simp at inside
        · exact absurd (greeting.unwelcoming _ inside) (by simp [CoordinatorToHost.isWelcome])
    · intro h t holds agentHolds none
      obtain rfl : s = t := Option.some.inj (held.symm.trans holds)
      rw [greeting.frames]
      refine (popped.met agentHolds none).greet ?_ rfl _
      simpa [World.sockets_onSocket] using wired.solicited ungreeted
  | @message s frame rest held isGreeted up notHello =>
    have popped := introduced.onSocket (s := s) (f := fun c => { c with up := rest })
      (List.Subset.refl _) fun _ _ met => met.congr rfl rfl rfl
    refine popped.react_calm (HostLinkManager.handleMessage_calm w.manager s notHello) ?_
    intro h t holds _ _ ungreeted
    obtain rfl : s = t := Option.some.inj (held.symm.trans holds)
    simp [World.sockets_onSocket, isGreeted] at ungreeted
  | @ignoredDown s start frame rest unheld down =>
    refine introduced.onSocket (by simp [down]) fun held _ _ => ?_
    exact absurd ((wired.owner held).1 ▸ held) unheld
  | @handled s start frame rest held isOpen down =>
    have handled := HostAgent.handleMessage_handled (w.agents (w.sockets s).host) start frame
    have known := handled.acquainted (introduced.known _)
      (fun {i e received} eq => introduced.welcomes (s := s)
        (by rw [down, eq]; exact List.mem_cons_self))
      fun none q eq => (introduced.met held none).early q (by simp [down, eq, unwelcomed_cons,
        CoordinatorToHost.isWelcome])
    refine reply_of_others introduced.own (fun k => ?_) (fun {t i e received} => ?_)
      (fun {t} kept none => ?_) fun {k t} other holds none => ?_
    · split
      · exact known
      · exact introduced.known k
    · rw [World.sockets_onSocket]
      split
      · exact fun inside => introduced.welcomes (s := s)
          (by rw [down]; exact List.mem_cons_of_mem _ inside)
      · exact introduced.welcomes
    · obtain rfl : s = t := Option.some.inj (held.symm.trans (handled.socket kept).1)
      obtain ⟨before, notWelcome⟩ := handled.unwelcome kept none
      simpa [World.sockets_onSocket] using (introduced.met held before).pop down notWelcome
    · have elsewhere : t ≠ s := by
        rintro rfl
        exact other (wired.owner holds).1.symm
      rw [World.sockets_onSocket, if_neg elsewhere]
      exact introduced.met holds none
  | @coordinator action r done =>
    refine introduced.react_calm (HostLinkManager.act_calm done) ?_
    intro h s held holds none ungreeted q sent first
    have sends := HostLinkManager.sendsFirst_of_sent done sent first
    have unmet : w.stranger = true := by
      simp [World.stranger, held, ungreeted, (wired.owner holds).1, none]
    simp [World.patient, unmet, sends] at patient
  | @host h action =>
    have calm := HostAgent.act_calm (w.agents h) action
    refine introduced.reply (calm.acquainted (introduced.known h)) fun held none => ?_
    exact introduced.met (calm.socket ▸ held) (calm.coordinatorInstanceId ▸ none)

end Introduced

end Takode.RemoteHost
