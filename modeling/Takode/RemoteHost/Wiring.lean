import Takode.RemoteHost.Reactions

/-!
# Who holds which socket

The facts about sockets that hold in every run, before any command or event is
considered: a host says `hello` first and once on a socket, the coordinator
welcomes only a socket that it holds, and the newest socket of a connected host
is the one the coordinator holds.
-/

namespace Takode.RemoteHost

/-- The frames on a socket whose `hello` is not handled yet. -/
def Awaiting (h : Uuid) (up : List HostToCoordinator) : Prop :=
  up = [] ∨ ∃ hello rest, up = .hello hello :: rest ∧ hello.protocol = hostProtocolVersion ∧
    hello.instanceId = h ∧ ∀ frame ∈ rest, frame.isHello = false

theorem Awaiting.append {h : Uuid} {up frames : List HostToCoordinator} (awaiting : Awaiting h up)
    (said : up ≠ []) (plain : ∀ frame ∈ frames, frame.isHello = false) :
    Awaiting h (up ++ frames) := by
  rcases awaiting with rfl | ⟨hello, rest, rfl, speaks, own, later⟩
  · exact absurd rfl said
  · refine .inr ⟨hello, rest ++ frames, rfl, speaks, own, ?_⟩
    intro frame inside
    rcases List.mem_append.mp inside with inside | inside
    · exact later frame inside
    · exact plain frame inside

theorem Awaiting.take {h : Uuid} {up : List HostToCoordinator} (awaiting : Awaiting h up)
    (n : Nat) : Awaiting h (up.take n) := by
  cases n with
  | zero => exact .inl (by simp)
  | succ n =>
    rcases awaiting with rfl | ⟨hello, rest, rfl, speaks, own, later⟩
    · exact .inl (by simp)
    · exact .inr ⟨hello, rest.take n, rfl, speaks, own, fun frame inside =>
        later frame (List.mem_of_mem_take inside)⟩

structure Wired (w : World) : Prop where
  agentId : ∀ h, (w.agents h).instanceId = h
  owner : ∀ {h s}, (w.agents h).socket = some s →
    (w.sockets s).host = h ∧ (w.sockets s).dialed = true
  opened : ∀ {h s}, (w.agents h).socket = some s → (w.agents h).socketOpen = true →
    (w.sockets s).opened = true
  linked : ∀ {s}, w.manager.link.socket = some s → (w.sockets s).attached = true
  dialed : ∀ {s}, (w.sockets s).attached = true → (w.sockets s).dialed = true
  fresh : ∀ {s}, (w.sockets s).attached = false →
    (w.sockets s).down = [] ∧ (w.sockets s).opened = false
  unopened : ∀ {s}, (w.sockets s).opened = false →
    (w.sockets s).up = [] ∧ (w.sockets s).greeted = false
  solicited : ∀ {s}, (w.sockets s).greeted = false →
    ∀ frame ∈ (w.sockets s).down, frame.isWelcome = false
  awaiting : ∀ {s}, w.manager.link.socket = some s → (w.sockets s).greeted = false →
    Awaiting (w.sockets s).host (w.sockets s).up ∧
      ((w.sockets s).opened = true → (w.sockets s).up = [] → (w.sockets s).upCut = true)
  greeted : ∀ {s}, w.manager.link.socket = some s → (w.sockets s).greeted = true →
    w.manager.link.online = true ∧ w.manager.link.hostInstanceId = some (w.sockets s).host ∧
      ∀ frame ∈ (w.sockets s).up, frame.isHello = false
  newest : ∀ {s s'}, w.manager.link.socket = some s → (w.sockets s).opened = true →
    (w.agents (w.sockets s).host).socket = some s' → s' = s ∨ (w.sockets s').attached = false

namespace Wired

variable {w : World}

theorem init (instanceId : Uuid) : Wired (hostLink instanceId).start where
  agentId _ := rfl
  owner held := nomatch held
  opened held := nomatch held
  linked held := nomatch held
  dialed isAttached := nomatch isAttached
  fresh _ := ⟨rfl, rfl⟩
  unopened _ := ⟨rfl, rfl⟩
  solicited _ := by simp [hostLink]
  awaiting held := nomatch held
  greeted held := nomatch held
  newest held := nomatch held

theorem unattached (wired : Wired w) {s : SocketId} (unheld : (w.sockets s).dialed = false) :
    (w.sockets s).attached = false := by
  cases isAttached : (w.sockets s).attached with
  | false => rfl
  | true => exact absurd (wired.dialed isAttached) (by simp [unheld])

theorem dial (wired : Wired w) {h : Uuid} {s : SocketId} (unheld : (w.sockets s).dialed = false) :
    Wired { (w.onSocket s fun _ => { host := h, dialed := true }) with
      agents := Function.update w.agents h ((w.agents h).connect s) } := by
  have linkElsewhere : ∀ {t}, w.manager.link.socket = some t → t ≠ s := by
    rintro t held rfl
    simp [wired.dialed (wired.linked held)] at unheld
  have elsewhere : ∀ {k t}, (w.agents k).socket = some t → t ≠ s := by
    rintro k t held rfl
    simp [(wired.owner held).2] at unheld
  constructor
  all_goals simp only [World.sockets_onSocket, World.manager_onSocket]
  case agentId =>
    intro k
    by_cases same : k = h
    · subst same
      simpa [HostAgent.connect] using wired.agentId k
    · simpa [same] using wired.agentId k
  case owner =>
    intro k t held
    by_cases same : k = h
    · subst same
      have eq : s = t := by simpa [HostAgent.connect] using held
      simp [eq]
    · rw [Function.update_of_ne same] at held
      rw [if_neg (elsewhere held)]
      exact wired.owner held
  case opened =>
    intro k t held isOpen
    by_cases same : k = h
    · subst same
      simp [HostAgent.connect] at isOpen
    · rw [Function.update_of_ne same] at held isOpen
      rw [if_neg (elsewhere held)]
      exact wired.opened held isOpen
  case linked =>
    intro t held
    rw [if_neg (linkElsewhere held)]
    exact wired.linked held
  case dialed =>
    intro t
    split
    · simp
    · exact wired.dialed
  case fresh =>
    intro t
    split
    · simp
    · exact wired.fresh
  case unopened =>
    intro t
    split
    · simp
    · exact wired.unopened
  case solicited =>
    intro t
    split
    · simp
    · exact wired.solicited
  case awaiting =>
    intro t held
    rw [if_neg (linkElsewhere held)]
    exact wired.awaiting held
  case greeted =>
    intro t held
    rw [if_neg (linkElsewhere held)]
    exact wired.greeted held
  case newest =>
    intro t t' held isOpen agentHolds
    rw [if_neg (linkElsewhere held)] at isOpen agentHolds
    by_cases same : (w.sockets t).host = h
    · have eq : s = t' := by simpa [same, HostAgent.connect] using agentHolds
      simp [← eq]
    · rw [Function.update_of_ne same] at agentHolds
      rw [if_neg (elsewhere agentHolds)]
      exact wired.newest held isOpen agentHolds

theorem accept (wired : Wired w) {s : SocketId} (isDialed : (w.sockets s).dialed = true)
    (unheld : (w.sockets s).attached = false) :
    Wired { (w.onSocket s fun c => { c with attached := true }) with
      manager := w.manager.attach s } := by
  obtain ⟨noDown, notOpen⟩ := wired.fresh unheld
  obtain ⟨noUp, ungreeted⟩ := wired.unopened notOpen
  have held : ∀ {t}, (w.manager.attach s).link.socket = some t → t = s := by
    intro t eq
    exact (Option.some.inj eq).symm
  constructor
  all_goals simp only [World.sockets_onSocket, World.agents_onSocket]
  case agentId => exact wired.agentId
  case owner =>
    intro k t agentHolds
    have := wired.owner agentHolds
    split
    · rename_i same
      exact same ▸ this
    · exact this
  case opened =>
    intro k t agentHolds isOpen
    have := wired.opened agentHolds isOpen
    split
    · rename_i same
      exact same ▸ this
    · exact this
  case linked =>
    intro t eq
    simp [held eq]
  case dialed =>
    intro t
    split
    · exact fun _ => isDialed
    · exact wired.dialed
  case fresh =>
    intro t
    split
    · simp
    · exact wired.fresh
  case unopened =>
    intro t
    split
    · exact fun _ => ⟨noUp, ungreeted⟩
    · exact wired.unopened
  case solicited =>
    intro t
    split
    · simp [noDown]
    · exact wired.solicited
  case awaiting =>
    intro t eq
    simp [held eq, noUp, notOpen, Awaiting]
  case greeted =>
    intro t eq
    simp [held eq, ungreeted]
  case newest =>
    intro t t' eq isOpen
    simp [held eq, notOpen] at isOpen

theorem socketOpens (wired : Wired w) {h : Uuid} {s : SocketId}
    (agentHolds : (w.agents h).socket = some s) (isAttached : (w.sockets s).attached = true)
    (notOpen : (w.sockets s).opened = false) :
    Wired ((w.onSocket s fun c => { c with opened := true }).reply h (w.agents h).onOpen) := by
  obtain ⟨own, isDialed⟩ := wired.owner agentHolds
  obtain ⟨noUp, ungreeted⟩ := wired.unopened notOpen
  have socket : ((w.agents h).onOpen).1.socket = some s := agentHolds
  have isOpen : ((w.agents h).onOpen).1.socketOpen = true := rfl
  have reached : ∀ t, (((w.onSocket s fun c => { c with opened := true }).reply h
      (w.agents h).onOpen)).sockets t =
        if t = s then { w.sockets s with opened := true }.pushUp (w.agents h).onOpen.2
        else w.sockets t := by
    intro t
    rw [World.sockets_reply, World.sockets_onSocket, socket, isOpen]
    by_cases same : t = s
    · subst same
      simp
    · simp [same, Ne.symm same]
  have said : Awaiting (w.sockets s).host
      ({ w.sockets s with opened := true }.pushUp (w.agents h).onOpen.2).up := by
    simp only [Socket.pushUp, noUp, List.nil_append, own]
    split
    · exact .inl rfl
    · exact .inr ⟨_, [], rfl, rfl, wired.agentId h, by simp⟩
  constructor
  all_goals simp only [reached, World.manager_reply, World.agents_reply, World.manager_onSocket,
    World.agents_onSocket]
  case agentId =>
    intro k
    by_cases same : k = h
    · subst same
      simpa [HostAgent.onOpen] using wired.agentId k
    · simpa [same] using wired.agentId k
  case owner =>
    intro k t holds
    have before : (w.agents k).socket = some t := by
      by_cases same : k = h
      · subst same
        simpa [HostAgent.onOpen] using holds
      · simpa [same] using holds
    have := wired.owner before
    split
    · rename_i same
      exact same ▸ this
    · exact this
  case opened =>
    intro k t holds open'
    by_cases same : k = h
    · subst same
      have eq : s = t := by
        simpa [HostAgent.onOpen, agentHolds] using holds
      simp [← eq, Socket.pushUp]
    · rw [Function.update_of_ne same] at holds open'
      split
      · rfl
      · exact wired.opened holds open'
  case linked =>
    intro t eq
    have := wired.linked eq
    split
    · exact isAttached
    · exact this
  case dialed =>
    intro t
    split
    · exact fun _ => isDialed
    · exact wired.dialed
  case fresh =>
    intro t
    split
    · simp [Socket.pushUp, isAttached]
    · exact wired.fresh
  case unopened =>
    intro t
    split
    · simp [Socket.pushUp]
    · exact wired.unopened
  case solicited =>
    intro t
    split
    · exact wired.solicited
    · exact wired.solicited
  case awaiting =>
    intro t eq
    split
    · rename_i same
      subst same
      intro _
      refine ⟨said, fun _ empty => ?_⟩
      cases cut : (w.sockets t).upCut with
      | true => rfl
      | false => simp [Socket.pushUp, cut, HostAgent.onOpen] at empty
    · exact wired.awaiting eq
  case greeted =>
    intro t eq
    split
    · rename_i same
      subst same
      intro isGreeted
      exact absurd isGreeted (by simp [Socket.pushUp, ungreeted])
    · exact wired.greeted eq
  case newest =>
    intro t t' eq isOpen holds
    by_cases same : t = s
    · subst same
      have eq' : t = t' := by
        simpa [Socket.pushUp, own, HostAgent.onOpen, agentHolds] using holds
      exact .inl eq'.symm
    · rw [if_neg same] at isOpen holds
      by_cases dialer : (w.sockets t).host = h
      · -- the host dialed `s` after `t`, so `t` would not be the newest attached socket
        rcases wired.newest eq isOpen (dialer ▸ agentHolds) with newer | unheld
        · exact absurd newer.symm same
        · exact absurd isAttached (by simp [unheld])
      · rw [Function.update_of_ne dialer] at holds
        rcases wired.newest eq isOpen holds with newer | unheld
        · exact .inl newer
        · right
          split
          · rename_i here
            exact absurd isAttached (by simp [← here, unheld])
          · exact unheld

end Wired

/-- From `w` to `w'` nothing is dialed, accepted or opened; a side may give up its socket. -/
structure Kept (w w' : World) : Prop where
  instanceId : ∀ h, (w'.agents h).instanceId = (w.agents h).instanceId
  agent : ∀ {h s}, (w'.agents h).socket = some s →
    (w.agents h).socket = some s ∧ (w'.agents h).socketOpen = (w.agents h).socketOpen
  link : ∀ {s}, w'.manager.link.socket = some s → w.manager.link.socket = some s
  host : ∀ s, (w'.sockets s).host = (w.sockets s).host
  dialed : ∀ s, (w'.sockets s).dialed = (w.sockets s).dialed
  attached : ∀ s, (w'.sockets s).attached = (w.sockets s).attached
  opened : ∀ s, (w'.sockets s).opened = (w.sockets s).opened
  unattached : ∀ {s}, (w.sockets s).attached = false → (w.sockets s).down = [] →
    (w'.sockets s).down = []
  unopened : ∀ {s}, (w.sockets s).opened = false → (w.sockets s).up = [] →
    (w.sockets s).greeted = false → (w'.sockets s).up = [] ∧ (w'.sockets s).greeted = false

namespace Wired

variable {w w' : World}

theorem evolve (wired : Wired w) (kept : Kept w w')
    (solicited : ∀ {s}, (w'.sockets s).greeted = false →
      ∀ frame ∈ (w'.sockets s).down, frame.isWelcome = false)
    (awaiting : ∀ {s}, w'.manager.link.socket = some s → (w'.sockets s).greeted = false →
      Awaiting (w.sockets s).host (w'.sockets s).up ∧
        ((w.sockets s).opened = true → (w'.sockets s).up = [] → (w'.sockets s).upCut = true))
    (greeted : ∀ {s}, w'.manager.link.socket = some s → (w'.sockets s).greeted = true →
      w'.manager.link.online = true ∧
        w'.manager.link.hostInstanceId = some (w.sockets s).host ∧
        ∀ frame ∈ (w'.sockets s).up, frame.isHello = false) :
    Wired w' where
  agentId h := (kept.instanceId h).trans (wired.agentId h)
  owner held := by
    rw [kept.host, kept.dialed]
    exact wired.owner (kept.agent held).1
  opened held isOpen := by
    rw [kept.opened]
    exact wired.opened (kept.agent held).1 ((kept.agent held).2 ▸ isOpen)
  linked held := by
    rw [kept.attached]
    exact wired.linked (kept.link held)
  dialed {s} := by
    rw [kept.attached, kept.dialed]
    exact wired.dialed
  fresh {s} := by
    rw [kept.attached, kept.opened]
    intro unheld
    obtain ⟨noDown, notOpen⟩ := wired.fresh unheld
    exact ⟨kept.unattached unheld noDown, notOpen⟩
  unopened {s} := by
    rw [kept.opened]
    intro notOpen
    obtain ⟨noUp, ungreeted⟩ := wired.unopened notOpen
    exact kept.unopened notOpen noUp ungreeted
  solicited := solicited
  awaiting {s} held ungreeted := by
    rw [kept.host, kept.opened]
    exact awaiting held ungreeted
  greeted {s} held isGreeted := by
    rw [kept.host]
    exact greeted held isGreeted
  newest {s s'} held isOpen agentHolds := by
    rw [kept.opened] at isOpen
    rw [kept.host] at agentHolds
    rw [kept.attached]
    exact wired.newest (kept.link held) isOpen (kept.agent agentHolds).1

theorem hangUp (wired : Wired w) (h : Uuid) :
    Wired { w with agents := Function.update w.agents h (w.agents h).onClose } := by
  refine wired.evolve ⟨?_, ?_, id, fun _ => rfl, fun _ => rfl, fun _ => rfl, fun _ => rfl,
    fun _ => id, fun _ noUp ungreeted => ⟨noUp, ungreeted⟩⟩ wired.solicited wired.awaiting
    wired.greeted
  · intro k
    by_cases same : k = h
    · subst same
      simp [HostAgent.onClose]
    · simp [same]
  · intro k s held
    by_cases same : k = h
    · subst same
      simp [HostAgent.onClose] at held
    · simpa [same] using held

theorem detach (wired : Wired w) (s : SocketId) :
    Wired { w with manager := w.manager.detach s } := by
  unfold HostLinkManager.detach
  split
  · exact wired.evolve ⟨fun _ => rfl, fun held => ⟨held, rfl⟩, (fun held => nomatch held),
      fun _ => rfl, fun _ => rfl, fun _ => rfl, fun _ => rfl, fun _ => id,
      fun _ noUp ungreeted => ⟨noUp, ungreeted⟩⟩ wired.solicited (fun held => nomatch held)
      (fun held => nomatch held)
  · exact wired

/-- Frames of a socket are lost, or handled by a side that ignores them. -/
theorem shrink (wired : Wired w) {s : SocketId} {f : Socket → Socket}
    (host : (f (w.sockets s)).host = (w.sockets s).host)
    (dialed : (f (w.sockets s)).dialed = (w.sockets s).dialed)
    (attached : (f (w.sockets s)).attached = (w.sockets s).attached)
    (opened : (f (w.sockets s)).opened = (w.sockets s).opened)
    (greeted : (f (w.sockets s)).greeted = (w.sockets s).greeted)
    (down : (f (w.sockets s)).down.Sublist (w.sockets s).down)
    (up : (f (w.sockets s)).up.Sublist (w.sockets s).up)
    (awaiting : w.manager.link.socket = some s → (w.sockets s).greeted = false →
      Awaiting (w.sockets s).host (f (w.sockets s)).up ∧
        ((w.sockets s).opened = true → (f (w.sockets s)).up = [] →
          (f (w.sockets s)).upCut = true)) :
    Wired (w.onSocket s f) := by
  have pick : ∀ (P : Socket → Prop) (t : SocketId), (t = s → P (f (w.sockets s))) →
      (t ≠ s → P (w.sockets t)) → P ((w.onSocket s f).sockets t) := by
    intro P t here there
    rw [World.sockets_onSocket]
    split
    · exact here ‹_›
    · exact there ‹_›
  refine wired.evolve ⟨fun _ => rfl, fun held => ⟨held, rfl⟩, id, ?_, ?_, ?_, ?_, ?_, ?_⟩
    ?_ ?_ ?_
  · exact fun t => pick (·.host = _) t (fun same => same ▸ host) fun _ => rfl
  · exact fun t => pick (·.dialed = _) t (fun same => same ▸ dialed) fun _ => rfl
  · exact fun t => pick (·.attached = _) t (fun same => same ▸ attached) fun _ => rfl
  · exact fun t => pick (·.opened = _) t (fun same => same ▸ opened) fun _ => rfl
  · intro t _ empty
    refine pick (·.down = []) t (fun same => ?_) fun _ => empty
    subst same
    exact List.sublist_nil.mp (empty ▸ down)
  · intro t _ empty ungreeted
    refine pick (fun c => c.up = [] ∧ c.greeted = false) t (fun same => ?_)
      fun _ => ⟨empty, ungreeted⟩
    subst same
    exact ⟨List.sublist_nil.mp (empty ▸ up), greeted.trans ungreeted⟩
  · intro t
    refine pick (fun c => c.greeted = false → ∀ frame ∈ c.down, frame.isWelcome = false) t
      (fun same ungreeted frame inside => ?_) fun _ => wired.solicited
    exact wired.solicited (greeted ▸ ungreeted) frame (down.subset inside)
  · intro t held
    refine pick (fun c => c.greeted = false → Awaiting (w.sockets t).host c.up ∧
      ((w.sockets t).opened = true → c.up = [] → c.upCut = true)) t
      (fun same ungreeted => ?_) fun _ => wired.awaiting held
    subst same
    exact awaiting held (greeted ▸ ungreeted)
  · intro t held
    refine pick (fun c => c.greeted = true → w.manager.link.online = true ∧
      w.manager.link.hostInstanceId = some (w.sockets t).host ∧
        ∀ frame ∈ c.up, frame.isHello = false) t
      (fun same isGreeted => ?_) fun _ => wired.greeted held
    subst same
    obtain ⟨online, current, noHello⟩ := wired.greeted held (greeted ▸ isGreeted)
    exact ⟨online, current, fun frame inside => noHello frame (up.subset inside)⟩

/-- The coordinator reacts otherwise than to a `hello`. -/
theorem react (wired : Wired w) {acks : Nat → Prop}
    {r : HostLinkManager × List CoordinatorToHost} (calm : Calm acks w.manager r) :
    Wired (w.react r) := by
  have quiet : r.2.any CoordinatorToHost.isWelcome = false := by
    simpa using calm.unwelcoming
  have pick := fun (P : Socket → Prop) => w.sockets_react_cases r (P := P)
  have unchanged := fun {α : Type} (field : Socket → α) => w.sockets_react_field r field
  have greetedSame : ∀ t, ((w.sockets t).pushDown r.2).greeted = (w.sockets t).greeted := by
    intro t
    simp [Socket.pushDown, quiet]
  refine wired.evolve ⟨by simp, by simp, by simp [calm.socket],
    fun t => unchanged Socket.host t rfl, fun t => unchanged Socket.dialed t rfl,
    fun t => unchanged Socket.attached t rfl, fun t => unchanged Socket.opened t rfl, ?_, ?_⟩
    ?_ ?_ ?_
  · intro t unheld empty
    refine pick (·.down = []) t (fun held => ?_) empty
    exact absurd (wired.linked held) (by simp [unheld])
  · intro t _ empty ungreeted
    exact ⟨(unchanged Socket.up t rfl).trans empty,
      (unchanged Socket.greeted t (greetedSame t)).trans ungreeted⟩
  · intro t ungreeted frame
    rw [unchanged Socket.greeted t (greetedSame t)] at ungreeted
    refine pick (fun c => frame ∈ c.down → frame.isWelcome = false) t (fun _ inside => ?_)
      (wired.solicited ungreeted frame)
    simp only [Socket.pushDown] at inside
    split at inside
    · exact wired.solicited ungreeted frame inside
    · rcases List.mem_append.mp inside with inside | inside
      · exact wired.solicited ungreeted frame inside
      · exact calm.unwelcoming frame inside
  · intro t held ungreeted
    rw [unchanged Socket.greeted t (greetedSame t)] at ungreeted
    rw [unchanged Socket.up t rfl, unchanged Socket.upCut t rfl]
    exact wired.awaiting (by simpa [calm.socket] using held) ungreeted
  · intro t held isGreeted
    rw [unchanged Socket.greeted t (greetedSame t)] at isGreeted
    rw [unchanged Socket.up t rfl, World.manager_react, calm.online, calm.hostInstanceId]
    exact wired.greeted (by simpa [calm.socket] using held) isGreeted

/-- The coordinator handles the `hello` of the socket it holds. -/
theorem hello (wired : Wired w) {s : SocketId} {hello : Hello} {rest : List HostToCoordinator}
    (held : w.manager.link.socket = some s) (ungreeted : (w.sockets s).greeted = false)
    (up : (w.sockets s).up = .hello hello :: rest) :
    Wired ((w.onSocket s fun c => { c with up := rest }).react (w.manager.handleHello hello)) := by
  obtain ⟨speaks, own, noHello⟩ : hello.protocol = hostProtocolVersion ∧
      hello.instanceId = (w.sockets s).host ∧ ∀ frame ∈ rest, frame.isHello = false := by
    rcases (wired.awaiting held ungreeted).1 with empty | ⟨first, later, eq, speaks, own, plain⟩
    · exact absurd up (by simp [empty])
    · rw [up] at eq
      obtain ⟨rfl, rfl⟩ : hello = first ∧ rest = later := by simpa using eq
      exact ⟨speaks, own, plain⟩
  have greets := HostLinkManager.handleHello_greets w.manager speaks
  obtain ⟨received, update, greeting⟩ := greets.sent
  have welcomed : (w.manager.handleHello hello).2.any CoordinatorToHost.isWelcome = true := by
    rw [greeting.frames]
    rfl
  have sockets : ∀ t, ((w.onSocket s fun c => { c with up := rest }).react
      (w.manager.handleHello hello)).sockets t =
        if t = s then { w.sockets s with up := rest }.pushDown (w.manager.handleHello hello).2
        else w.sockets t := by
    intro t
    rw [World.sockets_react, World.sockets_onSocket, World.manager_onSocket, held]
    by_cases same : t = s
    · simp [same]
    · simp [same, Ne.symm same]
  have isOpen : (w.sockets s).opened = true := by
    cases opened : (w.sockets s).opened with
    | true => rfl
    | false => simp [(wired.unopened opened).1] at up
  have holds : ∀ {t}, (w.manager.handleHello hello).1.link.socket = some t → t = s := by
    intro t eq
    rw [greets.socket, held] at eq
    exact (Option.some.inj eq).symm
  refine wired.evolve ⟨by simp, by simp, by simp [greets.socket], ?_, ?_, ?_, ?_, ?_, ?_⟩
    ?_ ?_ ?_
  · intro t
    rw [sockets]
    split <;> simp_all [Socket.pushDown]
  · intro t
    rw [sockets]
    split <;> simp_all [Socket.pushDown]
  · intro t
    rw [sockets]
    split <;> simp_all [Socket.pushDown]
  · intro t
    rw [sockets]
    split <;> simp_all [Socket.pushDown]
  · intro t unheld empty
    have other : t ≠ s := by
      rintro rfl
      exact absurd (wired.linked held) (by simp [unheld])
    rwa [sockets, if_neg other]
  · intro t notOpen noUp before
    have other : t ≠ s := by
      rintro rfl
      simp [isOpen] at notOpen
    rw [sockets, if_neg other]
    exact ⟨noUp, before⟩
  · intro t
    rw [sockets]
    split
    · simp [Socket.pushDown, welcomed]
    · exact wired.solicited
  · intro t eq
    rw [World.manager_react] at eq
    rw [sockets, if_pos (holds eq)]
    simp [Socket.pushDown, welcomed]
  · intro t eq _
    rw [World.manager_react] at eq
    rw [sockets, if_pos (holds eq), World.manager_react]
    exact ⟨greets.online, by rw [greets.hostInstanceId, own, holds eq], noHello⟩

/-- A host reacts otherwise than by dialing or by its `hello`. -/
theorem reply (wired : Wired w) {h : Uuid} {r : HostAgent × List HostToCoordinator}
    (instanceId : r.1.instanceId = (w.agents h).instanceId)
    (socket : ∀ {s}, r.1.socket = some s →
      (w.agents h).socket = some s ∧ r.1.socketOpen = (w.agents h).socketOpen)
    (plain : ∀ frame ∈ r.2, frame.isHello = false) : Wired (w.reply h r) := by
  have pick : ∀ (P : Socket → Prop) (t : SocketId),
      ((w.sockets t).opened = true → P ((w.sockets t).pushUp r.2)) →
      P (w.sockets t) → P ((w.reply h r).sockets t) := by
    intro P t here there
    refine w.sockets_reply_cases h r t (fun held isOpen => ?_) there
    obtain ⟨before, same⟩ := socket held
    exact here (wired.opened before (same ▸ isOpen))
  have unchanged := fun {α : Type} (field : Socket → α) => w.sockets_reply_field h r field
  refine wired.evolve ⟨?_, ?_, by simp, fun t => unchanged Socket.host t rfl,
    fun t => unchanged Socket.dialed t rfl, fun t => unchanged Socket.attached t rfl,
    fun t => unchanged Socket.opened t rfl, ?_, ?_⟩ ?_ ?_ ?_
  · intro k
    by_cases same : k = h
    · subst same
      simpa using instanceId
    · simp [same]
  · intro k t held
    by_cases same : k = h
    · subst same
      simp only [World.agents_reply, Function.update_self] at held ⊢
      exact socket held
    · simpa [same] using held
  · intro t _ empty
    exact (unchanged Socket.down t rfl).trans empty
  · intro t notOpen empty ungreeted
    refine pick (fun c => c.up = [] ∧ c.greeted = false) t (fun isOpen => ?_)
      ⟨empty, ungreeted⟩
    simp [notOpen] at isOpen
  · intro t ungreeted
    rw [unchanged Socket.greeted t rfl] at ungreeted
    rw [unchanged Socket.down t rfl]
    exact wired.solicited ungreeted
  · intro t held ungreeted
    rw [World.manager_reply] at held
    rw [unchanged Socket.greeted t rfl] at ungreeted
    obtain ⟨before, cut⟩ := wired.awaiting held ungreeted
    refine pick (fun c => Awaiting (w.sockets t).host c.up ∧
      ((w.sockets t).opened = true → c.up = [] → c.upCut = true)) t (fun isOpen => ?_)
      ⟨before, cut⟩
    simp only [Socket.pushUp]
    cases isCut : (w.sockets t).upCut with
    | true => simpa using before
    | false =>
      have said : (w.sockets t).up ≠ [] := fun empty => by simp [cut isOpen empty] at isCut
      exact ⟨by simpa using before.append said plain, fun _ empty => by simp [said] at empty⟩
  · intro t held isGreeted
    rw [World.manager_reply] at held
    rw [unchanged Socket.greeted t rfl] at isGreeted
    obtain ⟨online, current, noHello⟩ := wired.greeted held isGreeted
    rw [World.manager_reply]
    refine ⟨online, current, ?_⟩
    refine pick (fun c => ∀ frame ∈ c.up, frame.isHello = false) t (fun _ => ?_) noHello
    intro frame inside
    simp only [Socket.pushUp] at inside
    split at inside
    · exact noHello frame inside
    · rcases List.mem_append.mp inside with inside | inside
      · exact noHello frame inside
      · exact plain frame inside

end Wired

/-- The cases of a step between wired worlds. -/
inductive Taken (w : World) : Action → World → Prop
  | dial {h s} (idle : (w.agents h).socket = none) (unheld : (w.sockets s).dialed = false) :
    Taken w (.dial h s) { (w.onSocket s fun _ => { host := h, dialed := true }) with
      agents := Function.update w.agents h ((w.agents h).connect s) }
  | accept {s} (isDialed : (w.sockets s).dialed = true)
      (unheld : (w.sockets s).attached = false) :
    Taken w (.accept s) { (w.onSocket s fun c => { c with attached := true }) with
      manager := w.manager.attach s }
  | socketOpens {h s} (holds : (w.agents h).socket = some s)
      (isAttached : (w.sockets s).attached = true) (notOpen : (w.sockets s).opened = false) :
    Taken w (.socketOpens h s)
      ((w.onSocket s fun c => { c with opened := true }).reply h (w.agents h).onOpen)
  | hangUp {h} :
    Taken w (.hangUp h) { w with agents := Function.update w.agents h (w.agents h).onClose }
  | detach {s} : Taken w (.detach s) { w with manager := w.manager.detach s }
  | loseUp {s n} :
    Taken w (.loseUp s n) (w.onSocket s fun c => { c with up := c.up.take n, upCut := true })
  | loseDown {s n} :
    Taken w (.loseDown s n)
      (w.onSocket s fun c => { c with down := c.down.take n, downCut := true })
  /-- A frame on a socket that the coordinator has given up. -/
  | ignoredUp {s frame rest} (unheld : w.manager.link.socket ≠ some s)
      (isAttached : (w.sockets s).attached = true) (up : (w.sockets s).up = frame :: rest) :
    Taken w (.deliverUp s) (w.onSocket s fun c => { c with up := rest })
  | hello {s hello rest} (held : w.manager.link.socket = some s)
      (ungreeted : (w.sockets s).greeted = false) (up : (w.sockets s).up = .hello hello :: rest)
      (speaks : hello.protocol = hostProtocolVersion)
      (own : hello.instanceId = (w.sockets s).host)
      (noHello : ∀ frame ∈ rest, frame.isHello = false) :
    Taken w (.deliverUp s)
      ((w.onSocket s fun c => { c with up := rest }).react (w.manager.handleHello hello))
  | message {s frame rest} (held : w.manager.link.socket = some s)
      (isGreeted : (w.sockets s).greeted = true) (up : (w.sockets s).up = frame :: rest)
      (notHello : frame.isHello = false) :
    Taken w (.deliverUp s)
      ((w.onSocket s fun c => { c with up := rest }).react (w.manager.handleMessage s frame))
  /-- A frame on a socket that the host has given up. -/
  | ignoredDown {s start frame rest} (unheld : (w.agents (w.sockets s).host).socket ≠ some s)
      (down : (w.sockets s).down = frame :: rest) :
    Taken w (.deliverDown s start) (w.onSocket s fun c => { c with down := rest })
  | handled {s start frame rest} (held : (w.agents (w.sockets s).host).socket = some s)
      (isOpen : (w.agents (w.sockets s).host).socketOpen = true)
      (down : (w.sockets s).down = frame :: rest) :
    Taken w (.deliverDown s start)
      ((w.onSocket s fun c => { c with down := rest }).reply (w.sockets s).host
        ((w.agents (w.sockets s).host).handleMessage start frame))
  | coordinator {action r} (done : w.manager.act action = some r) :
    Taken w (.coordinator action) (w.react r)
  | host {h action} : Taken w (.host h action) (w.reply h ((w.agents h).act action))

/-- What a step does to the queue. -/
theorem Taken.manager {w w' : World} {action : Action} (taken : Taken w action w') :
    (∃ acks, Requeued acks w.manager w'.manager) ∨
      ∃ hello : Hello, hello.protocol = hostProtocolVersion ∧
        w'.manager = (w.manager.handleHello hello).1 := by
  have same : ∀ {m : HostLinkManager}, m.link.unacked = w.manager.link.unacked →
      m.link.nextCommandSeq = w.manager.link.nextCommandSeq → m.issued = w.manager.issued →
      m.released = w.manager.released → ∃ acks, Requeued acks w.manager m :=
    fun queue next issued released => ⟨fun _ => False, .unchanged queue next issued released⟩
  cases taken with
  | socketOpens | handled | host =>
    rw [World.manager_reply]
    exact .inl (same rfl rfl rfl rfl)
  | detach =>
    left
    simp only [HostLinkManager.detach]
    split
    · exact same rfl rfl rfl rfl
    · exact same rfl rfl rfl rfl
  | hello held ungreeted up speaks =>
    rw [World.manager_react]
    exact .inr ⟨_, speaks, rfl⟩
  | message held isGreeted up notHello =>
    rw [World.manager_react]
    exact .inl ⟨_, (HostLinkManager.handleMessage_calm w.manager _ notHello).queue⟩
  | coordinator done =>
    rw [World.manager_react]
    exact .inl ⟨_, (HostLinkManager.act_calm done).queue⟩
  | _ => exact .inl (same rfl rfl rfl rfl)

namespace Wired

variable {w w' : World}

theorem taken_deliverUp (wired : Wired w) {s : SocketId} (delivered : w.deliverUp s = some w') :
    Taken w (.deliverUp s) w' := by
  unfold World.deliverUp at delivered
  split at delivered
  · cases delivered
  · rename_i frame rest up
    dsimp only at delivered
    split at delivered
    · rename_i isAttached
      split at delivered
      · rename_i held
        cases Option.some.inj delivered
        cases isGreeted : (w.sockets s).greeted with
        | true =>
          exact .message held isGreeted up ((wired.greeted held isGreeted).2.2 frame (by simp [up]))
        | false =>
          rcases (wired.awaiting held isGreeted).1 with empty | ⟨hello, later, eq, speaks, own, plain⟩
          · simp [empty] at up
          · obtain ⟨rfl, rfl⟩ : frame = .hello hello ∧ rest = later := by simpa [up] using eq
            exact .hello held isGreeted up speaks own plain
      · cases Option.some.inj delivered
        exact .ignoredUp ‹_› isAttached up
    · cases delivered

theorem taken_deliverDown {s : SocketId} {start : StartResult}
    (delivered : w.deliverDown s start = some w') : Taken w (.deliverDown s start) w' := by
  unfold World.deliverDown at delivered
  split at delivered
  · cases delivered
  · rename_i frame rest down
    dsimp only at delivered
    split at delivered
    · rename_i held
      split at delivered
      · cases Option.some.inj delivered
        exact .handled held ‹_› down
      · cases delivered
    · cases Option.some.inj delivered
      exact .ignoredDown ‹_› down

theorem taken (wired : Wired w) {action : Action} (stepped : w.step action = some w') :
    Taken w action w' := by
  cases action with
  | dial h s =>
    simp only [World.step, Option.ite_none_right_eq_some, Option.some.injEq] at stepped
    obtain ⟨⟨idle, -, unheld⟩, rfl⟩ := stepped
    exact .dial idle (by simpa using unheld)
  | accept s =>
    simp only [World.step, Option.ite_none_right_eq_some, Option.some.injEq] at stepped
    obtain ⟨⟨isDialed, unheld⟩, rfl⟩ := stepped
    exact .accept isDialed (by simpa using unheld)
  | socketOpens h s =>
    simp only [World.step, Option.ite_none_right_eq_some, Option.some.injEq] at stepped
    obtain ⟨⟨holds, -, isAttached, notOpen⟩, rfl⟩ := stepped
    exact .socketOpens holds isAttached (by simpa using notOpen)
  | hangUp h =>
    cases Option.some.inj stepped
    exact .hangUp
  | detach s =>
    cases Option.some.inj stepped
    exact .detach
  | loseUp s n =>
    cases Option.some.inj stepped
    exact .loseUp
  | loseDown s n =>
    cases Option.some.inj stepped
    exact .loseDown
  | deliverUp s => exact wired.taken_deliverUp stepped
  | deliverDown s start => exact taken_deliverDown stepped
  | coordinator action =>
    obtain ⟨r, done, rfl⟩ := Option.map_eq_some_iff.mp stepped
    exact .coordinator done
  | host h action =>
    cases Option.some.inj stepped
    exact .host

/-- A `hello` that is about to arrive is the first thing the coordinator hears on its socket. -/
theorem arriving (wired : Wired w) {s : SocketId} {hello : Hello} {rest : List HostToCoordinator}
    (held : w.manager.link.socket = some s) (up : (w.sockets s).up = .hello hello :: rest) :
    (w.sockets s).greeted = false ∧ hello.protocol = hostProtocolVersion ∧
      hello.instanceId = (w.sockets s).host := by
  cases isGreeted : (w.sockets s).greeted with
  | true =>
    have notHello := (wired.greeted held isGreeted).2.2 (.hello hello) (by simp [up])
    simp [HostToCoordinator.isHello] at notHello
  | false =>
    rcases (wired.awaiting held isGreeted).1 with empty | ⟨first, later, eq, speaks, own, -⟩
    · simp [empty] at up
    · obtain ⟨rfl, -⟩ : hello = first ∧ rest = later := by simpa [up] using eq
      exact ⟨rfl, speaks, own⟩

/-- The coordinator or a host drops the first frame of a socket that it handles. -/
theorem popUp (wired : Wired w) {s : SocketId} {frame : HostToCoordinator}
    {rest : List HostToCoordinator} (up : (w.sockets s).up = frame :: rest)
    (handled : w.manager.link.socket = some s → (w.sockets s).greeted = true) :
    Wired (w.onSocket s fun c => { c with up := rest }) :=
  wired.shrink rfl rfl rfl rfl rfl (.refl _) (up ▸ List.sublist_cons_self frame rest)
    fun held ungreeted => by simp [handled held] at ungreeted

@[inherit_doc popUp]
theorem popDown (wired : Wired w) {s : SocketId} {frame : CoordinatorToHost}
    {rest : List CoordinatorToHost} (down : (w.sockets s).down = frame :: rest) :
    Wired (w.onSocket s fun c => { c with down := rest }) :=
  wired.shrink rfl rfl rfl rfl rfl (down ▸ List.sublist_cons_self frame rest) (.refl _)
    wired.awaiting

theorem step (wired : Wired w) {action : Action} (taken : Taken w action w') : Wired w' := by
  cases taken with
  | dial _ unheld => exact wired.dial unheld
  | accept isDialed unheld => exact wired.accept isDialed unheld
  | socketOpens holds isAttached notOpen => exact wired.socketOpens holds isAttached notOpen
  | hangUp => exact wired.hangUp _
  | detach => exact wired.detach _
  | loseUp =>
    exact wired.shrink rfl rfl rfl rfl rfl (.refl _) (List.take_sublist _ _)
      fun held ungreeted => ⟨(wired.awaiting held ungreeted).1.take _, fun _ _ => rfl⟩
  | loseDown =>
    exact wired.shrink rfl rfl rfl rfl rfl (List.take_sublist _ _) (.refl _) wired.awaiting
  | ignoredUp unheld _ up => exact wired.popUp up fun held => absurd held unheld
  | hello held ungreeted up => exact wired.hello held ungreeted up
  | message _ isGreeted up notHello =>
    exact (wired.popUp up fun _ => isGreeted).react
      (HostLinkManager.handleMessage_calm w.manager _ notHello)
  | ignoredDown _ down => exact wired.popDown down
  | @handled s start frame _ _ _ down =>
    have handled := HostAgent.handleMessage_handled (w.agents (w.sockets s).host) start frame
    exact (wired.popDown down).reply handled.instanceId handled.socket handled.noHello
  | coordinator done => exact wired.react (HostLinkManager.act_calm done)
  | @host h action =>
    have calm := HostAgent.act_calm (w.agents h) action
    exact wired.reply calm.instanceId (fun held => ⟨calm.socket ▸ held, calm.socketOpen⟩)
      calm.noHello

end Wired

theorem reaches_wired {instanceId : Uuid} {ok : World → Action → Prop} {w : World}
    (reached : (hostLink instanceId).Reaches ok w) : Wired w :=
  reached.invariant (Wired.init instanceId) fun _ wired _ stepped =>
    wired.step (wired.taken stepped)

theorem reaches_invariant {instanceId : Uuid} {ok : World → Action → Prop} {I : World → Prop}
    (init : I (hostLink instanceId).start)
    (preserved : ∀ {w action w'}, Wired w → I w → ok w action → Taken w action w' → I w')
    {w : World} (reached : (hostLink instanceId).Reaches ok w) : I w :=
  reached.invariant init fun before inv admitted stepped =>
    have wired := reaches_wired before
    preserved wired inv admitted (wired.taken stepped)

end Takode.RemoteHost
