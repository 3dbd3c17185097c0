import Takode.RemoteHost.Tracking

/-!
# Commands are applied once and in order

What a run guarantees for the commands of the coordinator, and the two ways in
which a run can leave that ground: a command 1 that reaches a host before its
first welcome, and a host that comes back after another one took its place.
-/

namespace Takode.RemoteHost

/-- Both conditions on the steps of a run. -/
def World.heeds (w : World) (action : Action) : Bool := w.patient action && w.loyal action

theorem World.heeds_iff {w : World} {action : Action} :
    w.heeds action = true ↔ w.patient action = true ∧ w.loyal action = true := by
  simp [World.heeds]

theorem reaches_tracking {K : Uuid} {ok : World → Action → Prop}
    (patient : ∀ {w action}, ok w action → w.patient action = true)
    (loyal : ∀ {w action}, ok w action → w.loyal action = true) {w : World}
    (reached : (hostLink K).Reaches ok w) : Tracking w := by
  induction reached with
  | start => exact Tracking.init K
  | step before admitted stepped ih =>
    have wired := reaches_wired before
    exact ih.step wired (reaches_introduced patient before) (reaches_inOrder patient before)
      (loyal admitted) (wired.taken stepped)

/-- No host applies a command twice, or after one that was enqueued later. -/
def World.AppliesInOrder (w : World) : Prop := ∀ h, (w.agents h).applied.Pairwise (· < ·)

/-- What a `command_ack` that arrives now drops from the queue, its host has applied. -/
def World.DropsOnlyApplied (w : World) : Prop :=
  ∀ s n rest, w.manager.link.socket = some s → (w.sockets s).up = .commandAck n :: rest →
    ∀ q ∈ w.manager.link.unacked, q ∉ (w.manager.handleCommandAck n).link.unacked →
      q.ticket ∈ (w.agents (w.sockets s).host).applied

theorem Tracking.dropsOnlyApplied {w : World} (tracking : Tracking w) (wired : Wired w)
    (inOrder : InOrder w) : w.DropsOnlyApplied := by
  intro s n rest held up q queued dropped
  have ack : .commandAck n ∈ (w.sockets s).up := by simp [up]
  have isGreeted : (w.sockets s).greeted = true := by
    cases greeted : (w.sockets s).greeted with
    | true => rfl
    | false =>
      rcases (wired.awaiting held greeted).1 with empty | ⟨hello, later, eq, -⟩
      · simp [empty] at up
      · simp [eq] at up
  have current := (wired.greeted held isGreeted).2.1
  have covered : q.seq ≤ n := by simpa [HostLinkManager.handleCommandAck, queued] using dropped
  have positive := (inOrder.numbered.bound q queued).1
  have inside : q.seq - 1 < (w.agents (w.sockets s).host).applied.length := by
    have := tracking.acked ack
    omega
  have applied := (tracking.numbering current).agrees q queued (q.seq - 1) _
    (List.getElem?_eq_getElem inside) (by omega)
  exact applied ▸ List.getElem_mem inside

theorem commands_applied_once_in_order {K : Uuid} {w : World}
    (reached : (hostLink K).Reaches (fun w action => w.heeds action = true) w) :
    w.AppliesInOrder ∧ w.DropsOnlyApplied := by
  have inOrder : InOrder w := reaches_inOrder (fun ok => (World.heeds_iff.mp ok).1) reached
  have tracking : Tracking w := reaches_tracking (fun ok => (World.heeds_iff.mp ok).1)
    (fun ok => (World.heeds_iff.mp ok).2) reached
  exact ⟨fun h => (inOrder.history h).sorted,
    tracking.dropsOnlyApplied (reaches_wired reached) inOrder⟩

/-- A host dials a socket that is then accepted and opened. -/
def connecting (h : Uuid) (s : SocketId) : List Action := [.dial h s, .accept s, .socketOpens h s]

/-- A spawn is applied, its acknowledgement is lost with the socket, and the host comes back. -/
def reconnectingRun : List Action :=
  connecting 1 10 ++ [.deliverUp 10, .deliverDown 10 .started,
    .coordinator (.startProcess 7 (.spawn 7 none)), .deliverDown 10 .started, .loseUp 10 0,
    .hangUp 1] ++ connecting 1 11 ++ [.deliverUp 11, .coordinator (.enqueue (.stdinEnd 7)),
    .deliverDown 11 .started, .deliverDown 11 .started]

theorem reconnecting_applied_once_in_order :
    ∃ w, (hostLink 0).Reaches (fun w action => w.heeds action = true) w ∧
      (w.agents 1).applied = [0, 1] ∧ w.AppliesInOrder ∧ w.DropsOnlyApplied := by
  obtain ⟨w, reached, seen⟩ := Machine.exists_reaches_of_run (hostLink 0) World.heeds
    (fun w => (w.agents 1).applied = [0, 1]) reconnectingRun (by decide +kernel)
  exact ⟨w, reached, seen, commands_applied_once_in_order reached⟩

/-- The first welcome is lost; the host dials again while the link still counts as online, and
the command sent to it before its second `hello` is applied before and after the welcome. -/
def impatientRun : List Action :=
  connecting 1 10 ++ [.deliverUp 10, .loseDown 10 0, .hangUp 1, .dial 1 11, .accept 11,
    .coordinator (.startProcess 7 (.spawn 7 none)), .socketOpens 1 11, .deliverDown 11 .started,
    .deliverUp 11, .deliverUp 11, .deliverDown 11 .started, .deliverDown 11 .started]

/-- Host 1 applies a command, host 2 takes its place and leaves, and host 1 returns: the queue
counts from 1 again, so the command enqueued meanwhile is taken for the one applied before. -/
def disloyalRun : List Action :=
  connecting 1 10 ++ [.deliverUp 10, .deliverDown 10 .started,
    .coordinator (.enqueue (.writeFile [] [])), .deliverDown 10 .started, .deliverUp 10] ++ connecting 2 20 ++ [.deliverUp 20, .detach 20,
    .coordinator (.enqueue (.writeFile [] [])), .hangUp 1] ++ connecting 1 11 ++ [.deliverUp 11,
    .coordinator (.enqueue (.writeFile [] [])), .deliverDown 11 .started, .deliverDown 11 .started]

theorem commands_misapplied :
    (∃ w, (hostLink 0).Reaches (fun w action => w.loyal action = true) w ∧ ¬ w.AppliesInOrder) ∧
      ∃ w, (hostLink 0).Reaches (fun w action => w.patient action = true) w ∧
        ¬ w.DropsOnlyApplied := by
  constructor
  · obtain ⟨w, reached, seen⟩ := Machine.exists_reaches_of_run (hostLink 0) World.loyal
      (fun w => (w.agents 1).applied = [0, 0]) impatientRun (by decide +kernel)
    refine ⟨w, reached, fun inOrder => ?_⟩
    have := inOrder 1
    rw [seen] at this
    simp at this
  · obtain ⟨w, reached, held, up, host, applied, queue⟩ := Machine.exists_reaches_of_run
      (hostLink 0) World.patient
      (fun w => w.manager.link.socket = some 11 ∧ (w.sockets 11).up = [.commandAck 2] ∧
        (w.sockets 11).host = 1 ∧ (w.agents 1).applied = [0, 2] ∧ w.manager.link.unacked =
          [⟨1, .writeFile [] [], 1⟩, ⟨2, .writeFile [] [], 2⟩])
      disloyalRun (by decide +kernel)
    refine ⟨w, reached, fun onlyApplied => ?_⟩
    have := onlyApplied 11 2 [] held up ⟨1, .writeFile [] [], 1⟩ (by simp [queue])
      (by simp [HostLinkManager.handleCommandAck, queue])
    rw [host, applied] at this
    simp at this

end Takode.RemoteHost
