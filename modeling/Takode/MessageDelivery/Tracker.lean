import Takode.Lib.JsMap
import Takode.Lib.JsString
import Takode.Lib.Machine

/-!
# Tracked messages

`message-delivery-tracker.ts`. A message is known by its place in the order of tracking. An
evaluation waits for its probe, and others of the same message may run meanwhile; what it
does when the probe answers is one step. A poll returns, and a tick goes on with the next
message, in a step of its own.
-/

namespace Takode.MessageDelivery

open JsString

def DELIVERY_WAIT_WINDOW_MS : ℤ := 20000
def STOPPED_GRACE_MS : ℤ := 15000
def GIVE_UP_MS : ℤ := 10 * 60000
def RECORD_TTL_MS : ℤ := 24 * 60 * 60000

inductive MessageDeliveryStatus
  | pending
  | queued
  | delivered
  | failed
deriving DecidableEq

structure MessageDeliveryRecord where
  targetSessionId : JsString
  senderSessionId : JsString
  queuedAt : ℤ
  status : MessageDeliveryStatus := .pending
  reason : Option JsString := some (js "the session is starting")
  settledAt : Option ℤ := none
  followUp : Bool
deriving DecidableEq

inductive DeliveryWait
  | starting
  | stopped
  | paused
  | hostOffline
deriving DecidableEq

/-- What a probe answers; `none` stands for one that throws. -/
inductive DeliveryProbe
  | delivered
  | gone (reason : JsString)
  | waiting (reason : JsString) (wait : DeliveryWait)
deriving DecidableEq

structure WatchState where
  stoppedSince : Option ℤ := none
deriving DecidableEq

/-- A message: its record, whether `records` still has it, and its entry of `watch`. -/
structure Tracked where
  record : MessageDeliveryRecord
  known : Bool := true
  watch : Option WatchState := some {}
deriving DecidableEq

structure LaunchFailure where
  message : JsString
  failedAt : ℤ
deriving DecidableEq

/-- Who waits for an evaluation: a poll, or a tick that has more messages to evaluate. -/
inductive Caller
  | poll
  | tick (rest : List Nat)
deriving DecidableEq

/-- An evaluation of a message that waits for its probe, or is done. -/
structure Task where
  message : Nat
  caller : Caller
  done : Bool := false
deriving DecidableEq

/-- The tracker. The last four fields record what has happened: the answers to polls, the
notifications, the messages that a probe said were delivered, and those whose target it said was
gone. -/
structure Tracker where
  messages : List Tracked := []
  launchFailures : JsMap JsString LaunchFailure := ∅
  ticking : Bool := false
  tasks : List Task := []
  now : ℤ := 0
  told : List (Nat × MessageDeliveryStatus) := []
  notified : List (Nat × MessageDeliveryStatus) := []
  found : List Nat := []
  gone : List Nat := []
deriving DecidableEq

namespace MessageDeliveryRecord

/-- The record that is settled. -/
def settled (record : MessageDeliveryRecord) (status : MessageDeliveryStatus) (reason : Option JsString)
    (now : ℤ) : MessageDeliveryRecord :=
  { record with status, reason, settledAt := some now }

/-- The sender has been told of a message that is not delivered yet. -/
def toldBefore (record : MessageDeliveryRecord) : Bool :=
  record.status = .queued || record.status = .failed

end MessageDeliveryRecord

/-- `settle`: the message, and the status that its sender is notified of. -/
def Tracked.settle (message : Tracked) (status : MessageDeliveryStatus) (reason : Option JsString)
    (now : ℤ) : Tracked × Option MessageDeliveryStatus :=
  ({ message with record := message.record.settled status reason now },
    if message.record.toldBefore && message.record.followUp then some status else none)

/-- `evaluate`, once the probe has answered. -/
def Tracked.evaluate (message : Tracked) (launchFailure : Option LaunchFailure) (now : ℤ)
    (probe : DeliveryProbe) : Tracked × Option MessageDeliveryStatus :=
  match message.watch with
  | none => (message, none)
  | some watch =>
    let record := message.record
    let waited := now - record.queuedAt
    let record := if record.status = .pending && DELIVERY_WAIT_WINDOW_MS ≤ waited then
      { record with status := .queued } else record
    let message := { message with record }
    match probe with
    | .delivered => { message with watch := none }.settle .delivered none now
    | .gone reason =>
      let message := { message with watch := none }
      if record.status ≠ .failed then message.settle .failed (some reason) now else (message, none)
    | .waiting reason wait =>
      if record.status = .failed then (message, none)
      else
        let stoppedSince := if wait = .stopped then some (watch.stoppedSince.getD now) else none
        let message := { message with watch := some { stoppedSince } }
        match wait, launchFailure.filter (record.queuedAt ≤ ·.failedAt) with
        | .stopped, some failure =>
          message.settle .failed (some (js "relaunch failed: " ++ failure.message)) now
        | _, _ =>
          if wait = .stopped && STOPPED_GRACE_MS ≤ now - stoppedSince.getD now then
            message.settle .failed (some (js "the session stopped and is not being relaunched")) now
          else if wait ≠ .paused && GIVE_UP_MS ≤ waited then
            message.settle .failed (some (reason ++ js " after 10 minutes")) now
          else ({ message with record := { record with reason := some reason } }, none)

namespace Tracker

variable (t : Tracker)

/-- `track`. -/
def track (targetSessionId senderSessionId : JsString) (followUp : Bool) (now : ℤ) : Tracker :=
  { t with messages := t.messages ++
      [{ record := { targetSessionId, senderSessionId, queuedAt := now, followUp } }] }

def recordLaunchFailure (sessionId message : JsString) (now : ℤ) : Tracker :=
  { t with launchFailures := t.launchFailures.set sessionId ⟨message, now⟩ }

/-- What a poll of a message is told. -/
def answer (message : Nat) : Tracker :=
  { t with told := t.told ++ (t.messages[message]?.map fun known => (message, known.record.status)).toList }

/-- `status`: an unknown message has no answer, and one that is not watched is not evaluated. -/
def poll (message : Nat) : Tracker :=
  match t.messages[message]? with
  | some tracked =>
    if !tracked.known then t
    else if tracked.watch.isSome then { t with tasks := t.tasks ++ [⟨message, .poll, false⟩] }
    else t.answer message
  | none => t

/-- A tick evaluates the next message that is still known, if there is one. -/
def evaluateNext (t : Tracker) : List Nat → Tracker
  | [] => { t with ticking := false }
  | message :: rest =>
    if t.messages[message]?.any (·.known) then { t with tasks := t.tasks ++ [⟨message, .tick rest, false⟩] }
    else evaluateNext t rest

/-- Records are forgotten after a day. -/
def forget (now : ℤ) : Tracker :=
  { t with messages := t.messages.map fun tracked =>
      if tracked.known && RECORD_TTL_MS ≤ now - tracked.record.queuedAt then
        { tracked with known := false, watch := none }
      else tracked }

/-- The keys of `watch`. -/
def watched : List Nat :=
  (t.messages.zipIdx.filter fun (tracked, _) => tracked.watch.isSome).map (·.2)

def tick (now : ℤ) : Tracker :=
  if t.ticking then t
  else
    let t := { t with ticking := true }.forget now
    t.evaluateNext t.watched

/-- An evaluation goes on with the answer of its probe. -/
def probed (i : Nat) (now : ℤ) (probe : Option DeliveryProbe) : Option Tracker :=
  match t.tasks[i]? with
  | some ⟨message, caller, false⟩ =>
    let t := { t with tasks := t.tasks.set i ⟨message, caller, true⟩ }
    match probe, t.messages[message]? with
    | some probe, some tracked =>
      let launchFailure := t.launchFailures.get? tracked.record.targetSessionId
      let (evaluated, notification) := tracked.evaluate launchFailure now probe
      some { t with
        messages := t.messages.set message evaluated
        notified := t.notified ++ (notification.map (message, ·)).toList
        found := if probe = .delivered then t.found ++ [message] else t.found
        gone := match probe with
          | .gone _ => t.gone ++ [message]
          | _ => t.gone }
    | _, _ => some t
  | _ => none

/-- A caller goes on after the evaluation that it waited for. -/
def resumes (i : Nat) : Option Tracker :=
  match t.tasks[i]? with
  | some ⟨message, caller, true⟩ =>
    let t := { t with tasks := t.tasks.eraseIdx i }
    some (match caller with
      | .poll => t.answer message
      | .tick rest => t.evaluateNext rest)
  | _ => none

end Tracker

inductive Event
  | track (targetSessionId senderSessionId : JsString) (followUp : Bool)
  | recordLaunchFailure (sessionId message : JsString)
  | poll (message : Nat)
  | tick
  | probed (i : Nat) (probe : Option DeliveryProbe)
  | resumes (i : Nat)
deriving DecidableEq

/-- Each event has its time, and times do not decrease. -/
def tracker : Machine Tracker (ℤ × Event) where
  start := {}
  step t := fun (now, event) =>
    if t.now ≤ now then
      let t := { t with now }
      match event with
      | .track targetSessionId senderSessionId followUp =>
        some (t.track targetSessionId senderSessionId followUp now)
      | .recordLaunchFailure sessionId message => some (t.recordLaunchFailure sessionId message now)
      | .poll message => some (t.poll message)
      | .tick => some (t.tick now)
      | .probed i probe => t.probed i now probe
      | .resumes i => t.resumes i
    else none

end Takode.MessageDelivery
