import Takode.KeyedLists.Delta
import Takode.Lib.Machine

/-!
# Keyed lists at the browsers

The versions that `KeyedListVersions` remembers, and a browser that receives what it sends with
`receiveSyncedList`: any of the messages sent so far, in any order and any number of times.
-/

namespace Takode.KeyedLists

/-- How a list reaches a browser, given the hash of the list it holds. -/
structure KeyedListSync (T : Type) where
  hash : JsString
  list : Option (List T)
  delta : Option (KeyedListDelta T)

variable {T : Type}

/-- The hash of the list's JSON. -/
def listHash (stringify : T → JsString) (list : List T) : JsString :=
  snapshotTextHash (js "[" ++ (js ",").intercalate (list.map stringify) ++ js "]")

/-- `remember`: the versions afterwards, and the one of the list. The strings that it shares with the
latest one are equal to its own. -/
def remember (idOf stringify : T → JsString) (limit : Nat) (versions : List ListVersion)
    (list : List T) (hash : Option JsString) : List ListVersion × ListVersion :=
  match hash.bind fun hash => versions.find? fun version => version.hash = hash with
  | some known => (versions, known)
  | none =>
    let named := hash.getD (listHash stringify list)
    match versions.getLast?.filter fun latest => latest.hash = named with
    | some latest => (versions, latest)
    | none =>
      let version := ListVersion.of idOf stringify named list
      let versions := versions ++ [version]
      (if limit < versions.length then versions.drop 1 else versions, version)

/-- `sync`, with the versions afterwards. -/
def sync (idOf stringify : T → JsString) (limit : Nat) (versions : List ListVersion)
    (list : List T) (held hash : Option JsString) : List ListVersion × KeyedListSync T :=
  let (versions, current) := remember idOf stringify limit versions list hash
  if held = some current.hash then (versions, ⟨current.hash, none, none⟩)
  else
    let base := held.bind fun held => versions.find? fun version => version.hash = held
    match base.bind fun base => delta base current list with
    | some delta => (versions, ⟨current.hash, none, some delta⟩)
    | none => (versions, ⟨current.hash, some list, none⟩)

/-- What a browser keeps of a list, by its hash. -/
abbrev ReceivedList (T : Type) := List T × JsString

/-- The list that a message leaves the browser with. -/
def receivedList (idOf : T → JsString) (previous : Option (ReceivedList T))
    (synced : KeyedListSync T) : Option (List T) :=
  match synced.list with
  | some list => some list
  | none =>
    previous.bind fun previous =>
      if previous.2 = synced.hash then some previous.1
      else
        (synced.delta.filter fun delta => previous.2 = delta.base).bind fun delta =>
          applyKeyedListDelta previous.1 delta idOf

/-- `receiveSyncedList`: its result, and what is recorded afterwards. -/
def receiveSyncedList (idOf : T → JsString) (previous : Option (ReceivedList T))
    (synced : KeyedListSync T) : Option (List T) × Option (ReceivedList T) :=
  match receivedList idOf previous synced with
  | some list => (some list, some (list, synced.hash))
  | none => (none, previous)

/-- The server's versions and one browser, with every message and every list that was sent. -/
structure SyncState (T : Type) where
  versions : List ListVersion
  broadcastBase : Option JsString
  received : Option (ReceivedList T)
  sent : List (KeyedListSync T)
  /-- The lists that were sent, and the hash that names each. -/
  named : List (JsString × List T)

inductive Event (T : Type)
  | sync (list : List T) (held hash : Option JsString)
  | broadcast (list : List T) (hash : Option JsString)
  | deliver (message : Nat)
  | forget

def SyncState.step (idOf stringify : T → JsString) (limit : Nat) (s : SyncState T) :
    Event T → Option (SyncState T)
  | .sync list held hash =>
    let (versions, message) := KeyedLists.sync idOf stringify limit s.versions list held hash
    some { s with
      versions
      sent := s.sent ++ [message]
      named := s.named ++ [(message.hash, list)] }
  | .broadcast list hash =>
    let (versions, message) :=
      KeyedLists.sync idOf stringify limit s.versions list s.broadcastBase hash
    some { s with
      versions
      broadcastBase := some message.hash
      sent := s.sent ++ [message]
      named := s.named ++ [(message.hash, list)] }
  | .deliver i =>
    s.sent[i]?.map fun message => { s with received := (receiveSyncedList idOf s.received message).2 }
  | .forget => some { s with received := none }

def keyedLists (idOf stringify : T → JsString) (limit : Nat) : Machine (SyncState T) (Event T) :=
  ⟨⟨[], none, none, [], []⟩, SyncState.step idOf stringify limit⟩

/-- The hash that names a list to be sent belongs to no other list sent before, and no entry of it has
the hash of another entry of the same id that was sent before. -/
def Distinguishes (idOf stringify : T → JsString) (s : SyncState T) : Event T → Prop
  | .sync list _ hash | .broadcast list hash =>
    ∀ sent ∈ s.named, (sent.1 = hash.getD (listHash stringify list) → sent.2 = list) ∧
      ∀ old ∈ sent.2, ∀ entry ∈ list, idOf old = idOf entry →
        snapshotTextHash (stringify old) = snapshotTextHash (stringify entry) → old = entry
  | _ => True

/-- A message leads to the list that its hash names. -/
structure Leads (idOf : T → JsString) (named : List (JsString × List T))
    (message : KeyedListSync T) : Prop where
  whole : ∀ list, message.list = some list → (message.hash, list) ∈ named
  changes : ∀ delta, message.delta = some delta → ∃ base list, (delta.base, base) ∈ named ∧
    (message.hash, list) ∈ named ∧ applyKeyedListDelta base delta idOf = some list

structure Exact (idOf stringify : T → JsString) (s : SyncState T) : Prop where
  /-- A hash names one list. -/
  names : ∀ sent ∈ s.named, ∀ sent' ∈ s.named, sent.1 = sent'.1 → sent.2 = sent'.2
  versions : ∀ version ∈ s.versions, ∃ list, (version.hash, list) ∈ s.named ∧
    version = .of idOf stringify version.hash list
  messages : ∀ message ∈ s.sent, Leads idOf s.named message
  received : ∀ held ∈ s.received, (held.2, held.1) ∈ s.named

section Calls

variable {idOf stringify : T → JsString} {limit : Nat} {versions : List ListVersion}
  {list : List T} {held hash : Option JsString} {s t : SyncState T}

/-- `remember` gives the version of the list, which is the newest one if it is new. -/
theorem remember_spec (limit : Nat) (named : List (JsString × List T))
    (known : ∀ version ∈ versions, ∃ list, (version.hash, list) ∈ named ∧
      version = .of idOf stringify version.hash list)
    (distinguished : ∀ sent ∈ named, sent.1 = hash.getD (listHash stringify list) →
      sent.2 = list) :
    (remember idOf stringify limit versions list hash).2 =
        .of idOf stringify (hash.getD (listHash stringify list)) list ∧
      ∀ version ∈ (remember idOf stringify limit versions list hash).1,
        version ∈ versions ∨ version = .of idOf stringify (hash.getD (listHash stringify list)) list := by
  have same {version : ListVersion} (inside : version ∈ versions)
      (named' : version.hash = hash.getD (listHash stringify list)) :
      version = .of idOf stringify (hash.getD (listHash stringify list)) list := by
    obtain ⟨other, sent, equal⟩ := known version inside
    have unique : other = list := distinguished _ sent named'
    rw [equal, unique, named']
  unfold remember
  split
  · rename_i known found
    obtain ⟨own, given, found⟩ := Option.bind_eq_some_iff.mp found
    have inside := List.mem_of_find?_eq_some found
    refine ⟨same inside ?_, fun version => .inl⟩
    rw [given, of_decide_eq_true (List.find?_some found :)]
    rfl
  · simp only
    split
    · rename_i latest found
      obtain ⟨last, equal⟩ := Option.filter_eq_some_iff.mp found
      exact ⟨same (List.mem_of_getLast? last) (of_decide_eq_true equal), fun version => .inl⟩
    · refine ⟨rfl, fun version inside => ?_⟩
      have among : version ∈ versions ++
          [.of idOf stringify (hash.getD (listHash stringify list)) list] := by
        split at inside
        · exact List.mem_of_mem_drop inside
        · exact inside
      exact (List.mem_append.mp among).imp_right List.mem_singleton.mp

theorem keyed_of_delta {base current : ListVersion} {result : KeyedListDelta T}
    (computed : delta base current list = some result) :
    base.keyed = true ∧ current.keyed = true ∧ result.base = base.hash := by
  unfold delta at computed
  simp only at computed
  split at computed
  · cases computed
  · rename_i keyed
    split at computed
    · cases computed
    · cases computed
      simpa using keyed

theorem sync_leads (limit : Nat) (held : Option JsString) (named : List (JsString × List T))
    (known : ∀ version ∈ versions, ∃ list, (version.hash, list) ∈ named ∧
      version = .of idOf stringify version.hash list)
    (distinguished : ∀ sent ∈ named, (sent.1 = hash.getD (listHash stringify list) →
      sent.2 = list) ∧ ∀ old ∈ sent.2, ∀ entry ∈ list, idOf old = idOf entry →
        snapshotTextHash (stringify old) = snapshotTextHash (stringify entry) → old = entry) :
    (sync idOf stringify limit versions list held hash).2.hash =
        hash.getD (listHash stringify list) ∧
      (∀ version ∈ (sync idOf stringify limit versions list held hash).1, version ∈ versions ∨
        version = .of idOf stringify (hash.getD (listHash stringify list)) list) ∧
      Leads idOf (named ++ [(hash.getD (listHash stringify list), list)])
        (sync idOf stringify limit versions list held hash).2 := by
  obtain ⟨current, among⟩ := remember_spec limit named known
    fun sent inside => (distinguished sent inside).1
  unfold sync
  generalize remember idOf stringify limit versions list hash = remembered at current among ⊢
  obtain ⟨versions', version⟩ := remembered
  simp only at current among ⊢
  subst current
  split
  · exact ⟨rfl, among, nofun, nofun⟩
  · rename_i other
    split
    · rename_i result computed
      refine ⟨rfl, among, nofun, fun delta same => ?_⟩
      cases same
      obtain ⟨base, found, computed⟩ := Option.bind_eq_some_iff.mp computed
      obtain ⟨own, held, found⟩ := Option.bind_eq_some_iff.mp found
      have named' : base.hash = own := of_decide_eq_true (List.find?_some found :)
      obtain ⟨distinct, distinct', base_hash⟩ := keyed_of_delta computed
      rcases among base (List.mem_of_find?_eq_some found) with old | current
      · obtain ⟨baseList, sent, equal⟩ := known base old
        rw [equal] at computed distinct
        refine ⟨baseList, list, ?_, ?_, ?_⟩
        · rw [base_hash]
          exact List.mem_append_left _ sent
        · exact List.mem_append_right _ (List.mem_singleton_self _)
        · have spec := delta_spec (of_decide_eq_true distinct) (of_decide_eq_true distinct') computed
          rw [applyKeyedListDelta_eq (of_decide_eq_true distinct) (of_decide_eq_true distinct') spec,
            (map_merged_eq_iff (of_decide_eq_true distinct)).mpr (distinguished _ sent).2]
      · rw [held, ← named', current] at other
        exact absurd rfl other
    · refine ⟨rfl, among, fun whole same => ?_, nofun⟩
      cases same
      exact List.mem_append_right _ (List.mem_singleton_self _)

theorem Leads.mono {named : List (JsString × List T)} {message : KeyedListSync T}
    (leads : Leads idOf named message) (more : List (JsString × List T)) :
    Leads idOf (named ++ more) message where
  whole list same := List.mem_append_left _ (leads.whole list same)
  changes delta same := by
    obtain ⟨base, list, sent, sent', applied⟩ := leads.changes delta same
    exact ⟨base, list, List.mem_append_left _ sent, List.mem_append_left _ sent', applied⟩

/-- Every call keeps the invariant, of whatever list the browser holds. -/
theorem Exact.send (exact : Exact idOf stringify s) (broadcastBase : Option JsString)
    (distinguished : ∀ sent ∈ s.named, (sent.1 = hash.getD (listHash stringify list) →
      sent.2 = list) ∧ ∀ old ∈ sent.2, ∀ entry ∈ list, idOf old = idOf entry →
        snapshotTextHash (stringify old) = snapshotTextHash (stringify entry) → old = entry) :
    Exact idOf stringify
      { versions := (sync idOf stringify limit s.versions list held hash).1
        broadcastBase
        received := s.received
        sent := s.sent ++ [(sync idOf stringify limit s.versions list held hash).2]
        named := s.named ++
          [((sync idOf stringify limit s.versions list held hash).2.hash, list)] } := by
  obtain ⟨name, among, leads⟩ :=
    sync_leads limit held s.named exact.versions distinguished
  generalize sync idOf stringify limit s.versions list held hash = called at name among leads
  rw [← name] at distinguished among leads
  have last : (called.2.hash, list) ∈ s.named ++ [(called.2.hash, list)] :=
    List.mem_append_right _ (List.mem_singleton_self _)
  refine ⟨fun sent inside sent' inside' same => ?_, fun version inside => ?_,
    fun message inside => ?_, fun held' there => ?_⟩
  · rcases List.mem_append.mp inside with old | new
    · rcases List.mem_append.mp inside' with old' | new'
      · exact exact.names sent old sent' old' same
      · cases List.mem_singleton.mp new'
        exact (distinguished sent old).1 same
    · cases List.mem_singleton.mp new
      rcases List.mem_append.mp inside' with old' | new'
      · exact ((distinguished sent' old').1 same.symm).symm
      · cases List.mem_singleton.mp new'
        rfl
  · rcases among version inside with old | rfl
    · obtain ⟨list', sent, equal⟩ := exact.versions version old
      exact ⟨list', List.mem_append_left _ sent, equal⟩
    · exact ⟨list, last, rfl⟩
  · rcases List.mem_append.mp inside with old | new
    · exact (exact.messages message old).mono _
    · cases List.mem_singleton.mp new
      exact leads
  · exact List.mem_append_left _ (exact.received held' there)

/-- What the browser records after a message is the list that the message names. -/
theorem Exact.receive (exact : Exact idOf stringify s) {message : KeyedListSync T}
    (sent : message ∈ s.sent) :
    (∀ list, (receiveSyncedList idOf s.received message).1 = some list →
        (message.hash, list) ∈ s.named ∧
          (receiveSyncedList idOf s.received message).2 = some (list, message.hash)) ∧
      ((receiveSyncedList idOf s.received message).1 = none →
        (receiveSyncedList idOf s.received message).2 = s.received) := by
  have leads := exact.messages message sent
  have named : ∀ list, receivedList idOf s.received message = some list →
      (message.hash, list) ∈ s.named := by
    intro list given
    unfold receivedList at given
    split at given
    · rename_i whole carried
      cases given
      exact leads.whole _ carried
    · obtain ⟨previous, holds, given⟩ := Option.bind_eq_some_iff.mp given
      have recorded := exact.received previous holds
      split at given
      · rename_i same
        cases given
        exact same ▸ recorded
      · obtain ⟨delta, carried, given⟩ := Option.bind_eq_some_iff.mp given
        obtain ⟨carried, based⟩ := Option.filter_eq_some_iff.mp carried
        obtain ⟨base, list', sent', named, applied⟩ := leads.changes delta carried
        have same : base = previous.1 :=
          exact.names _ sent' _ recorded (of_decide_eq_true based).symm
        rw [← same, applied] at given
        cases given
        exact named
  unfold receiveSyncedList
  cases received : receivedList idOf s.received message with
  | none => exact ⟨nofun, fun _ => rfl⟩
  | some list =>
    refine ⟨fun list' same => ?_, nofun⟩
    cases same
    exact ⟨named list received, rfl⟩

theorem Exact.step (exact : Exact idOf stringify s) {event : Event T}
    (admitted : Distinguishes idOf stringify s event)
    (taken : s.step idOf stringify limit event = some t) : Exact idOf stringify t := by
  cases event with
  | sync list held hash =>
    cases taken
    exact exact.send s.broadcastBase admitted
  | broadcast list hash =>
    cases taken
    exact exact.send _ admitted
  | deliver i =>
    obtain ⟨message, found, rfl⟩ := Option.map_eq_some_iff.mp taken
    obtain ⟨some', none'⟩ := exact.receive (List.mem_of_getElem? found)
    refine ⟨exact.names, exact.versions, exact.messages, fun held there => ?_⟩
    cases result : (receiveSyncedList idOf s.received message).1 with
    | none => exact exact.received held (none' result ▸ there)
    | some list =>
      obtain ⟨named, recorded⟩ := some' list result
      rw [recorded] at there
      cases there
      exact named
  | forget =>
    cases taken
    exact ⟨exact.names, exact.versions, exact.messages, nofun⟩

theorem exact_of_reaches
    (reached : (keyedLists idOf stringify limit).Reaches (Distinguishes idOf stringify) s) :
    Exact idOf stringify s :=
  reached.invariant ⟨nofun, nofun, nofun, nofun⟩ fun _ exact admitted taken =>
    exact.step admitted taken

end Calls

/-- Whatever a browser that receives messages makes of one is the list that the message names. -/
theorem keyed_lists_exact (idOf stringify : T → JsString) (limit : Nat) (s : SyncState T)
    (reached : (keyedLists idOf stringify limit).Reaches (Distinguishes idOf stringify) s) :
    (∀ sent ∈ s.named, ∀ sent' ∈ s.named, sent.1 = sent'.1 → sent.2 = sent'.2) ∧
      (∀ held ∈ s.received, (held.2, held.1) ∈ s.named) ∧
      ∀ message ∈ s.sent,
        (∀ list, (receiveSyncedList idOf s.received message).1 = some list →
          (message.hash, list) ∈ s.named ∧
            (receiveSyncedList idOf s.received message).2 = some (list, message.hash)) ∧
        ((receiveSyncedList idOf s.received message).1 = none →
          (receiveSyncedList idOf s.received message).2 = s.received) := by
  have exact := exact_of_reaches reached
  exact ⟨exact.names, exact.received, fun message sent => exact.receive sent⟩

section Examples

instance [DecidableEq T] (idOf stringify : T → JsString) (s : SyncState T) :
    DecidablePred (Distinguishes idOf stringify s)
  | .sync list _ hash | .broadcast list hash =>
    inferInstanceAs (Decidable (∀ sent ∈ s.named,
      (sent.1 = hash.getD (listHash stringify list) → sent.2 = list) ∧
        ∀ old ∈ sent.2, ∀ entry ∈ list, idOf old = idOf entry →
          snapshotTextHash (stringify old) = snapshotTextHash (stringify entry) → old = entry))
  | .deliver _ | .forget => inferInstanceAs (Decidable True)

/-- A browser misses a broadcast, cannot apply the next one and asks for the list again. -/
def missedRun : List (Event Entry) :=
  [.broadcast [entryOf "n-1" "one", entryOf "n-3" "three"] none, .deliver 0,
    .broadcast [entryOf "n-1" "one", entryOf "n-3" "three", entryOf "n-2" "two"] none,
    .broadcast [entryOf "n-1" "edited", entryOf "n-3" "three", entryOf "n-2" "two"] none, .deliver 2,
    .sync [entryOf "n-1" "edited", entryOf "n-3" "three", entryOf "n-2" "two"]
      (some (listHash Entry.stringify [entryOf "n-1" "one", entryOf "n-3" "three"])) none,
    .deliver 3, .deliver 2]

theorem missed_list_exact : ∃ s,
    (keyedLists Entry.id Entry.stringify 8).Reaches (Distinguishes Entry.id Entry.stringify) s ∧
      s.sent.map (fun message => (message.list.isSome, message.delta.isSome)) =
        [(true, false), (false, true), (false, true), (false, true)] ∧
      ∃ hash, s.received =
        some ([entryOf "n-1" "edited", entryOf "n-3" "three", entryOf "n-2" "two"], hash) ∧
      (hash, [entryOf "n-1" "edited", entryOf "n-3" "three", entryOf "n-2" "two"]) ∈ s.named := by
  obtain ⟨s, reached, sent, received⟩ :=
    (keyedLists Entry.id Entry.stringify 8).exists_reaches_of_run
      (fun s event => decide (Distinguishes Entry.id Entry.stringify s event))
      (fun s => s.sent.map (fun message => (message.list.isSome, message.delta.isSome)) =
        [(true, false), (false, true), (false, true), (false, true)] ∧ s.received.map Prod.fst =
          some [entryOf "n-1" "edited", entryOf "n-3" "three", entryOf "n-2" "two"])
      missedRun (by decide +kernel)
  have reached := reached.mono fun _ admitted => of_decide_eq_true admitted
  obtain ⟨⟨list, hash⟩, held, same⟩ := Option.map_eq_some_iff.mp received
  cases same
  exact ⟨s, reached, sent, hash, held,
    (keyed_lists_exact Entry.id Entry.stringify 8 s reached).2.1 _ held⟩

end Examples

end Takode.KeyedLists
