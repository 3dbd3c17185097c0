import Takode.Leases.Loading

/-!
# A restart goes unnoticed

What a server keeps in every state of a run: its data can be stored, and while no save has failed
the file says what the data says.
-/

namespace Takode.Leases

open JsString ResourceLeaseStore

variable {m m' : ResourceLeaseManager} {k : JsString} {now : Nat}

namespace ResourceLeaseManager

/-! ## What is saved -/

theorem promoteLoop_none (left : List ResourceLeaseWaiter)
    (none : (m.promoteLoop k now left).2.2 = []) : m.promoteLoop k now left = (m, left, []) := by
  cases left with
  | nil => rfl
  | cons waiter rest =>
    rw [promoteLoop_cons] at none ⊢
    cases free : m.lowestFreeSlot k with
    | none => rfl
    | some slot =>
      rw [free] at none
      cases none

theorem Storable.promoteWaiters_none (storable : m.Storable)
    (none : (m.promoteWaiters k now).2 = []) : (m.promoteWaiters k now).1 = m := by
  have loop := promoteLoop_none (m.getWaiters k) none
  unfold ResourceLeaseManager.promoteWaiters
  rw [loop]
  unfold ResourceLeaseManager.setWaiters getWaiters
  cases found : m.waiters.get? k with
  | none =>
    dsimp only [Option.getD_none, List.isEmpty_nil]
    rw [if_pos rfl, JsMap.delete_of_absent found]
  | some queue =>
    have filled := (storable.waiters k queue found).2.1
    dsimp only [Option.getD_some]
    rw [if_neg (by simpa using filled), JsMap.set_of_present found]

theorem Storable.promoteAll_unchanged (storable : m.Storable) (keys : List JsString)
    (none : (m.promoteAll now keys).2 = false) : (m.promoteAll now keys).1 = m := by
  induction keys with
  | nil => rfl
  | cons k rest ih =>
    have none' : (!(m.promoteWaiters k now).2.isEmpty ||
        ((m.promoteWaiters k now).1.promoteAll now rest).2) = false := none
    rw [Bool.or_eq_false_iff, Bool.not_eq_false', List.isEmpty_iff] at none'
    have same := storable.promoteWaiters_none none'.1
    show ((m.promoteWaiters k now).1.promoteAll now rest).1 = m
    rw [same] at none' ⊢
    exact ih none'.2

theorem Storable.expire_unchanged (storable : m.Storable)
    (none : (m.expireDueLeases now).2 = false) : (m.expireDueLeases now).1 = m := by
  have none' : (!(m.leases.filter fun lease => lease.expiresAt ≤ now).isEmpty ||
      (ResourceLeaseManager.promoteAll
        { m with leases := m.leases.filter fun lease => now < lease.expiresAt } now
          m.waiters.ownKeys).2) = false := none
  rw [Bool.or_eq_false_iff, Bool.not_eq_false', List.isEmpty_iff] at none'
  have all : (m.leases.filter fun lease => now < lease.expiresAt) = m.leases := by
    refine List.filter_eq_self.mpr fun lease held => ?_
    have late := List.filter_eq_nil_iff.mp none'.1 lease held
    simpa using late
  show (ResourceLeaseManager.promoteAll
    { m with leases := m.leases.filter fun lease => now < lease.expiresAt } now
      m.waiters.ownKeys).1 = m
  rw [all] at none' ⊢
  exact storable.promoteAll_unchanged m.waiters.ownKeys none'.2

/-- Where every save succeeds, the last one was given what is there after the call. -/
def Recorded (m : ResourceLeaseManager) (saves : List (ResourceLeaseManager × Bool))
    (after : ResourceLeaseManager) : Prop :=
  (∀ written ∈ saves, written.2 = true) → (saves.map Prod.fst).getLastD m = after

theorem recorded_last (first : List (ResourceLeaseManager × Bool)) (saved : Bool) :
    Recorded m (first ++ [(m', saved)]) m' := by
  intro _
  rw [List.map_append, List.map_singleton, List.getLastD_concat]

theorem Storable.recorded_expiry (storable : m.Storable) (saved : Bool) :
    Recorded m (m.expirySaves now saved) (m.expireDueLeases now).1 := by
  unfold expirySaves
  cases changed : (m.expireDueLeases now).2 with
  | true => exact recorded_last [] saved
  | false => exact fun _ => (storable.expire_unchanged changed).symm

section Saves

variable {toLowerCase : JsString → JsString} {now' : Nat} {saved saved' : Bool}

theorem acquireLoaded_unchanged (input : NormalizedInput) (now : Nat) :
    match (m.acquireLoaded input now).2 with
      | .acquired .. | .queued .. => True
      | .alreadyOwned .. | .unavailable .. => (m.acquireLoaded input now).1 = m := by
  unfold ResourceLeaseManager.acquireLoaded
  cases (m.getLeases input.resourceKey).find? fun l => l.ownerSessionId = input.callerSessionId with
  | some existing => exact rfl
  | none =>
    cases m.lowestFreeSlot input.resourceKey with
    | some slot => exact trivial
    | none =>
      cases input.waitIfUnavailable with
      | false => exact rfl
      | true => exact trivial

theorem Storable.recorded_acquire (storable : m.Storable) (input : AcquireInput) :
    Recorded m (m.acquireSaves toLowerCase input now now' saved)
      (m.acquire toLowerCase input now now' saved).manager := by
  unfold acquireSaves ResourceLeaseManager.acquire
  cases normalizeAcquireInput toLowerCase input with
  | error failure => exact fun _ => rfl
  | ok normalized =>
    dsimp only
    rw [apply_ite Outcome.manager, ite_self]
    cases changed : (m.expireDueLeases now).2 with
    | true => exact recorded_last [] saved
    | false =>
      rw [storable.expire_unchanged changed]
      have unchanged := acquireLoaded_unchanged (m := m) normalized now'
      generalize m.acquireLoaded normalized now' = a at unchanged ⊢
      obtain ⟨after, result⟩ := a
      cases result with
      | acquired | queued => exact recorded_last [] saved
      | alreadyOwned | unavailable => exact fun _ => unchanged.symm

theorem Storable.recorded_configure (storable : m.Storable) (key : JsString)
    (capacity : JsNumber) :
    Recorded m (m.configureSaves toLowerCase key capacity now now' saved saved')
      (m.configure toLowerCase key capacity now now' saved saved').manager := by
  have expired : Recorded m (m.expirySaves now saved) (m.expireDueLeases now).1 :=
    storable.recorded_expiry saved
  unfold configureSaves ResourceLeaseManager.configure
  cases normalizeResourceKey toLowerCase key with
  | error failure => exact fun _ => rfl
  | ok resourceKey =>
    dsimp only
    split
    · exact fun _ => rfl
    · split
      · exact expired
      · split
        · exact expired
        · split
          · exact expired
          · rw [apply_ite Outcome.manager, ite_self]
            exact recorded_last _ saved'

theorem Storable.recorded_renew (storable : m.Storable) (key caller : JsString)
    (slot ttlMs : Option JsNumber) :
    Recorded m (m.renewSaves toLowerCase key caller slot ttlMs now now' saved saved')
      (m.renew toLowerCase key caller slot ttlMs now now' saved saved').manager := by
  have expired : Recorded m (m.expirySaves now saved) (m.expireDueLeases now).1 :=
    storable.recorded_expiry saved
  unfold renewSaves
  generalize renewed : m.renew toLowerCase key caller slot ttlMs now now' saved saved' = outcome
  unfold ResourceLeaseManager.renew at renewed
  dsimp only at renewed ⊢
  split
  · next failed =>
    rw [failed] at renewed
    exact fun _ => congrArg Outcome.manager renewed
  · next inputs =>
    rw [inputs] at renewed
    dsimp only at renewed
    split
    · next failed =>
      rw [if_pos failed] at renewed
      rw [← renewed]
      exact expired
    · next fine =>
      rw [if_neg fine] at renewed
      split
      · next refused =>
        rw [refused] at renewed
        rw [← renewed]
        exact expired
      · exact recorded_last _ saved'

theorem Storable.recorded_release (storable : m.Storable) (key caller : JsString) (force : Bool)
    (slot : Option JsNumber) :
    Recorded m (m.releaseSaves toLowerCase key caller force slot now now' saved saved')
      (m.release toLowerCase key caller force slot now now' saved saved').manager := by
  have expired : Recorded m (if force then [] else m.expirySaves now saved)
      (if force then (m, false) else m.expireDueLeases now).1 := by
    cases force with
    | true => exact fun _ => rfl
    | false => exact storable.recorded_expiry saved
  unfold releaseSaves
  generalize released : m.release toLowerCase key caller force slot now now' saved saved' = outcome
  unfold ResourceLeaseManager.release at released
  dsimp only at released ⊢
  generalize (if force then (m, false) else m.expireDueLeases now) = e at expired released ⊢
  generalize (if force then [] else m.expirySaves now saved) = first at expired ⊢
  split
  · next failed =>
    rw [failed] at released
    exact fun _ => congrArg Outcome.manager released
  · next inputs =>
    rw [inputs] at released
    dsimp only at released
    split
    · next failed =>
      rw [if_pos failed] at released
      rw [← released]
      exact expired
    · next fine =>
      rw [if_neg fine] at released
      split
      · next refused =>
        rw [refused] at released
        rw [← released]
        exact expired
      · exact recorded_last _ saved'

theorem recorded_withdraw (key caller : JsString) :
    Recorded m (m.withdrawSaves toLowerCase key caller saved)
      (m.withdraw toLowerCase key caller saved).manager := by
  unfold withdrawSaves
  generalize withdrawn : m.withdraw toLowerCase key caller saved = outcome
  unfold ResourceLeaseManager.withdraw at withdrawn
  dsimp only at withdrawn ⊢
  split
  · next failed =>
    rw [failed] at withdrawn
    exact fun _ => congrArg Outcome.manager withdrawn
  · next inputs =>
    rw [inputs] at withdrawn
    dsimp only at withdrawn
    split
    · next all =>
      rw [if_pos all] at withdrawn
      exact fun _ => congrArg Outcome.manager withdrawn
    · exact recorded_last [] saved

theorem Storable.recorded_getStatus (storable : m.Storable) (key : JsString) :
    Recorded m (m.getStatusSaves toLowerCase key now saved)
      (m.getStatus toLowerCase key now saved).manager := by
  unfold getStatusSaves ResourceLeaseManager.getStatus
  cases normalizeResourceKey toLowerCase key with
  | error failure => exact fun _ => rfl
  | ok resourceKey =>
    dsimp only
    rw [apply_ite Outcome.manager, ite_self]
    exact storable.recorded_expiry saved

theorem Storable.recorded (storable : m.Storable) (operation : Operation) (swept : Bool)
    (saved : ∀ written ∈ m.saves toLowerCase swept operation, written.2 = true) :
    (((m.saves toLowerCase swept operation).map Prod.fst).getLastD m).file =
      (m.perform toLowerCase operation).file := by
  cases operation with
  | registerSystemOwner start => rfl
  | acquire input now now' flag => exact congrArg _ (storable.recorded_acquire input saved)
  | wait input now now' flag => exact congrArg _ (storable.recorded_acquire _ saved)
  | configure key capacity now now' flag flag' =>
    exact congrArg _ (storable.recorded_configure key capacity saved)
  | renew key caller slot ttlMs now now' flag flag' =>
    exact congrArg _ (storable.recorded_renew key caller slot ttlMs saved)
  | release key caller force slot now now' flag flag' =>
    exact congrArg _ (storable.recorded_release key caller force slot saved)
  | withdraw key caller flag => exact congrArg _ (recorded_withdraw key caller saved)
  | getStatus key now flag => exact congrArg _ (storable.recorded_getStatus key saved)
  | sweepExpiredNow now => exact congrArg _ (storable.recorded_expiry swept saved)

end Saves

theorem storable_of_mem_singleton {saved : Bool} (last : m.Storable) :
    ∀ written ∈ [(m, saved)], written.1.Storable := by
  intro written inside
  cases List.mem_singleton.mp inside
  exact last

theorem Storable.expirySaves (storable : m.Storable) (later : 0 < now) (saved : Bool) :
    ∀ written ∈ m.expirySaves now saved, written.1.Storable := by
  unfold ResourceLeaseManager.expirySaves
  split
  · exact storable_of_mem_singleton (storable.expire later)
  · exact nofun

theorem storable_of_mem_append {first : List (ResourceLeaseManager × Bool)} {saved : Bool}
    (early : ∀ written ∈ first, written.1.Storable) (last : m.Storable) :
    ∀ written ∈ first ++ [(m, saved)], written.1.Storable := by
  intro written inside
  rcases List.mem_append.mp inside with old | new
  · exact early written old
  · exact storable_of_mem_singleton last written new

section Saves

variable {toLowerCase : JsString → JsString} {now' : Nat} {saved saved' : Bool}

theorem Storable.acquireSaves (storable : m.Storable) (input : AcquireInput) (later : 0 < now)
    (later' : 0 < now') :
    ∀ written ∈ m.acquireSaves toLowerCase input now now' saved, written.1.Storable := by
  unfold ResourceLeaseManager.acquireSaves
  split
  · exact nofun
  · next normalized accepted =>
    have after := (storable.expire later).acquireLoaded (normalizeAcquireInput_storable accepted)
      later'
    dsimp only
    generalize (_ || _ : Bool) = save
    cases save with
    | true => exact storable_of_mem_singleton after
    | false => exact nofun

theorem Storable.configureSaves (storable : m.Storable) (key : JsString) (capacity : JsNumber)
    (later : 0 < now) (later' : 0 < now') :
    ∀ written ∈ m.configureSaves toLowerCase key capacity now now' saved saved',
      written.1.Storable := by
  have first := storable.expirySaves later saved
  unfold ResourceLeaseManager.configureSaves
  split
  · exact nofun
  · next resourceKey _ =>
    dsimp only
    split
    · exact nofun
    · next valid =>
      simp only [Bool.or_eq_true, Bool.not_eq_true', not_or, Bool.not_eq_false, Bool.not_eq_true]
        at valid
      split
      · exact first
      · split
        · exact first
        · split
          · exact first
          · exact storable_of_mem_append first
              ((storable.expire later).resized resourceKey (floor_range valid.1 valid.2) later')

theorem Storable.renewSaves (storable : m.Storable) (key caller : JsString)
    (slot ttlMs : Option JsNumber) (later : 0 < now) (later' : 0 < now') :
    ∀ written ∈ m.renewSaves toLowerCase key caller slot ttlMs now now' saved saved',
      written.1.Storable := by
  have first := storable.expirySaves later saved
  unfold ResourceLeaseManager.renewSaves
  dsimp only
  split
  · exact nofun
  · split
    · exact first
    · split
      · exact first
      · exact storable_of_mem_append first
          (storable.renew key caller slot ttlMs saved saved' later later')

theorem Storable.releaseSaves (storable : m.Storable) (key caller : JsString) (force : Bool)
    (slot : Option JsNumber) (later : 0 < now) (later' : 0 < now') :
    ∀ written ∈ m.releaseSaves toLowerCase key caller force slot now now' saved saved',
      written.1.Storable := by
  have first : ∀ written ∈ (if force then [] else m.expirySaves now saved),
      written.1.Storable := by
    split
    · exact nofun
    · exact storable.expirySaves later saved
  unfold ResourceLeaseManager.releaseSaves
  dsimp only
  generalize (if force then [] else m.expirySaves now saved) = early at first ⊢
  generalize (if force then (m, false) else m.expireDueLeases now) = expired
  split
  · exact nofun
  · split
    · exact first
    · split
      · exact first
      · exact storable_of_mem_append first
          (storable.release key caller force slot saved saved' later later')

theorem Storable.withdrawSaves (storable : m.Storable) (key caller : JsString) :
    ∀ written ∈ m.withdrawSaves toLowerCase key caller saved, written.1.Storable := by
  unfold ResourceLeaseManager.withdrawSaves
  dsimp only
  split
  · exact nofun
  · split
    · exact nofun
    · exact storable_of_mem_singleton (storable.withdraw key caller saved)

theorem Storable.getStatusSaves (storable : m.Storable) (key : JsString) (later : 0 < now) :
    ∀ written ∈ m.getStatusSaves toLowerCase key now saved, written.1.Storable := by
  unfold ResourceLeaseManager.getStatusSaves
  split
  · exact nofun
  · exact storable.expirySaves later saved

/-- Whatever is saved can be stored. -/
theorem Storable.saves (storable : m.Storable) (swept : Bool) {operation : Operation}
    (timely : operation.Timely) :
    ∀ written ∈ m.saves toLowerCase swept operation, written.1.Storable := by
  unfold Operation.Timely at timely
  cases operation with
  | registerSystemOwner start => exact nofun
  | acquire input now now' flag =>
    exact storable.acquireSaves input (timely now (by simp [Operation.times]))
      (timely now' (by simp [Operation.times]))
  | wait input now now' flag =>
    exact storable.acquireSaves _ (timely now (by simp [Operation.times]))
      (timely now' (by simp [Operation.times]))
  | configure key capacity now now' flag flag' =>
    exact storable.configureSaves key capacity (timely now (by simp [Operation.times]))
      (timely now' (by simp [Operation.times]))
  | renew key caller slot ttlMs now now' flag flag' =>
    exact storable.renewSaves key caller slot ttlMs (timely now (by simp [Operation.times]))
      (timely now' (by simp [Operation.times]))
  | release key caller force slot now now' flag flag' =>
    exact storable.releaseSaves key caller force slot (timely now (by simp [Operation.times]))
      (timely now' (by simp [Operation.times]))
  | withdraw key caller flag => exact storable.withdrawSaves key caller
  | getStatus key now flag =>
    exact storable.getStatusSaves key (timely now (by simp [Operation.times]))
  | sweepExpiredNow now => exact storable.expirySaves (timely now (by simp [Operation.times])) swept

end Saves

/-! ## Answers -/

theorem Alike.perform {toLowerCase : JsString → JsString} (alike : m.Alike m')
    (storable : m.Storable) (storable' : m'.Storable) {operation : Operation}
    (timely : operation.Timely) :
    (m.perform toLowerCase operation).Alike (m'.perform toLowerCase operation) ∧
      m.result toLowerCase operation = m'.result toLowerCase operation := by
  unfold Operation.Timely at timely
  cases operation with
  | registerSystemOwner start =>
    refine ⟨⟨alike.capacityKeys, alike.capacities, alike.nextWaiterId, alike.leases,
      alike.queueKeys, alike.queues, ?_, alike.notified⟩, rfl⟩
    show m.systemOwners.set start () = m'.systemOwners.set start ()
    rw [alike.systemOwners]
  | acquire input now now' saved => exact (alike.acquire input).both Result.acquire
  | wait input now now' saved => exact (alike.acquire _).both Result.acquire
  | configure key capacity now now' saved saved' =>
    exact (alike.configure key capacity).both Result.status
  | renew key caller slot ttlMs now now' saved saved' =>
    have later := timely now (by simp [Operation.times])
    exact (alike.renew storable storable' key caller slot ttlMs later).both Result.lease
  | release key caller force slot now now' saved saved' =>
    have later := timely now (by simp [Operation.times])
    exact (alike.release storable storable' key caller force slot later).both Result.release
  | withdraw key caller saved =>
    have same : (m.withdraw toLowerCase key caller saved).Alike id
        (m'.withdraw toLowerCase key caller saved) := alike.withdraw key caller
    refine ⟨same.manager, congrArg Result.withdraw ?_⟩
    simpa only [Except.map_id, id] using same.result
  | getStatus key now saved => exact (alike.getStatus key).both Result.status
  | sweepExpiredNow now => exact ⟨(alike.expire now).1, rfl⟩

theorem Alike.answer {toLowerCase : JsString → JsString} (alike : m.Alike m')
    (storable : m.Storable) (storable' : m'.Storable) {operation : Operation}
    (timely : operation.Timely) :
    m.answer toLowerCase operation = m'.answer toLowerCase operation := by
  obtain ⟨after, result⟩ : (m.perform toLowerCase operation).Alike
      (m'.perform toLowerCase operation) ∧ _ := alike.perform storable storable' timely
  unfold ResourceLeaseManager.answer
  rw [result, List.map_drop, List.map_drop, after.notified, length_eq alike.notified]

end ResourceLeaseManager

/-! ## Runs of a server -/

section Server

variable {toText : JsonValue → JsString} {toLowerCase : JsString → JsString} {s : Server}

/-- The file of a server says what its data says. -/
def Server.UpToDate (toText : JsonValue → JsString) (s : Server) : Prop :=
  (load toText s.disk).canonical = s.manager.file.canonical

theorem canonical_canonical (file : ResourceLeaseFile) : file.canonical.canonical = file.canonical := by
  have leases : file.canonical.canonical.leases = file.canonical.leases := by
    show (file.leases.map _).map _ = file.leases.map _
    rw [List.map_map]
    refine List.map_congr_left fun lease _ => ?_
    simp only [Function.comp_apply, StoredLease.canonical, Record.canonical_canonical]
  have waiters : file.canonical.canonical.waiters = file.canonical.waiters := by
    refine Record.canonical_eq_iff.mpr ⟨?_, fun k => ?_⟩
    · rw [Record.ownKeys_map, Record.ownKeys_map, ownKeys_canonical_waiters]
    · rw [JsMap.get?_map, JsMap.get?_map, get?_canonical_waiters, Option.map_map]
      refine Option.map_congr fun queue _ => ?_
      rw [Function.comp_apply, List.map_map]
      refine List.map_congr_left fun waiter _ => ?_
      simp only [Function.comp_apply, StoredWaiter.canonical, Record.canonical_canonical]
  exact ResourceLeaseFile.ext Record.canonical_canonical rfl leases waiters

/-- The saves of a call bring the file up to date. -/
theorem Server.UpToDate.call (current : s.UpToDate toText) (storable : s.manager.Storable)
    {operation : Operation} (timely : operation.Timely) (swept : Bool)
    (saved : s.Saved toLowerCase (.call operation swept)) :
    (s.step toText toLowerCase (.call operation swept)).UpToDate toText := by
  have recorded := storable.recorded operation swept saved
  have after : (s.manager.perform toLowerCase operation).Storable := storable.perform timely
  replace saved : ∀ written ∈ s.manager.saves toLowerCase swept operation, written.2 = true := saved
  show (load toText ((s.manager.saves toLowerCase swept operation).foldl (writeFile toText)
    s.disk)).canonical = (s.manager.perform toLowerCase operation).file.canonical
  rcases List.eq_nil_or_concat (s.manager.saves toLowerCase swept operation) with
    none | ⟨first, last, ends⟩
  · rw [none] at recorded ⊢
    rw [← recorded]
    exact current
  · rw [ends, List.concat_eq_append] at recorded saved ⊢
    have flag : last.2 = true := saved last (by simp)
    rw [List.map_append, List.map_singleton, List.getLastD_concat] at recorded
    rw [List.foldl_append, List.foldl_cons, List.foldl_nil, writeFile, if_pos flag, recorded,
      load_save after.keepable, canonical_canonical]

/-- A restart brings back a manager that is no different. -/
theorem Server.UpToDate.restart (current : s.UpToDate toText) :
    (s.step toText toLowerCase .restart).manager.Alike s.manager ∧
      (s.step toText toLowerCase .restart).UpToDate toText := by
  have alike := manager_alike current
  exact ⟨alike, current.trans alike.file_eq.symm⟩

/-- What the file brings back after a restart can be stored, whatever was lost. -/
structure Server.Sound (toText : JsonValue → JsString) (s : Server) : Prop where
  manager : s.manager.Storable
  disk : ∃ written : ResourceLeaseManager,
    written.Storable ∧ (load toText s.disk).canonical = written.file.canonical

theorem Server.Sound.step (sound : s.Sound toText) {event : Event} (timely : event.Timely) :
    (s.step toText toLowerCase event).Sound toText := by
  cases event with
  | call operation swept =>
    refine ⟨sound.manager.perform timely, ?_⟩
    have written : ∀ written ∈ s.manager.saves toLowerCase swept operation, written.1.Storable :=
      sound.manager.saves swept timely
    show ∃ written : ResourceLeaseManager, _ ∧ (load toText ((s.manager.saves toLowerCase swept
      operation).foldl (writeFile toText) s.disk)).canonical = _
    generalize s.manager.saves toLowerCase swept operation = saves at written
    induction saves using List.reverseRecOn with
    | nil => exact sound.disk
    | append_singleton first last ih =>
      rw [List.foldl_append, List.foldl_cons, List.foldl_nil, writeFile]
      split
      · have storable := written last (by simp)
        exact ⟨last.1, storable, by rw [load_save storable.keepable, canonical_canonical]⟩
      · exact ih fun earlier inside => written earlier (List.mem_append_left _ inside)
  | restart =>
    obtain ⟨written, storable, same⟩ := sound.disk
    -- The loaded manager has the data that was written, and the history of this server.
    have alike := manager_alike (m := { s.manager with
      capacities := written.capacities, nextWaiterId := written.nextWaiterId
      leases := written.leases, waiters := written.waiters }) same
    have kept : ResourceLeaseManager.Storable { s.manager with
        capacities := written.capacities, nextWaiterId := written.nextWaiterId
        leases := written.leases, waiters := written.waiters } :=
      ⟨storable.capacities, storable.nextWaiterId, storable.leases, storable.waiters,
        storable.slots⟩
    exact ⟨alike.symm.storable kept, sound.disk⟩

theorem sound_of_reaches {start : Server} (first : start.Sound toText)
    (reached : (serverRuns toText toLowerCase start).Reaches (fun _ event => event.Timely) s) :
    s.Sound toText := by
  apply reached.invariant first
  intro before event after _ sound timely stepped
  exact Option.some.inj stepped ▸ sound.step timely

end Server

/-! ## Files of version 1 -/

/-- A server before its first save. -/
def fresh : Server := ⟨{}, none⟩

/-- A manager whose clock shows the very start of 1970. -/
def epoch : ResourceLeaseManager :=
  ResourceLeaseManager.perform toLowerCase {} (.acquire
    { resourceKey := js "port:3000", callerSessionId := js "s1", purpose := js "dev" } 0 0 true)

end Takode.Leases
