import Takode.Streams.Log

/-!
# Calls one after another

What a call does when nothing comes in between, and how that depends on the files that it
reads.
-/

namespace Takode.Streams

variable {path : JsString → JsString}

theorem Disk.set_self (disk : Disk) (p : JsString) (file : StreamScopeFile) :
    disk.set p file p = some file := if_pos rfl

theorem Disk.set_of_ne (disk : Disk) {p q : JsString} (file : StreamScopeFile) (other : q ≠ p) :
    disk.set p file q = disk q := if_neg other

/-- The call goes on by itself, at most so many times. -/
def Call.finish (path : JsString → JsString) (clock : List Nat) : Nat → Disk → Call → Disk × Phase
  | 0, disk, c => (disk, c.phase)
  | n + 1, disk, c =>
    match c.resume path clock disk with
    | some (disk, c) => finish path clock n disk c
    | none => (disk, c.phase)

/-- The whole call, with nothing in between. -/
def Request.alone (path : JsString → JsString) (disk : Disk) (request : Request)
    (clock : List Nat) : Disk × Phase :=
  Call.finish path clock 4 disk { request, phase := request.start }

/-- The calls of the log lead from one disk to the other, one after another. -/
def Serial (path : JsString → JsString) : Disk → List Entry → Disk → Prop
  | disk, [], last => disk = last
  | disk, e :: log, last => ∃ next,
    e.request.alone path disk e.clock = (next, .ended (.ok e.outcome)) ∧ Serial path next log last

theorem Serial.snoc {disk logical last : Disk} {log : List Entry} {e : Entry}
    (serial : Serial path disk log logical)
    (alone : e.request.alone path logical e.clock = (last, .ended (.ok e.outcome))) :
    Serial path disk (log ++ [e]) last := by
  induction log generalizing disk with
  | nil =>
    cases serial
    exact ⟨last, alone, rfl⟩
  | cons first log ih =>
    obtain ⟨next, done, rest⟩ := serial
    exact ⟨next, done, ih rest⟩

theorem loadScopeFile_scope {scope p : JsString} {stored : Option StreamScopeFile}
    {data : StreamScopeFile} (loaded : loadScopeFile scope p stored = .ok data) :
    data.scope = scope := by
  cases stored with
  | none =>
    cases loaded
    rfl
  | some file =>
    simp only [loadScopeFile] at loaded
    split at loaded <;> cases loaded
    rfl

theorem loadScopeFile_streams {scope p : JsString} {file data : StreamScopeFile}
    (loaded : loadScopeFile scope p (some file) = .ok data) :
    data.streams.length = file.streams.length := by
  simp only [loadScopeFile] at loaded
  split at loaded
  · rename_i streams mapped
    cases loaded
    have same := map_of_mapM (g := fun _ => ()) (fun _ _ _ _ => rfl) mapped
    simpa using congrArg List.length same
  · cases loaded

theorem loadScopeFile_ok_of_empty {scope p : JsString} {file : StreamScopeFile}
    (empty : file.streams = []) :
    ∃ data, loadScopeFile scope p (some file) = .ok data ∧ data.streams = [] := by
  refine ⟨⟨scope, if file.nextId > 0 then file.nextId else 1, []⟩, ?_, rfl⟩
  rw [loadScopeFile, empty]
  rfl

theorem createStream_scope {data saved : StreamScopeFile} {input : StreamCreateInput}
    {clock : List Nat} {stream : StreamRecord}
    (created : createStream data input clock = .ok (saved, stream)) : saved.scope = data.scope := by
  unfold createStream at created
  cases status : normalizeStatus input.status (js "active") with
  | error detail => rw [status] at created; cases created
  | ok status' =>
    rw [status] at created
    cases created
    rfl

theorem updateStream_scope {data saved : StreamScopeFile} {input : StreamUpdateInput}
    {clock : List Nat} {stream : StreamRecord}
    (updated : updateStream data input clock = .ok (some (saved, stream))) :
    saved.scope = data.scope := by
  unfold updateStream at updated
  split at updated
  · cases updated
  · split at updated
    · cases updated
    · rename_i old found
      cases done : old.update input clock with
      | error detail => rw [done] at updated; cases updated
      | ok stream' =>
        rw [done] at updated
        cases updated
        rfl

theorem Migration.length_foldl (destination : StreamScopeFile) (groupName : JsString)
    (streams : List StreamRecord) (m : Migration) :
    (streams.foldl (Migration.migrate destination groupName) m).migratedStreams.length =
      m.migratedStreams.length + streams.length := by
  induction streams generalizing m with
  | nil => rfl
  | cons stream streams ih =>
    rw [List.foldl_cons, ih, List.length_cons, Migration.migrate, List.length_append,
      List.length_singleton]
    omega

namespace Request

variable {disk disk' : Disk} {request : Request} {clock : List Nat} {phase : Phase}

/-- What a call does at its first read. -/
inductive Loads (path : JsString → JsString) (disk : Disk) (clock : List Nat) :
    Request → Phase → Prop
  | failed {request error} : Loads path disk clock request (.ended (.error error))
  | created {input data data' stream}
      (read : loadScopeFile input.scope (path input.scope) (disk (path input.scope)) = .ok data)
      (done : createStream data input clock = .ok (data', stream)) :
      Loads path disk clock (.create input) (.saving data' (.stream (some stream)))
  | missing {input data}
      (read : loadScopeFile input.scope (path input.scope) (disk (path input.scope)) = .ok data)
      (done : updateStream data input clock = .ok none) :
      Loads path disk clock (.update input) (.ended (.ok (.stream none)))
  | updated {input data data' stream}
      (read : loadScopeFile input.scope (path input.scope) (disk (path input.scope)) = .ok data)
      (done : updateStream data input clock = .ok (some (data', stream))) :
      Loads path disk clock (.update input) (.saving data' (.stream (some stream)))
  | nothing {input : SessionGroupStreamMigrationInput} {data}
      (read : loadScopeFile input.sourceScope (path input.sourceScope)
        (disk (path input.sourceScope)) = .ok data)
      (empty : data.streams = []) :
      Loads path disk clock (.migrate input)
        (.ended (.ok (.migrated ⟨input.sourceScope, input.destinationScope, 0, 0⟩)))
  | source {input : SessionGroupStreamMigrationInput} {data}
      (read : loadScopeFile input.sourceScope (path input.sourceScope)
        (disk (path input.sourceScope)) = .ok data)
      (filled : data.streams ≠ []) :
      Loads path disk clock (.migrate input) (.loadingDestination data)

theorem loads (path : JsString → JsString) (disk : Disk) (request : Request) (clock : List Nat) :
    Loads path disk clock request (request.load path disk clock) := by
  unfold Request.load
  cases loaded : loadScopeFile request.scope (path request.scope) (disk (path request.scope)) with
  | error detail => exact .failed
  | ok data =>
    cases request with
    | create input =>
      cases done : createStream data input clock with
      | error detail =>
        simp only [bind, Except.bind, done]
        exact .failed
      | ok saved =>
        simp only [bind, Except.bind, done]
        exact .created loaded done
    | update input =>
      cases done : updateStream data input clock with
      | error detail =>
        simp only [bind, Except.bind, done]
        exact .failed
      | ok saved =>
        cases saved with
        | none =>
          simp only [bind, Except.bind, done]
          exact .missing loaded done
        | some saved =>
          simp only [bind, Except.bind, done]
          exact .updated loaded done
    | migrate input =>
      by_cases empty : data.streams = []
      · simp only [bind, Except.bind, empty, List.isEmpty_nil, if_true]
        exact .nothing loaded empty
      · have filled : data.streams.isEmpty = false := by simpa using empty
        simp only [bind, Except.bind, filled, Bool.false_eq_true, if_false]
        exact .source loaded empty

theorem load_congr (same : disk' (path request.scope) = disk (path request.scope)) :
    request.load path disk' clock = request.load path disk clock := by
  unfold Request.load
  rw [same]

theorem load_saving {data : StreamScopeFile} {outcome : Outcome}
    (loaded : request.load path disk clock = .saving data outcome) :
    data.scope = request.scope ∧
      ((∀ file, disk (path request.scope) = some file → Tidy file) → Tidy data) := by
  have loads := request.loads path disk clock
  rw [loaded] at loads
  cases loads with
  | created read done =>
    exact ⟨(createStream_scope done).trans (loadScopeFile_scope read), fun tidy =>
      (Tidy.load tidy read).create done⟩
  | updated read done =>
    exact ⟨(updateStream_scope done).trans (loadScopeFile_scope read), fun tidy =>
      (Tidy.load tidy read).update done⟩

theorem load_source {source : StreamScopeFile}
    (loaded : request.load path disk clock = .loadingDestination source) :
    (∃ input, request = .migrate input) ∧ source.scope = request.scope ∧ source.streams ≠ [] ∧
      (∃ file, disk (path request.scope) = some file ∧ file.streams ≠ []) ∧
      ((∀ file, disk (path request.scope) = some file → Tidy file) → Tidy source) := by
  have loads := request.loads path disk clock
  rw [loaded] at loads
  cases loads with
  | @source input _ read filled =>
    refine ⟨⟨input, rfl⟩, loadScopeFile_scope read, filled, ?_, fun tidy => Tidy.load tidy read⟩
    show ∃ file, disk (path input.sourceScope) = some file ∧ file.streams ≠ []
    cases stored : disk (path input.sourceScope) with
    | none =>
      rw [stored] at read
      cases read
      exact absurd rfl filled
    | some file =>
      rw [stored] at read
      refine ⟨file, rfl, fun empty => filled ?_⟩
      have length := loadScopeFile_streams read
      rw [empty] at length
      exact List.length_eq_zero_iff.mp length

theorem load_empty {file file' : StreamScopeFile} {outcome : Outcome}
    (loaded : request.load path disk clock = .ended (.ok outcome))
    (stored : disk (path request.scope) = some file) (filled : file.streams ≠ [])
    (stored' : disk' (path request.scope) = some file') (empty : file'.streams = []) :
    request.load path disk' clock = .ended (.ok outcome) := by
  have loads := request.loads path disk clock
  rw [loaded] at loads
  cases loads with
  | @missing input data read done =>
    obtain ⟨data', read', none⟩ : ∃ data', loadScopeFile input.scope (path input.scope)
        (some file') = .ok data' ∧ data'.streams = [] := loadScopeFile_ok_of_empty empty
    rw [show path input.scope = path (Request.update input).scope from rfl, ← stored'] at read'
    simp only [Request.load, Request.scope] at read' ⊢
    simp only [read', bind, Except.bind, updateStream, none, List.findIdx?_nil]
    rfl
  | @nothing input data read empty =>
    rw [show disk (path input.sourceScope) = some file from stored] at read
    have length := loadScopeFile_streams read
    rw [empty] at length
    exact absurd (List.length_eq_zero_iff.mp length.symm) filled

theorem loadDestination_cases (input : SessionGroupStreamMigrationInput)
    (source : StreamScopeFile) :
    (∃ error, (Request.migrate input).loadDestination path disk source = .ended (.error error)) ∨
    ∃ destination destination' source' result,
      loadScopeFile input.destinationScope (path input.destinationScope)
        (disk (path input.destinationScope)) = .ok destination ∧
      migrateSessionGroupStreams source destination input = (destination', source', result) ∧
      (Request.migrate input).loadDestination path disk source =
        .savingDestination destination' source' result := by
  cases loaded : loadScopeFile input.destinationScope (path input.destinationScope)
    (disk (path input.destinationScope)) with
  | error detail =>
    refine .inl ⟨detail, ?_⟩
    simp only [Request.loadDestination, loaded, bind, Except.bind, Phase.ofResult]
  | ok destination =>
    refine .inr ⟨destination, _, _, _, rfl, rfl, ?_⟩
    simp only [Request.loadDestination, loaded, bind, Except.bind]
    rfl

theorem loadDestination_saving {input : SessionGroupStreamMigrationInput}
    {source source' destination' : StreamScopeFile} {result : SessionGroupStreamMigrationResult}
    (loaded : (Request.migrate input).loadDestination path disk source =
      .savingDestination destination' source' result) :
    destination'.scope = input.destinationScope ∧ source' = { source with streams := [] } ∧
      (source.streams ≠ [] → destination'.streams ≠ []) ∧
      (Tidy source → (∀ file, disk (path input.destinationScope) = some file → Tidy file) →
        Tidy destination' ∧ Tidy source') := by
  rcases loadDestination_cases input source with
    ⟨error, failed⟩ | ⟨destination, d, s, r, stored, migrated, done⟩
  · cases failed.symm.trans loaded
  · cases done.symm.trans loaded
    have scope := loadScopeFile_scope stored
    refine ⟨?_, ?_, fun filled => ?_, fun tidy stored' =>
      Tidy.migrateSessionGroupStreams tidy (Tidy.load stored' stored) migrated⟩
    · cases migrated
      exact scope
    · cases migrated
      rfl
    · cases migrated
      intro none
      have none := (List.append_eq_nil_iff.mp none).2
      have many := Migration.length_foldl destination input.groupName source.streams
        ⟨destination.nextId, destination.streams.map (·.title), {}, {}, [], 0⟩
      rw [List.map_eq_nil_iff.mp none] at many
      exact filled (List.length_eq_zero_iff.mp (by simpa using many.symm))

theorem loadDestination_congr {input : SessionGroupStreamMigrationInput} {source : StreamScopeFile}
    (same : disk' (path input.destinationScope) = disk (path input.destinationScope)) :
    (Request.migrate input).loadDestination path disk' source =
      (Request.migrate input).loadDestination path disk source := by
  unfold Request.loadDestination
  simp only
  rw [same]

theorem alone_of_start {result : Except JsString Outcome} (started : request.start = .ended result) :
    request.alone path disk clock = (disk, .ended result) := by
  simp [Request.alone, started, Call.finish, Call.resume]

theorem alone_of_load {result : Except JsString Outcome} (started : request.start = .loading)
    (loaded : request.load path disk clock = .ended result) :
    request.alone path disk clock = (disk, .ended result) := by
  simp [Request.alone, started, Call.finish, Call.resume, loaded]

theorem alone_of_saving {data : StreamScopeFile} {outcome : Outcome}
    (started : request.start = .loading)
    (loaded : request.load path disk clock = .saving data outcome) :
    request.alone path disk clock = (disk.set (path data.scope) data, .ended (.ok outcome)) := by
  simp [Request.alone, started, Call.finish, Call.resume, loaded]

theorem alone_of_migrating {source source' destination : StreamScopeFile}
    {result : SessionGroupStreamMigrationResult} (started : request.start = .loading)
    (loaded : request.load path disk clock = .loadingDestination source)
    (loaded' : request.loadDestination path disk source =
      .savingDestination destination source' result) :
    request.alone path disk clock =
      ((disk.set (path destination.scope) destination).set (path source'.scope) source',
        .ended (.ok (.migrated result))) := by
  simp [Request.alone, started, Call.finish, Call.resume, loaded, loaded']

end Request

end Takode.Streams
