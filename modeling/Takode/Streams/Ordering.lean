import Takode.Streams.Serial

/-!
# Edits are not lost

As long as no call saves a file that another one has read and has still to save, the
files are what the calls leave when they run one after another.
-/

namespace Takode.Streams

variable {path : JsString → JsString}

/-- The next step of a call is a rename. -/
def Phase.saves : Phase → Bool
  | .saving _ _ | .savingDestination _ _ _ | .savingSource _ _ => true
  | .loading | .loadingDestination _ | .ended _ => false

/-- The condition: a call that saves a file shares none of the files that it has still to save with
another call that has read it and has still to save it. -/
def admits (path : JsString → JsString) (s : State) : Event → Bool
  | .start _ => true
  | .resume i _ => s.calls.procs[i]?.all fun c => !c.phase.saves ||
    (List.range s.calls.procs.length).all fun j => j = i ||
      s.calls.procs[j]?.all fun d => (c.held path).all fun p => !(d.held path).contains p

/-- What a call has computed is what it would compute of the files as they are. -/
def Call.Current (path : JsString → JsString) (disk : Disk) (c : Call) : Prop :=
  (c.phase.isEnded = false → c.request.start = .loading) ∧
    match c.phase with
    | .loading | .ended _ => True
    | .saving data outcome => c.request.load path disk c.clock = .saving data outcome
    | .loadingDestination source => c.request.load path disk c.clock = .loadingDestination source
    | .savingDestination destination source' result => ∃ source,
      c.request.load path disk c.clock = .loadingDestination source ∧
        c.request.loadDestination path disk source = .savingDestination destination source' result
    | .savingSource source' _ => (∃ input, c.request = .migrate input) ∧
      source'.scope = c.request.scope ∧ source'.streams = [] ∧
        ∃ file, disk (path c.request.scope) = some file ∧ file.streams ≠ []

/-- The files that a call holds are all that matters to it. -/
theorem Call.Current.congr {disk disk' : Disk} {c : Call} (current : c.Current path disk)
    (same : ∀ p ∈ c.held path, disk' p = disk p) : c.Current path disk' := by
  obtain ⟨request, clock, before, phase⟩ := c
  obtain ⟨started, current⟩ := current
  refine ⟨started, ?_⟩
  cases phase with
  | loading | ended => trivial
  | saving data outcome =>
    exact (Request.load_congr (same _ List.mem_cons_self)).trans current
  | loadingDestination source =>
    exact (Request.load_congr (same _ List.mem_cons_self)).trans current
  | savingDestination destination source' result =>
    obtain ⟨source, loaded, loaded'⟩ := current
    obtain ⟨⟨input, rfl⟩, _⟩ := Request.load_source loaded
    refine ⟨source, (Request.load_congr (same _ (List.mem_cons_of_mem _ List.mem_cons_self))).trans
      loaded, (Request.loadDestination_congr (same _ List.mem_cons_self)).trans loaded'⟩
  | savingSource source' result =>
    obtain ⟨migrates, scope, empty, file, stored, filled⟩ := current
    exact ⟨migrates, scope, empty, file, (same _ List.mem_cons_self).trans stored, filled⟩

/-- What holds in every state of a run that meets the condition; `logical` is what the calls of the
log leave one after another. -/
structure Keeps (path : JsString → JsString) (s : State) (logical : Disk) : Prop where
  logged : Logged s
  serial : Serial path (fun _ => none) s.log logical
  current : s.calls.Each (Call.Current path)
  same : ∀ p, (∀ (i : Nat) (c : Call), s.calls.procs[i]? = some c → c.phase.settled.isSome = true →
    p ∉ c.held path) → logical p = s.calls.shared p
  emptied : ∀ (i : Nat) (c : Call) source result, s.calls.procs[i]? = some c →
    c.phase = .savingSource source result → logical (path c.request.scope) = some source
  tidy : ∀ p file, s.calls.shared p = some file ∨ logical p = some file → Tidy file

namespace Keeps

variable {s : State} {i : Nat} {c c' : Call} {logical logical' disk : Disk}

/-- A call takes a step: what has to be shown of it. -/
theorem advance (inv : Keeps path s logical) (found : s.calls.procs[i]? = some c)
    (running : c.phase.isEnded = false) (request : c'.request = c.request)
    (before : c'.before = c.before)
    (settled : ∀ outcome, c.phase.settled = some outcome →
      c'.phase.settled = some outcome ∧ c'.clock = c.clock ∧ logical' = logical)
    (quiet : c'.phase.settled = none → logical' = logical)
    (alone : ∀ outcome, c.phase.settled = none → c'.phase.settled = some outcome →
      c'.request.alone path logical c'.clock = (logical', .ended (.ok outcome)))
    (current : c'.Current path disk)
    (others : ∀ (j : Nat) (d : Call), j ≠ i → s.calls.procs[j]? = some d → ∀ p ∈ d.held path,
      disk p = s.calls.shared p ∧ logical' p = logical p)
    (same : ∀ p, (∀ (j : Nat) (d : Call), j ≠ i → s.calls.procs[j]? = some d →
      d.phase.settled.isSome = true → p ∉ d.held path) →
        (c'.phase.settled.isSome = true → p ∉ c'.held path) → logical' p = disk p)
    (emptied : ∀ source result, c'.phase = .savingSource source result →
      logical' (path c'.request.scope) = some source)
    (tidy : ∀ p file, disk p = some file ∨ logical' p = some file → Tidy file) :
    Keeps path ⟨⟨disk, s.calls.procs.set i c'⟩, s.logged i ⟨disk, s.calls.procs.set i c'⟩⟩
      logical' := by
  have mine : (s.calls.procs.set i c')[i]? = some c' :=
    (Processes.getElem?_set_eq_some found).mpr (.inl ⟨rfl, rfl⟩)
  have theirs (j : Nat) (other : j ≠ i) :
      (s.calls.procs.set i c')[j]? = s.calls.procs[j]? := List.getElem?_set_ne (Ne.symm other)
  refine ⟨inv.logged.change theirs ?_ ?_ ?_, ?_, ?_, ?_, ?_, tidy⟩
  · intro e listed
    obtain ⟨d, outcome, here, told, rfl⟩ := State.entry_eq_some.mp listed
    obtain rfl := Option.some.inj (here.symm.trans found)
    obtain ⟨told', clock, _⟩ := settled outcome told
    exact State.entry_eq_some.mpr ⟨c', outcome, mine, told', by rw [request, clock, before]⟩
  · intro d here
    obtain rfl := Option.some.inj (here.symm.trans found)
    exact running
  · intro d here j listed
    obtain rfl := Option.some.inj (mine.symm.trans here)
    rw [before] at listed
    exact State.mem_ended.mpr (inv.logged.earlier i c found j listed)
  · show Serial path (fun _ => none) (s.logged i _) logical'
    unfold State.logged
    cases told : c.phase.settled with
    | some outcome =>
      have listed := State.entry_eq_some.mpr ⟨c, outcome, found, told, rfl⟩
      rw [listed, Option.isSome_some, if_pos rfl, (settled outcome told).2.2]
      exact inv.serial
    | none =>
      have unlisted : State.entry s.calls i = none := by simp [State.entry, found, told]
      rw [unlisted, Option.isSome_none, if_neg Bool.false_ne_true]
      cases told' : c'.phase.settled with
      | none =>
        have unlisted' : State.entry ⟨disk, s.calls.procs.set i c'⟩ i = none := by
          simp only [State.entry, mine, Option.bind_some, told', Option.map_none]
        rw [unlisted', Option.toList_none, List.append_nil, quiet told']
        exact inv.serial
      | some outcome =>
        have listed : State.entry ⟨disk, s.calls.procs.set i c'⟩ i =
            some ⟨i, c'.request, c'.clock, c'.before, outcome⟩ :=
          State.entry_eq_some.mpr ⟨c', outcome, mine, told', rfl⟩
        rw [listed, Option.toList_some]
        exact inv.serial.snoc (alone outcome told told')
  · exact inv.current.step found current fun j d other here now =>
      now.congr fun p held => (others j d other here p held).1
  · intro p free
    refine same p (fun j d other here => free j d ((theirs j other).trans here)) (free i c' mine)
  · intro j d source result here phase
    by_cases self : j = i
    · subst self
      obtain rfl := Option.some.inj (mine.symm.trans here)
      exact emptied source result phase
    · have here := (theirs j self).symm.trans here
      have held : path d.request.scope ∈ d.held path := by simp [Call.held, phase]
      rw [(others j d self here _ held).2]
      exact inv.emptied j d source result here phase

end Keeps

theorem free_of_admits {s : State} {i : Nat} {c : Call} {clock : List Nat}
    (admitted : admits path s (.resume i clock) = true) (found : s.calls.procs[i]? = some c)
    (saves : c.phase.saves = true) {p : JsString} (mine : p ∈ c.held path) {j : Nat} {d : Call}
    (other : j ≠ i) (here : s.calls.procs[j]? = some d) : p ∉ d.held path := by
  simp only [admits, found, Option.all_some, saves, Bool.not_true, Bool.false_or] at admitted
  have inside := (List.getElem?_eq_some_iff.mp here).1
  have told := List.all_eq_true.mp admitted j (List.mem_range.mpr inside)
  simp only [other, decide_false, Bool.false_or, here, Option.all_some] at told
  simpa using List.all_eq_true.mp told p mine

theorem Request.start_cases (request : Request) :
    request.start = .loading ∨ ∃ result, request.start = .ended result := by
  cases request with
  | create input =>
    cases checked : input.check with
    | ok => exact .inl (by simp only [Request.start, checked])
    | error error => exact .inr ⟨.error error, by simp only [Request.start, checked]⟩
  | update input => exact .inl rfl
  | migrate input =>
    simp only [Request.start]
    split
    · exact .inr ⟨_, rfl⟩
    · exact .inl rfl

theorem Request.load_ne_savingSource {request : Request} {disk : Disk} {clock : List Nat}
    {source : StreamScopeFile} {result : SessionGroupStreamMigrationResult} :
    request.load path disk clock ≠ .savingSource source result := by
  intro loaded
  have loads := request.loads path disk clock
  rw [loaded] at loads
  cases loads

theorem Request.current_of_load {request : Request} {disk : Disk} {clock before : List Nat}
    (started : request.start = .loading) :
    Call.Current path disk ⟨request, clock, before, request.load path disk clock⟩ := by
  refine ⟨fun _ => started, ?_⟩
  cases loaded : request.load path disk clock with
  | loading | ended => trivial
  | saving | loadingDestination => rfl
  | savingDestination | savingSource =>
    have loads := request.loads path disk clock
    rw [loaded] at loads
    cases loads

theorem Request.settled_of_load {request : Request} {disk : Disk} {clock : List Nat}
    {outcome : Outcome} (settled : (request.load path disk clock).settled = some outcome) :
    request.load path disk clock = .ended (.ok outcome) := by
  cases loaded : request.load path disk clock with
  | ended result =>
    rw [loaded] at settled
    cases result with
    | ok answer =>
      cases settled
      rfl
    | error => cases settled
  | savingSource => exact absurd loaded Request.load_ne_savingSource
  | loading | loadingDestination | saving | savingDestination =>
    rw [loaded] at settled
    cases settled

namespace Keeps

variable {s : State} {i : Nat} {c : Call} {logical : Disk} {clock : List Nat}
  (inv : Keeps path s logical)
include inv

theorem load_logical {request : Request} {outcome : Outcome}
    (answers : request.load path s.calls.shared clock = .ended (.ok outcome)) :
    request.load path logical clock = .ended (.ok outcome) := by
  by_cases free : ∀ (j : Nat) (d : Call), s.calls.procs[j]? = some d →
      d.phase.settled.isSome = true → path request.scope ∉ d.held path
  · exact (Request.load_congr (inv.same _ free)).trans answers
  · push Not at free
    obtain ⟨j, d, here, settled, held⟩ := free
    have current := inv.current j d here
    have emptied := inv.emptied j d
    obtain ⟨request', clock', before, phase⟩ := d
    cases phase with
    | savingSource source result =>
      obtain ⟨_, _, _, empty, file, stored, filled⟩ := current
      have same : path request.scope = path request'.scope := List.mem_singleton.mp held
      exact Request.load_empty answers ((congrArg _ same).trans stored) filled
        ((congrArg _ same).trans (emptied source result here rfl)) empty
    | ended => exact absurd held List.not_mem_nil
    | loading | loadingDestination | saving | savingDestination => cases settled

theorem same_of_free {p : JsString} (found : s.calls.procs[i]? = some c)
    (unsettled : c.phase.settled = none)
    (free : ∀ (j : Nat) (d : Call), j ≠ i → s.calls.procs[j]? = some d →
      d.phase.settled.isSome = true → p ∉ d.held path) : logical p = s.calls.shared p := by
  refine inv.same p fun j d here settled => ?_
  by_cases self : j = i
  · subst self
    obtain rfl := Option.some.inj (here.symm.trans found)
    simp [unsettled] at settled
  · exact free j d self here settled

theorem load (found : s.calls.procs[i]? = some c) (loading : c.phase = .loading) :
    let c' := { c with clock, phase := c.request.load path s.calls.shared clock }
    Keeps path ⟨⟨s.calls.shared, s.calls.procs.set i c'⟩,
      s.logged i ⟨s.calls.shared, s.calls.procs.set i c'⟩⟩ logical := by
  have started := (inv.current i c found).1 (by simp [loading, Phase.isEnded])
  have unsettled : c.phase.settled = none := by simp [loading, Phase.settled]
  refine inv.advance found (by simp [loading, Phase.isEnded]) rfl rfl (fun outcome told => ?_)
    (fun _ => rfl) (fun outcome _ told => ?_) (Request.current_of_load started)
    (fun _ _ _ _ _ _ => ⟨rfl, rfl⟩) (fun p free _ => ?_) (fun source result told => ?_)
    inv.tidy
  · cases unsettled.symm.trans told
  · exact Request.alone_of_load started (inv.load_logical (Request.settled_of_load told))
  · exact inv.same_of_free found unsettled free
  · exact absurd told Request.load_ne_savingSource

theorem loadDestination {source : StreamScopeFile} (found : s.calls.procs[i]? = some c)
    (loading : c.phase = .loadingDestination source) :
    let c' := { c with phase := c.request.loadDestination path s.calls.shared source }
    Keeps path ⟨⟨s.calls.shared, s.calls.procs.set i c'⟩,
      s.logged i ⟨s.calls.shared, s.calls.procs.set i c'⟩⟩ logical := by
  obtain ⟨request, clock, before, phase⟩ := c
  cases loading
  obtain ⟨started, current⟩ := inv.current i _ found
  obtain ⟨⟨input, rfl⟩, _⟩ := Request.load_source current
  have unsettled : ((Request.migrate input).loadDestination path s.calls.shared source).settled =
      none := by
    rcases Request.loadDestination_cases input source with ⟨error, same⟩ | ⟨_, d, s, r, _, _, same⟩
    · rw [same]
      rfl
    · rw [same]
      rfl
  refine inv.advance found rfl rfl rfl (fun outcome told => by cases told) (fun _ => rfl)
    (fun outcome _ told => ?_) ?_ (fun _ _ _ _ _ _ => ⟨rfl, rfl⟩) (fun p free _ => ?_)
    (fun source' result told => ?_) inv.tidy
  · cases unsettled.symm.trans told
  · refine ⟨fun _ => started rfl, ?_⟩
    rcases Request.loadDestination_cases input source with ⟨error, same⟩ | ⟨_, d, s, r, _, _, same⟩
    · rw [same]
      trivial
    · simp only [same]
      exact ⟨source, current, same⟩
  · exact inv.same_of_free found rfl free
  · rw [show (Request.migrate input).loadDestination path s.calls.shared source =
      .savingSource source' result from told] at unsettled
    cases unsettled

/-- A scope is saved. -/
theorem save {data : StreamScopeFile} {outcome : Outcome} (found : s.calls.procs[i]? = some c)
    (saving : c.phase = .saving data outcome)
    (free : ∀ p ∈ c.held path, ∀ (j : Nat) (d : Call), j ≠ i → s.calls.procs[j]? = some d →
      p ∉ d.held path) :
    let c' := { c with phase := .ended (.ok outcome) }
    let disk := s.calls.shared.set (path data.scope) data
    Keeps path ⟨⟨disk, s.calls.procs.set i c'⟩, s.logged i ⟨disk, s.calls.procs.set i c'⟩⟩
      (logical.set (path data.scope) data) := by
  obtain ⟨request, clock, before, phase⟩ := c
  cases saving
  obtain ⟨started, current⟩ := inv.current i _ found
  obtain ⟨scope, tidy⟩ := Request.load_saving current
  rw [scope]
  have free := free (path request.scope) List.mem_cons_self
  have same := inv.same_of_free found rfl fun j d other here _ => free j d other here
  have tidy := tidy fun file stored => inv.tidy _ file (.inl stored)
  refine inv.advance found rfl rfl rfl (fun outcome told => by cases told) (fun told => by cases told)
    (fun outcome' _ told => ?_) ⟨fun running => (by cases running), trivial⟩
    (fun j d other here p held => ?_) (fun p free' _ => ?_) (fun _ _ told => by cases told)
    fun p file stored => ?_
  · cases told
    rw [Request.alone_of_saving (started rfl) ((Request.load_congr same).trans current), scope]
  · have distinct : p ≠ path request.scope := fun equal => free j d other here (equal ▸ held)
    exact ⟨Disk.set_of_ne _ _ distinct, Disk.set_of_ne _ _ distinct⟩
  · by_cases equal : p = path request.scope
    · rw [equal, Disk.set_self, Disk.set_self]
    · rw [Disk.set_of_ne _ _ equal, Disk.set_of_ne _ _ equal]
      exact inv.same_of_free found rfl free'
  · by_cases equal : p = path request.scope
    · rw [equal, Disk.set_self, Disk.set_self, or_self] at stored
      cases stored
      exact tidy
    · rw [Disk.set_of_ne _ _ equal, Disk.set_of_ne _ _ equal] at stored
      exact inv.tidy p file stored

theorem saveDestination {destination source' : StreamScopeFile}
    {result : SessionGroupStreamMigrationResult} (found : s.calls.procs[i]? = some c)
    (saving : c.phase = .savingDestination destination source' result)
    (free : ∀ p ∈ c.held path, ∀ (j : Nat) (d : Call), j ≠ i → s.calls.procs[j]? = some d →
      p ∉ d.held path) :
    let c' := { c with phase := .savingSource source' result }
    let disk := s.calls.shared.set (path destination.scope) destination
    Keeps path ⟨⟨disk, s.calls.procs.set i c'⟩, s.logged i ⟨disk, s.calls.procs.set i c'⟩⟩
      ((logical.set (path destination.scope) destination).set (path source'.scope) source') := by
  obtain ⟨request, clock, before, phase⟩ := c
  cases saving
  obtain ⟨started, source, loaded, loaded'⟩ := inv.current i _ found
  obtain ⟨⟨input, rfl⟩, scope, filled, ⟨file, stored, filled'⟩, tidy⟩ := Request.load_source loaded
  obtain ⟨scope', emptied, filled'', tidy'⟩ := Request.loadDestination_saving loaded'
  have sourceScope : source'.scope = input.sourceScope := by
    rw [emptied]
    exact scope
  have free' := free (path input.sourceScope) (List.mem_cons_of_mem _ List.mem_cons_self)
  have free := free (path input.destinationScope) List.mem_cons_self
  have same := inv.same_of_free found rfl fun j d other here _ => free j d other here
  have same' := inv.same_of_free found rfl fun j d other here _ => free' j d other here
  have tidy := tidy' (tidy fun file stored => inv.tidy _ file (.inl stored)) fun file stored =>
    inv.tidy _ file (.inl stored)
  rw [scope', sourceScope]
  refine inv.advance found rfl rfl rfl (fun outcome told => by cases told) (fun told => by cases told)
    (fun outcome' _ told => ?_) ⟨started, ⟨input, rfl⟩, sourceScope, by rw [emptied], ?_⟩
    (fun j d other here p held => ?_) (fun p free'' mine => ?_) (fun source'' result' told => ?_)
    fun p file stored => ?_
  · cases told
    rw [Request.alone_of_migrating (started rfl) ((Request.load_congr same').trans loaded)
      ((Request.loadDestination_congr same).trans loaded'), scope', sourceScope]
  · show ∃ file, s.calls.shared.set _ destination (path input.sourceScope) = some file ∧ _
    by_cases equal : path input.sourceScope = path input.destinationScope
    · rw [equal, Disk.set_self]
      exact ⟨destination, rfl, filled'' filled⟩
    · rw [Disk.set_of_ne _ _ equal]
      exact ⟨file, stored, filled'⟩
  · have distinct : p ≠ path input.destinationScope := fun equal =>
      free j d other here (equal ▸ held)
    have distinct' : p ≠ path input.sourceScope := fun equal => free' j d other here (equal ▸ held)
    refine ⟨Disk.set_of_ne _ _ distinct, ?_⟩
    rw [Disk.set_of_ne _ _ distinct', Disk.set_of_ne _ _ distinct]
  · have distinct' : p ≠ path input.sourceScope := fun equal =>
      mine rfl (List.mem_singleton.mpr equal)
    rw [Disk.set_of_ne _ _ distinct']
    by_cases equal : p = path input.destinationScope
    · rw [equal, Disk.set_self, Disk.set_self]
    · rw [Disk.set_of_ne _ _ equal, Disk.set_of_ne _ _ equal]
      exact inv.same_of_free found rfl free''
  · cases told
    exact Disk.set_self _ _ _
  · by_cases equal : p = path input.sourceScope
    · rw [← equal, Disk.set_self] at stored
      rcases stored with real | logical
      · by_cases equal' : p = path input.destinationScope
        · rw [← equal', Disk.set_self] at real
          cases real
          exact tidy.1
        · rw [Disk.set_of_ne _ _ equal'] at real
          exact inv.tidy p file (.inl real)
      · cases logical
        exact tidy.2
    · rw [Disk.set_of_ne _ _ equal] at stored
      by_cases equal' : p = path input.destinationScope
      · rw [equal', Disk.set_self, Disk.set_self, or_self] at stored
        cases stored
        exact tidy.1
      · rw [Disk.set_of_ne _ _ equal', Disk.set_of_ne _ _ equal'] at stored
        exact inv.tidy p file stored

theorem saveSource {source : StreamScopeFile} {result : SessionGroupStreamMigrationResult}
    (found : s.calls.procs[i]? = some c) (saving : c.phase = .savingSource source result)
    (free : ∀ p ∈ c.held path, ∀ (j : Nat) (d : Call), j ≠ i → s.calls.procs[j]? = some d →
      p ∉ d.held path) :
    let c' := { c with phase := .ended (.ok (.migrated result)) }
    let disk := s.calls.shared.set (path source.scope) source
    Keeps path ⟨⟨disk, s.calls.procs.set i c'⟩, s.logged i ⟨disk, s.calls.procs.set i c'⟩⟩
      logical := by
  obtain ⟨request, clock, before, phase⟩ := c
  cases saving
  obtain ⟨started, _, scope, _⟩ := inv.current i _ found
  have scope : source.scope = request.scope := scope
  have free := free (path request.scope) List.mem_cons_self
  have emptied : logical (path request.scope) = some source := inv.emptied i _ _ _ found rfl
  rw [scope]
  refine inv.advance found rfl rfl rfl (fun outcome told => ⟨told, rfl, rfl⟩) (fun _ => rfl)
    (fun outcome' none _ => by cases none) ⟨fun running => (by cases running), trivial⟩
    (fun j d other here p held => ⟨?_, rfl⟩) (fun p free' _ => ?_) (fun _ _ told => by cases told)
    fun p file stored => ?_
  · exact Disk.set_of_ne _ _ fun equal => free j d other here (equal ▸ held)
  · by_cases equal : p = path request.scope
    · rw [equal, Disk.set_self, emptied]
    · rw [Disk.set_of_ne _ _ equal]
      refine inv.same p fun j d here settled => ?_
      by_cases self : j = i
      · subst self
        obtain rfl := Option.some.inj (here.symm.trans found)
        exact fun held => equal (List.mem_singleton.mp held)
      · exact free' j d self here settled
  · rcases stored with real | logical
    · by_cases equal : p = path request.scope
      · rw [equal, Disk.set_self] at real
        exact inv.tidy _ file (.inr (emptied.trans real))
      · rw [Disk.set_of_ne _ _ equal] at real
        exact inv.tidy p file (.inl real)
    · exact inv.tidy p file (.inr logical)

theorem resume {t : State} (admitted : admits path s (.resume i clock) = true)
    (taken : s.step path (.resume i clock) = some t) : ∃ logical, Keeps path t logical := by
  obtain ⟨calls, stepped, rfl⟩ := Option.map_eq_some_iff.mp taken
  obtain ⟨c, disk, c', found, became, rfl⟩ := Processes.stepAt_eq_some.mp stepped
  have free (saves : c.phase.saves = true) : ∀ p ∈ c.held path, ∀ (j : Nat) (d : Call), j ≠ i →
      s.calls.procs[j]? = some d → p ∉ d.held path := fun p mine j d other here =>
    free_of_admits admitted found saves mine other here
  unfold Call.resume at became
  split at became
  · cases became
    exact ⟨_, inv.load found ‹_›⟩
  · cases became
    exact ⟨_, inv.loadDestination found ‹_›⟩
  · rename_i saving
    cases became
    exact ⟨_, inv.save found saving (free (by rw [saving]; rfl))⟩
  · rename_i saving
    cases became
    exact ⟨_, inv.saveDestination found saving (free (by rw [saving]; rfl))⟩
  · rename_i saving
    cases became
    exact ⟨_, inv.saveSource found saving (free (by rw [saving]; rfl))⟩
  · cases became

theorem start {t : State} {request : Request} (taken : s.step path (.start request) = some t) :
    Keeps path t logical := by
  cases taken
  have mine : (s.calls.procs ++ [⟨request, [], s.ended, request.start⟩])[s.calls.procs.length]? =
      some ⟨request, [], s.ended, request.start⟩ := by simp
  have old {j : Nat} {d : Call} (here : (s.calls.procs ++
      [⟨request, [], s.ended, request.start⟩])[j]? = some d) : s.calls.procs[j]? = some d ∨
      d = ⟨request, [], s.ended, request.start⟩ :=
    (Processes.getElem?_spawn_eq_some.mp here).imp_right And.right
  have unlisted : State.entry s.calls s.calls.procs.length = none := by simp [State.entry]
  refine ⟨inv.logged.change (fun j other => ?_) (fun e listed => ?_) (fun d here => ?_)
    (fun d here => ?_), ?_, inv.current.spawn ?_, fun p free => ?_,
    fun j d source result here phase => ?_, inv.tidy⟩
  · rcases Nat.lt_or_gt_of_ne other with before | beyond
    · exact List.getElem?_append_left before
    · show (s.calls.procs ++ [_])[j]? = _
      rw [List.getElem?_eq_none (Nat.le_of_lt beyond), List.getElem?_eq_none]
      simpa using Nat.succ_le_of_lt beyond
  · cases unlisted.symm.trans listed
  · simp at here
  · obtain rfl := Option.some.inj (mine.symm.trans here)
    exact fun j inside => inside
  · show Serial path (fun _ => none) (s.logged s.calls.procs.length _) logical
    unfold State.logged
    rw [unlisted, Option.isSome_none, if_neg Bool.false_ne_true]
    cases started : request.start.settled with
    | none =>
      have unlisted' : State.entry (s.calls.spawn ⟨request, [], s.ended, request.start⟩)
          s.calls.procs.length = none := by simp [State.entry, Processes.spawn, started]
      rw [unlisted', Option.toList_none, List.append_nil]
      exact inv.serial
    | some outcome =>
      rw [State.entry_eq_some.mpr ⟨_, outcome, mine, started, rfl⟩, Option.toList_some]
      refine inv.serial.snoc (Request.alone_of_start ?_)
      rcases request.start_cases with loading | ⟨result, ended⟩
      · rw [loading] at started
        cases started
      · rw [ended] at started ⊢
        cases result with
        | ok answer =>
          cases started
          rfl
        | error => cases started
  · refine ⟨fun running => ?_, ?_⟩
    · rcases request.start_cases with loading | ⟨result, ended⟩
      · exact loading
      · simp [ended, Phase.isEnded] at running
    · rcases request.start_cases with loading | ⟨result, ended⟩
      · simp only [loading]
      · simp only [ended]
  · refine inv.same p fun j d here settled => ?_
    exact free j d (Processes.getElem?_spawn_eq_some.mpr (.inl here)) settled
  · rcases old here with here | rfl
    · exact inv.emptied j d source result here phase
    · rcases request.start_cases with loading | ⟨result, ended⟩
      · cases loading.symm.trans phase
      · cases ended.symm.trans phase

end Keeps

theorem keeps_of_reaches {s : State}
    (reached : (streamStore path).Reaches (fun s event => admits path s event = true) s) :
    ∃ logical, Keeps path s logical := by
  induction reached with
  | start =>
    refine ⟨fun _ => none, ⟨fun i e listed => ?_, ?_, .nil, fun i c here => ?_, .nil⟩, rfl,
      fun i c here => ?_, fun _ _ => rfl, fun i c _ _ here => ?_, fun p file stored => ?_⟩
    · cases listed
    · simp [streamStore]
    · cases here
    · cases here
    · cases here
    · rcases stored with none | none <;> cases none
  | @step s event t _ admitted taken inv =>
    obtain ⟨logical, inv⟩ := inv
    cases event with
    | start request => exact ⟨logical, inv.start taken⟩
    | resume i clock => exact inv.resume admitted taken

/-- When all calls have ended, the files are what the calls that resolved leave when they run one
after another, each with its result; no call comes before one that had ended when it started. -/
structure Serialized (path : JsString → JsString) (s : State) : Prop where
  serial : Serial path (fun _ => none) s.log s.calls.shared
  resolved : ∀ (i : Nat) (c : Call) (outcome : Outcome), s.calls.procs[i]? = some c →
    (c.phase = .ended (.ok outcome) ↔ ⟨i, c.request, c.clock, c.before, outcome⟩ ∈ s.log)
  once : (s.log.map (·.index)).Nodup
  ordered : s.log.Pairwise fun e e' => e'.index ∉ e.before

/-- In every run that meets the condition no edit is lost, and no two streams of a scope share an id
or a slug. -/
theorem stream_edits_kept (path : JsString → JsString) (s : State)
    (reached : (streamStore path).Reaches (fun s event => admits path s event = true) s) :
    (∀ p file, s.calls.shared p = some file → Tidy file) ∧
      ((∀ c ∈ s.calls.procs, c.phase.isEnded = true) → Serialized path s) := by
  obtain ⟨logical, inv⟩ := keeps_of_reaches reached
  refine ⟨fun p file stored => inv.tidy p file (.inl stored), fun ended => ?_⟩
  have same : logical = s.calls.shared := by
    funext p
    refine inv.same p fun i c here settled held => ?_
    have ended := ended c (List.mem_of_getElem? here)
    unfold Call.held at held
    split at held <;> simp_all [Phase.isEnded]
  refine ⟨same ▸ inv.serial, fun i c outcome here => ⟨fun told => ?_, fun listed => ?_⟩,
    inv.logged.distinct, inv.logged.ordered⟩
  · exact inv.logged.listed i _ (State.entry_eq_some.mpr ⟨c, outcome, here, by rw [told]; rfl, rfl⟩)
  · obtain ⟨d, outcome', here', told, same⟩ :=
      State.entry_eq_some.mp (inv.logged.known _ listed)
    obtain rfl := Option.some.inj (here.symm.trans here')
    have ended := ended c (List.mem_of_getElem? here)
    cases same
    obtain ⟨request, clock, before, phase⟩ := c
    cases phase with
    | ended result =>
      cases result with
      | ok answer =>
        cases told
        rfl
      | error => cases told
    | loading | loadingDestination | saving | savingDestination | savingSource => cases ended

theorem Serial.eq_foldl {disk last : Disk} {log : List Entry} (serial : Serial path disk log last) :
    last = log.foldl (fun disk e => (e.request.alone path disk e.clock).1) disk := by
  induction log generalizing disk with
  | nil => exact serial.symm
  | cons e log ih =>
    obtain ⟨next, done, rest⟩ := serial
    rw [List.foldl_cons, done]
    exact ih rest

section Runs

def groupScope (group : String) : JsString := js "local:session-group:" ++ js group

def moving : SessionGroupStreamMigrationInput where
  sourceGroupId := js "a"
  destinationGroupId := js " b "
  sourceGroupName := some (js "A")

/-- Two streams of one title, the second of which is archived, join one of that title in another
group. -/
def plainRun : List Event :=
  [.start (.create { title := js "Build", scope := groupScope "a" }), .resume 0 [1], .resume 0 [],
    .start (.create { title := js "Build", scope := groupScope "a" }),
    .start (.create { title := js " Build", scope := groupScope "b" }), .resume 1 [2], .resume 2 [3],
    .resume 2 [], .resume 1 [],
    .start (.update (archiveStream (js "build-2") (groupScope "a") none)), .resume 3 [4],
    .resume 3 [],
    .start (.migrate moving), .resume 4 [], .resume 4 [], .resume 4 [], .resume 4 []]

theorem plain_edits_kept : ∃ s,
    (streamStore id).Reaches (fun s event => admits id s event = true) s ∧ Serialized id s ∧
      (s.calls.shared (groupScope "b")).map (fun file => file.streams.map fun stream =>
          [stream.id, stream.slug, stream.title, stream.status]) =
        some [[js "s-1", js "build", js "Build", js "active"],
          [js "s-2", js "a-build", js "A-Build", js "active"],
          [js "s-3", js "a-build-2", js "A-Build-2", js "archived"]] := by
  obtain ⟨s, reached, ended, streams⟩ := (streamStore id).exists_reaches_of_run (admits id)
    (fun s => (∀ c ∈ s.calls.procs, c.phase.isEnded = true) ∧
      (s.calls.shared (groupScope "b")).map (fun file => file.streams.map fun stream =>
          [stream.id, stream.slug, stream.title, stream.status]) =
        some [[js "s-1", js "build", js "Build", js "active"],
          [js "s-2", js "a-build", js "A-Build", js "active"],
          [js "s-3", js "a-build-2", js "A-Build-2", js "archived"]]) plainRun (by decide +kernel)
  exact ⟨s, reached, (stream_edits_kept id s reached).2 ended, streams⟩

def firstCreate : Request := .create { title := js "One", scope := js "project" }
def secondCreate : Request := .create { title := js "Two", scope := js "project" }

/-- Both calls load the scope before either has saved it. -/
def lostRun : List Event :=
  [.start firstCreate, .start secondCreate, .resume 0 [1], .resume 1 [1], .resume 0 [], .resume 1 []]

theorem both_created (e e' : Entry) (last : Disk)
    (calls : [(e.request, e.clock), (e'.request, e'.clock)] = [(firstCreate, [1]), (secondCreate, [1])] ∨
      [(e.request, e.clock), (e'.request, e'.clock)] = [(secondCreate, [1]), (firstCreate, [1])])
    (serial : Serial id (fun _ => none) [e, e'] last) :
    (last (js "project")).map (fun file => file.streams.length) = some 2 := by
  obtain ⟨index, request, clock, before, outcome⟩ := e
  obtain ⟨index', request', clock', before', outcome'⟩ := e'
  rw [serial.eq_foldl]
  rcases calls with same | same
  · cases same
    show (((secondCreate.alone id (firstCreate.alone id (fun _ => none) [1]).1 [1]).1
      (js "project")).map fun file => file.streams.length) = some 2
    decide +kernel
  · cases same
    show (((firstCreate.alone id (secondCreate.alone id (fun _ => none) [1]).1 [1]).1
      (js "project")).map fun file => file.streams.length) = some 2
    decide +kernel

/-- Both calls resolve, with streams of one id, and one of the streams is lost: neither order of the
calls leaves what is stored. -/
theorem stream_edit_lost : ∃ s, (streamStore id).Reachable s ∧
    (∃ one two : StreamRecord, s.calls.procs.map (·.phase) =
      [.ended (.ok (.stream (some one))), .ended (.ok (.stream (some two)))] ∧
        one.title = js "One" ∧ two.title = js "Two" ∧ one.id = two.id) ∧
    (s.calls.shared (js "project")).map (fun file => file.streams.map (·.title)) =
      some [js "Two"] ∧
    ∀ e e' : Entry,
      [(e.request, e.clock), (e'.request, e'.clock)] = [(firstCreate, [1]), (secondCreate, [1])] ∨
      [(e.request, e.clock), (e'.request, e'.clock)] = [(secondCreate, [1]), (firstCreate, [1])] →
        ¬Serial id (fun _ => none) [e, e'] s.calls.shared := by
  let created (title : JsString) (slug : JsString) : StreamRecord :=
    { id := js "s-1", slug, title, scope := js "project", status := js "active", createdAt := 1,
      updatedAt := 1, tags := none, current := { summary := [] } }
  obtain ⟨s, reached, phases, titles⟩ := (streamStore id).exists_reaches_of_run (fun _ _ => true)
    (fun s => s.calls.procs.map (·.phase) =
        [.ended (.ok (.stream (some (created (js "One") (js "one"))))),
          .ended (.ok (.stream (some (created (js "Two") (js "two")))))] ∧
      (s.calls.shared (js "project")).map (fun file => file.streams.map (·.title)) =
        some [js "Two"]) lostRun (by decide +kernel)
  refine ⟨s, reached.reachable, ⟨_, _, phases, rfl, rfl, rfl⟩, titles, fun e e' calls serial => ?_⟩
  have both := both_created e e' _ calls serial
  have one := congrArg (fun titles : Option (List JsString) => titles.map (·.length)) titles
  simp only [Option.map_map, Function.comp_def, List.length_map] at one
  cases both.symm.trans one

end Runs

end Takode.Streams
