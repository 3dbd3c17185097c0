import Mathlib.Data.List.Sort
import Mathlib.Data.Nat.Digits.Defs
import Takode.Lib.Json

/-!
# Changes of keyed lists

A list of entries with unique ids, sent as what changed since a list that the browser holds. The
entries are the objects that JSON gives, so that none of them is `undefined` or `null`.
-/

namespace Takode.KeyedLists

/-- The two 32-bit streams of `snapshotTextHash` after a text. -/
def hashStreams (text : JsString) : UInt32 × UInt32 :=
  text.foldl (fun (h : UInt32 × UInt32) ch =>
    ((h.1 ^^^ ch.toUInt32) * 2654435761, (h.2 ^^^ ch.toUInt32) * 1597334677))
    (0xdeadbeef, 0x41c6ce57)

/-- What the hash says of a text: its length after the two mixed streams. -/
def hashParts (text : JsString) : UInt32 × UInt32 × Nat :=
  let (h1, h2) := hashStreams text
  let mix (a b : UInt32) : UInt32 :=
    ((a ^^^ (a >>> 16)) * (2246822507 : UInt32)) ^^^ ((b ^^^ (b >>> 13)) * (3266489909 : UInt32))
  let h1 := mix h1 h2
  let h2 := mix h2 h1
  (h2, h1, text.length)

/-- `n.toString(36)`. -/
def radix36 (n : Nat) : JsString :=
  if n = 0 then js "0"
  else (Nat.digits 36 n).reverse.map fun digit =>
    if digit < 10 then 48 + digit.toUInt16 else 87 + digit.toUInt16

def snapshotTextHash (text : JsString) : JsString :=
  let (h2, h1, length) := hashParts text
  radix36 h2.toNat ++ js "-" ++ radix36 h1.toNat ++ js "-" ++ radix36 length

structure KeyedListDelta (T : Type) where
  base : JsString
  hash : JsString
  upserts : List T
  removed : List JsString
  order : Option (List JsString)
deriving DecidableEq

variable {T : Type}

/-- `new Map` of the entries of a list under their ids. -/
def byId (idOf : T → JsString) (list : List T) : JsMap JsString T :=
  Record.ofEntries (list.map fun entry => (idOf entry, entry))

/-- The loop over the base: changed entries replace held ones, and the others come last. -/
def replaceInPlace (idOf : T → JsString) (removed : JsSet JsString) :
    List T → JsMap JsString T → List T
  | [], upserts => upserts.values
  | entry :: rest, upserts =>
    let id := idOf entry
    if removed.has id then replaceInPlace idOf removed rest upserts
    else
      match upserts.get? id with
      | none => entry :: replaceInPlace idOf removed rest upserts
      | some changed => changed :: replaceInPlace idOf removed rest (upserts.delete id)

def applyKeyedListDelta (base : List T) (delta : KeyedListDelta T) (idOf : T → JsString) :
    Option (List T) :=
  let removed := JsSet.ofList delta.removed
  let upserts := byId idOf delta.upserts
  match delta.order with
  | some order =>
    let held := byId idOf base
    order.mapM fun id =>
      (upserts.get? id).or (if removed.has id then none else held.get? id)
  | none => some (replaceInPlace idOf removed base upserts)

structure ListVersion where
  hash : JsString
  ids : List JsString
  /-- Hash of each entry's JSON, by position. -/
  entryHashes : List JsString
  /-- Ids are unique, so deltas can address entries by id. -/
  keyed : Bool
deriving DecidableEq

/-- What the loop of `KeyedListVersions.delta` keeps. -/
structure DeltaState (T : Type) where
  upserts : List T
  previousBaseIndex : Int
  appending : Bool
  ordered : Bool

/-- One round of the loop, for an entry with its id and its hash. -/
def deltaRound (base : ListVersion) (state : DeltaState T) (item : JsString × JsString × T) :
    DeltaState T :=
  match base.ids.idxOf? item.1 with
  | none => { state with appending := true, upserts := state.upserts ++ [item.2.2] }
  | some baseIndex =>
    let ordered :=
      if state.appending || baseIndex < state.previousBaseIndex then false else state.ordered
    let upserts :=
      if base.entryHashes[baseIndex]? ≠ some item.2.1 then state.upserts ++ [item.2.2]
      else state.upserts
    { state with ordered, previousBaseIndex := baseIndex, upserts }

/-- `KeyedListVersions.delta`. -/
def delta (base current : ListVersion) (list : List T) : Option (KeyedListDelta T) :=
  if !base.keyed || !current.keyed then none
  else
    let state := (current.ids.zip (current.entryHashes.zip list)).foldl (deltaRound base)
      ⟨[], -1, false, true⟩
    if state.upserts.length = list.length && 0 < list.length then none
    else some
      { base := base.hash
        hash := current.hash
        upserts := state.upserts
        removed := base.ids.filter fun id => !current.ids.contains id
        order := if state.ordered then none else some current.ids }

/-- A version as `remember` makes it. -/
def ListVersion.of (idOf : T → JsString) (stringify : T → JsString) (hash : JsString)
    (list : List T) : ListVersion where
  hash := hash
  ids := list.map idOf
  entryHashes := list.map fun entry => snapshotTextHash (stringify entry)
  keyed := decide (list.map idOf).Nodup

section Loop

variable {base : ListVersion} {idOf hashOf : T → JsString}

/-- An entry that the list of the version has not, or has with another hash. -/
def ListVersion.changed (base : ListVersion) (idOf hashOf : T → JsString) (entry : T) : Bool :=
  (base.ids.idxOf? (idOf entry)).all fun i => base.entryHashes[i]? ≠ some (hashOf entry)

/-- The loop over a list of entries. -/
def deltaLoop (base : ListVersion) (idOf hashOf : T → JsString) (state : DeltaState T)
    (list : List T) : DeltaState T :=
  list.foldl (fun state entry => deltaRound base state (idOf entry, hashOf entry, entry)) state

theorem zip_items (list : List T) :
    (list.map idOf).zip ((list.map hashOf).zip list) =
      list.map fun entry => (idOf entry, hashOf entry, entry) := by
  induction list with
  | nil => rfl
  | cons entry rest ih => simp [ih]

theorem deltaLoop_upserts (list : List T) (state : DeltaState T) :
    (deltaLoop base idOf hashOf state list).upserts =
      state.upserts ++ list.filter (base.changed idOf hashOf) := by
  induction list generalizing state with
  | nil => simp [deltaLoop]
  | cons entry rest ih =>
    have round : (deltaRound base state (idOf entry, hashOf entry, entry)).upserts =
        state.upserts ++ [entry].filter (base.changed idOf hashOf) := by
      unfold deltaRound ListVersion.changed
      cases place : base.ids.idxOf? (idOf entry) with
      | none => simp [place]
      | some i =>
        by_cases same : base.entryHashes[i]? = some (hashOf entry)
        · simp [place, same]
        · simp [place, same]
    have tail := ih (deltaRound base state (idOf entry, hashOf entry, entry))
    rw [round, List.append_assoc, ← List.filter_append] at tail
    exact tail

theorem idxOf?_eq_some {ids : List JsString} {id : JsString} {i : Nat} :
    ids.idxOf? id = some i ↔ id ∈ ids ∧ ids.idxOf id = i := by
  induction ids generalizing i with
  | nil => simp
  | cons other ids ih =>
    rw [List.idxOf?_cons, List.idxOf_cons]
    by_cases same : other = id
    · simp [same]
    · have missed : (other == id) = false := by simpa using same
      simp only [missed, Option.map_eq_some_iff, ih, List.mem_cons, Ne.symm same, false_or,
        Bool.false_eq_true, if_false]
      constructor
      · rintro ⟨j, ⟨inside, rfl⟩, rfl⟩
        exact ⟨inside, rfl⟩
      · rintro ⟨inside, rfl⟩
        exact ⟨_, ⟨inside, rfl⟩, rfl⟩

theorem deltaLoop_ordered (list : List T) (state : DeltaState T)
    (ordered : (deltaLoop base idOf hashOf state list).ordered = true) :
    state.ordered = true ∧ ∃ held new, list = held ++ new ∧
      (∀ entry ∈ new, idOf entry ∉ base.ids) ∧ (∀ entry ∈ held, idOf entry ∈ base.ids) ∧
      (state.appending = true → held = []) ∧
      ((held.map idOf).Pairwise fun a b => base.ids.idxOf a ≤ base.ids.idxOf b) ∧
      ∀ entry ∈ held, state.previousBaseIndex ≤ base.ids.idxOf (idOf entry) := by
  induction list generalizing state with
  | nil =>
    exact ⟨ordered, [], [], rfl, by simp, by simp, fun _ => rfl, List.Pairwise.nil, by simp⟩
  | cons entry rest ih =>
    obtain ⟨still, held, new, split, fresh, known, appended, sorted, above⟩ :=
      ih (deltaRound base state (idOf entry, hashOf entry, entry)) ordered
    unfold deltaRound at still appended above
    cases place : base.ids.idxOf? (idOf entry) with
    | none =>
      simp only [place] at still appended above
      have none_held := appended trivial
      subst none_held
      refine ⟨still, [], entry :: new, by rw [split]; rfl, ?_, by simp, fun _ => rfl,
        List.Pairwise.nil, by simp⟩
      intro other inside
      rcases List.mem_cons.mp inside with rfl | inside
      · exact List.idxOf?_eq_none_iff.mp place
      · exact fresh other inside
    | some i =>
      simp only [place] at still appended above
      obtain ⟨here, index⟩ := idxOf?_eq_some.mp place
      split at still
      · cases still
      · rename_i forward
        rw [Bool.or_eq_true, decide_eq_true_eq, not_or, not_lt] at forward
        refine ⟨still, entry :: held, new, by rw [split]; rfl, fresh, ?_,
          fun appending => absurd appending forward.1, List.pairwise_cons.mpr ⟨?_, sorted⟩, ?_⟩
        · exact List.forall_mem_cons.mpr ⟨here, known⟩
        · intro id inside
          obtain ⟨other, there, rfl⟩ := List.mem_map.mp inside
          rw [index]
          exact_mod_cast above other there
        · intro other inside
          rcases List.mem_cons.mp inside with rfl | inside
          · rw [index]
            exact forward.2
          · exact forward.2.trans (above other inside)

theorem sublist_of_sorted {ids base : List JsString} (known : ∀ id ∈ ids, id ∈ base)
    (sorted : ids.Pairwise fun a b => base.idxOf a ≤ base.idxOf b) (distinct : ids.Nodup) :
    ids.Sublist base := by
  induction base generalizing ids with
  | nil =>
    have empty : ids = [] := List.eq_nil_iff_forall_not_mem.mpr fun id inside => by
      cases known id inside
    rw [empty]
  | cons first base ih =>
    -- Among ids other than the first one the order is that of the rest.
    have rest {ids : List JsString} (other : ∀ id ∈ ids, id ≠ first)
        (known : ∀ id ∈ ids, id ∈ first :: base) (distinct : ids.Nodup)
        (sorted : ids.Pairwise fun a b => (first :: base).idxOf a ≤ (first :: base).idxOf b) :
        ids.Sublist base := by
      refine ih (fun id inside => ?_) (sorted.imp_of_mem fun {a b} ha hb le => ?_) distinct
      · exact (List.mem_cons.mp (known id inside)).resolve_left (other id inside)
      · rw [List.idxOf_cons_ne _ (Ne.symm (other a ha)),
          List.idxOf_cons_ne _ (Ne.symm (other b hb))] at le
        exact Nat.succ_le_succ_iff.mp le
    cases ids with
    | nil => exact List.nil_sublist _
    | cons id ids =>
      obtain ⟨before, sorted'⟩ := List.pairwise_cons.mp sorted
      obtain ⟨absent, distinct'⟩ := List.nodup_cons.mp distinct
      by_cases same : id = first
      · subst same
        refine List.Sublist.cons_cons _ (rest (fun other inside same => ?_)
          (fun other inside => known other (List.mem_cons_of_mem _ inside)) distinct' sorted')
        exact absent (same ▸ inside)
      · refine (rest (fun other inside equal => ?_) known distinct sorted).cons _
        rcases List.mem_cons.mp inside with rfl | inside
        · exact same equal
        · have le := before other inside
          rw [equal, List.idxOf_cons_self, List.idxOf_cons_ne _ (Ne.symm same)] at le
          omega

/-- Of distinct ids, those of a part in order are the part. -/
theorem filter_eq_of_sublist {ids base : List JsString} (sublist : ids.Sublist base)
    (distinct : base.Nodup) : base.filter (fun id => ids.contains id) = ids := by
  induction sublist with
  | slnil => rfl
  | @cons ids base first sublist ih =>
    obtain ⟨absent, distinct⟩ := List.nodup_cons.mp distinct
    rw [List.filter_cons_of_neg, ih distinct]
    simpa using fun inside => absent (sublist.mem inside)
  | @cons_cons ids base first sublist ih =>
    obtain ⟨absent, distinct⟩ := List.nodup_cons.mp distinct
    rw [List.filter_cons_of_pos (by simp)]
    congr 1
    refine (List.filter_congr fun id inside => ?_).trans (ih distinct)
    have other : id ≠ first := fun same => absent (same ▸ inside)
    simp [other]

end Loop

section Applying

variable {idOf : T → JsString} {list : List T} {id : JsString} {entry : T}

theorem byId_entries (distinct : (list.map idOf).Nodup) :
    (byId idOf list).entries = list.map fun entry => (idOf entry, entry) :=
  Record.entries_ofEntries (by simpa [Function.comp_def] using distinct)

theorem get?_byId (distinct : (list.map idOf).Nodup) :
    (byId idOf list).get? id = some entry ↔ entry ∈ list ∧ idOf entry = id := by
  rw [← JsMap.mem_entries, byId_entries distinct, List.mem_map]
  constructor
  · rintro ⟨other, inside, same⟩
    cases same
    exact ⟨inside, rfl⟩
  · rintro ⟨inside, rfl⟩
    exact ⟨entry, inside, rfl⟩

/-- The loop over the base gives the held entries that stay, changed or not, and then what is new. -/
theorem replaceInPlace_eq {removed : JsSet JsString} {changed : T → Bool} {result : T → T}
    (unchanged : ∀ entry, changed entry = true → result entry = entry) :
    ∀ (base held new : List T) (upserts : JsMap JsString T),
      (base.map idOf).filter (fun id => !removed.has id) = held.map idOf →
      ((held ++ new).map idOf).Nodup →
      upserts.entries = ((held ++ new).filter changed).map (fun entry => (idOf entry, entry)) →
      (∀ entry ∈ new, changed entry = true) →
      (∀ entry ∈ held, ∀ old ∈ base, idOf old = idOf entry → changed entry = false →
        result entry = old) →
      replaceInPlace idOf removed base upserts = held.map result ++ new
  | [], held, new, upserts, kept, _, listed, fresh, _ => by
    have none_held : held = [] := List.map_eq_nil_iff.mp kept.symm
    subst none_held
    have all : new.filter changed = new := List.filter_eq_self.mpr fresh
    show upserts.entries.map Prod.snd = new
    rw [listed, List.nil_append, all, List.map_map]
    exact List.map_id _
  | old :: base, held, new, upserts, kept, distinct, listed, fresh, same => by
    have later : ∀ {held : List T}, (∀ entry ∈ held, ∀ old' ∈ old :: base, idOf old' = idOf entry →
        changed entry = false → result entry = old') → ∀ entry ∈ held, ∀ old' ∈ base,
          idOf old' = idOf entry → changed entry = false → result entry = old' :=
      fun same entry inside old' there => same entry inside old' (List.mem_cons_of_mem _ there)
    unfold replaceInPlace
    by_cases gone : removed.has (idOf old) = true
    · rw [List.map_cons, List.filter_cons_of_neg (by simp [gone])] at kept
      simp only [gone, if_true]
      exact replaceInPlace_eq unchanged base held new upserts kept distinct listed fresh (later same)
    · rw [List.map_cons, List.filter_cons_of_pos (by simp [gone])] at kept
      obtain ⟨entry, held, rfl⟩ : ∃ entry held', held = entry :: held' := by
        cases held with
        | nil => cases kept
        | cons entry held => exact ⟨entry, held, rfl⟩
      rw [List.map_cons, List.cons.injEq] at kept
      obtain ⟨sameId, kept⟩ := kept
      have distinct' := distinct
      rw [List.cons_append, List.map_cons, List.nodup_cons] at distinct'
      have rest := later fun other inside => same other (List.mem_cons_of_mem _ inside)
      simp only [gone]
      cases up : changed entry with
      | true =>
        have entries : upserts.entries = (idOf old, entry) ::
            ((held ++ new).filter changed).map fun entry => (idOf entry, entry) := by
          rw [listed, List.cons_append, List.filter_cons_of_pos up, sameId]
          rfl
        have found : upserts.get? (idOf old) = some entry :=
          JsMap.mem_entries.mp (entries ▸ List.mem_cons_self)
        rw [found]
        have deleted : (upserts.delete (idOf old)).entries =
            ((held ++ new).filter changed).map fun entry => (idOf entry, entry) :=
          JsMap.entries_delete_head entries
        show entry :: _ = _
        rw [replaceInPlace_eq unchanged base held new _ kept distinct'.2 deleted fresh rest,
          List.map_cons, unchanged entry up]
        rfl
      | false =>
        have entries : upserts.entries =
            ((held ++ new).filter changed).map fun entry => (idOf entry, entry) := by
          rw [listed, List.cons_append, List.filter_cons_of_neg (by simp [up])]
        have missing : upserts.get? (idOf old) = none := by
          rw [JsMap.get?, JsMap.find_eq_none, entries, List.map_map, sameId]
          intro listed
          obtain ⟨other, inside, equal⟩ := List.mem_map.mp listed
          exact distinct'.1 (List.mem_map.mpr ⟨other, List.mem_of_mem_filter inside, equal⟩)
        rw [missing]
        show old :: _ = _
        rw [replaceInPlace_eq unchanged base held new _ kept distinct'.2 entries fresh rest,
          List.map_cons, same entry List.mem_cons_self old List.mem_cons_self sameId up]
        rfl

/-- The delta of two versions. -/
structure DeltaOf (idOf stringify : T → JsString) (base list : List T)
    (delta : KeyedListDelta T) : Prop where
  upserts : delta.upserts = list.filter fun entry => !base.any fun old =>
    idOf old = idOf entry ∧
      snapshotTextHash (stringify old) = snapshotTextHash (stringify entry)
  removed : delta.removed = (base.map idOf).filter fun id => !(list.map idOf).contains id
  order : ∀ order, delta.order = some order → order = list.map idOf
  /-- Without an order, what is held comes first, in the order of the base. -/
  ordered : delta.order = none → ∃ held new, list = held ++ new ∧
    (held.map idOf).Sublist (base.map idOf) ∧ ∀ entry ∈ new, idOf entry ∉ base.map idOf

/-- An entry whose hash is that of the held one is taken from the base. -/
def merged (idOf stringify : T → JsString) (base : List T) (entry : T) : T :=
  (base.find? fun old => idOf old = idOf entry ∧
    snapshotTextHash (stringify old) = snapshotTextHash (stringify entry)).getD entry

end Applying

section Correct

variable {idOf stringify : T → JsString} {base list : List T} {result : KeyedListDelta T}
  {hash hash' : JsString}

theorem changed_of (distinct : (base.map idOf).Nodup) (entry : T) :
    (ListVersion.of idOf stringify hash base).changed idOf
        (fun entry => snapshotTextHash (stringify entry)) entry =
      !base.any fun old => idOf old = idOf entry ∧
        snapshotTextHash (stringify old) = snapshotTextHash (stringify entry) := by
  unfold ListVersion.changed ListVersion.of
  cases place : (base.map idOf).idxOf? (idOf entry) with
  | none =>
    have missing : idOf entry ∉ base.map idOf := List.idxOf?_eq_none_iff.mp place
    have none_old : (base.any fun old => idOf old = idOf entry ∧
        snapshotTextHash (stringify old) = snapshotTextHash (stringify entry)) = false := by
      rw [List.any_eq_false]
      intro old inside same
      exact missing (List.mem_map.mpr ⟨old, inside, (of_decide_eq_true same).1⟩)
    rw [none_old]
    rfl
  | some i =>
    obtain ⟨bound, here, -⟩ := List.idxOf?_eq_some_iff.mp place
    rw [List.length_map] at bound
    rw [List.getElem_map] at here
    have hashed : (base.map fun entry => snapshotTextHash (stringify entry))[i]? =
        some (snapshotTextHash (stringify base[i])) := by
      rw [List.getElem?_map, List.getElem?_eq_getElem bound, Option.map_some]
    show decide (_ ≠ _) = _
    rw [hashed, Bool.eq_iff_iff, decide_eq_true_eq, Bool.not_eq_true', List.any_eq_false]
    constructor
    · intro differ old inside same
      obtain ⟨sameId, sameHash⟩ := of_decide_eq_true same
      have equal := List.inj_on_of_nodup_map distinct inside (List.getElem_mem bound)
        (sameId.trans here.symm)
      exact differ (by rw [← equal, sameHash])
    · intro none_old same
      exact none_old base[i] (List.getElem_mem bound)
        (decide_eq_true ⟨here, Option.some.inj same⟩)

theorem delta_spec (distinct : (base.map idOf).Nodup) (distinct' : (list.map idOf).Nodup)
    (computed : delta (.of idOf stringify hash base) (.of idOf stringify hash' list) list =
      some result) : DeltaOf idOf stringify base list result := by
  have keyed : (!(ListVersion.of idOf stringify hash base).keyed ||
      !(ListVersion.of idOf stringify hash' list).keyed) = false := by
    simp [ListVersion.of, distinct, distinct']
  have items : (ListVersion.of idOf stringify hash' list).ids.zip
      ((ListVersion.of idOf stringify hash' list).entryHashes.zip list) =
        list.map fun entry => (idOf entry, snapshotTextHash (stringify entry), entry) :=
    zip_items list
  unfold delta at computed
  rw [if_neg (by rw [keyed]; exact Bool.false_ne_true), items, List.foldl_map] at computed
  extract_lets state at computed
  have loop : state = deltaLoop (ListVersion.of idOf stringify hash base) idOf
      (fun entry => snapshotTextHash (stringify entry)) ⟨[], -1, false, true⟩ list := rfl
  clear_value state
  split at computed
  · cases computed
  · cases computed
    refine ⟨?_, rfl, fun order given => ?_, fun none_given => ?_⟩
    · show state.upserts = _
      rw [loop, deltaLoop_upserts, List.nil_append]
      exact List.filter_congr fun entry _ => changed_of distinct entry
    · have given : (if state.ordered then none else some (list.map idOf)) = some order := given
      split at given
      · cases given
      · exact (Option.some.inj given).symm
    · have kept : state.ordered = true := by
        by_contra disordered
        have none_given : (if state.ordered then none else some (list.map idOf)) = none := none_given
        rw [if_neg disordered] at none_given
        cases none_given
      rw [loop] at kept
      obtain ⟨-, held, new, split, fresh, known, -, sorted, -⟩ := deltaLoop_ordered list _ kept
      refine ⟨held, new, split, sublist_of_sorted (fun id inside => ?_) sorted ?_, fresh⟩
      · obtain ⟨entry, there, rfl⟩ := List.mem_map.mp inside
        exact known entry there
      · rw [split, List.map_append] at distinct'
        exact distinct'.of_append_left

/-- Whether an entry is sent, as a held one with another hash or as a new one. -/
def sent (idOf stringify : T → JsString) (base : List T) (entry : T) : Bool :=
  !base.any fun old => idOf old = idOf entry ∧
    snapshotTextHash (stringify old) = snapshotTextHash (stringify entry)

theorem merged_of_sent {entry : T} (up : sent idOf stringify base entry = true) :
    merged idOf stringify base entry = entry := by
  unfold sent at up
  rw [Bool.not_eq_true', List.any_eq_false] at up
  unfold merged
  rw [List.find?_eq_none.mpr up]
  rfl

theorem merged_of_unsent (distinct : (base.map idOf).Nodup) {entry : T}
    (kept : sent idOf stringify base entry = false) :
    merged idOf stringify base entry ∈ base ∧
      idOf (merged idOf stringify base entry) = idOf entry ∧
      ∀ old ∈ base, idOf old = idOf entry → merged idOf stringify base entry = old := by
  unfold sent at kept
  rw [Bool.not_eq_false', List.any_eq_true] at kept
  obtain ⟨held, found⟩ := Option.isSome_iff_exists.mp (List.find?_isSome.mpr kept)
  have inside := List.mem_of_find?_eq_some found
  have same := of_decide_eq_true (List.find?_some found :)
  unfold merged
  rw [found, Option.getD_some]
  refine ⟨inside, same.1, fun old there equal => ?_⟩
  exact List.inj_on_of_nodup_map distinct inside there (same.1.trans equal.symm)

theorem mapM_map_eq_some {α β γ : Type} {f : β → Option γ} {g : α → β} {h : α → γ} {list : List α}
    (found : ∀ a ∈ list, f (g a) = some (h a)) : (list.map g).mapM f = some (list.map h) := by
  induction list with
  | nil => rfl
  | cons a list ih =>
    rw [List.map_cons, List.mapM_cons, found a List.mem_cons_self,
      ih fun b inside => found b (List.mem_cons_of_mem _ inside)]
    rfl

theorem applyKeyedListDelta_eq (distinct : (base.map idOf).Nodup)
    (distinct' : (list.map idOf).Nodup) (computed : DeltaOf idOf stringify base list result) :
    applyKeyedListDelta base result idOf = some (list.map (merged idOf stringify base)) := by
  have upserts : result.upserts = list.filter (sent idOf stringify base) := computed.upserts
  have distinctUp : (result.upserts.map idOf).Nodup := by
    rw [upserts]
    exact distinct'.sublist (List.filter_sublist.map _)
  have removed (id : JsString) (inside : id ∈ list.map idOf) :
      (JsSet.ofList result.removed).has id = false := by
    rw [JsSet.has_ofList, computed.removed, decide_eq_false_iff_not, List.mem_filter]
    exact fun gone => absurd inside (by simpa using gone.2)
  unfold applyKeyedListDelta
  simp only
  cases given : result.order with
  | some order =>
    rw [computed.order order given]
    refine mapM_map_eq_some fun entry inside => ?_
    cases up : sent idOf stringify base entry with
    | true =>
      have found : (byId idOf result.upserts).get? (idOf entry) = some entry :=
        (get?_byId distinctUp).mpr ⟨upserts ▸ List.mem_filter.mpr ⟨inside, up⟩, rfl⟩
      rw [found, merged_of_sent up]
      rfl
    | false =>
      have missing : (byId idOf result.upserts).get? (idOf entry) = none := by
        rw [Option.eq_none_iff_forall_ne_some]
        intro other found
        obtain ⟨there, same⟩ := (get?_byId distinctUp).mp found
        rw [upserts, List.mem_filter] at there
        rw [List.inj_on_of_nodup_map distinct' there.1 inside same, up] at there
        cases there.2
      obtain ⟨held, same, -⟩ := merged_of_unsent distinct up
      have found : (byId idOf base).get? (idOf entry) = some (merged idOf stringify base entry) :=
        (get?_byId distinct).mpr ⟨held, same⟩
      rw [missing, removed _ (List.mem_map_of_mem inside), found]
      rfl
  | none =>
    obtain ⟨held, new, rfl, sublist, fresh⟩ := computed.ordered given
    have newSent : ∀ entry ∈ new, sent idOf stringify base entry = true := by
      intro entry inside
      unfold sent
      rw [Bool.not_eq_true', List.any_eq_false]
      intro old there same
      exact fresh entry inside (List.mem_map.mpr ⟨old, there, (of_decide_eq_true same).1⟩)
    have kept : (base.map idOf).filter (fun id => !(JsSet.ofList result.removed).has id) =
        held.map idOf := by
      refine Eq.trans (List.filter_congr fun id there => ?_) (filter_eq_of_sublist sublist distinct)
      by_cases inside : id ∈ held.map idOf
      · rw [removed id (by rw [List.map_append]; exact List.mem_append_left _ inside)]
        simpa using inside
      · have out : id ∉ (held ++ new).map idOf := by
          rw [List.map_append, List.mem_append, not_or]
          refine ⟨inside, fun added => ?_⟩
          obtain ⟨entry, listed, rfl⟩ := List.mem_map.mp added
          exact fresh entry listed there
        have gone : id ∈ result.removed := by
          rw [computed.removed, List.mem_filter]
          exact ⟨there, by simpa using out⟩
        have has : (JsSet.ofList result.removed).has id = true := (JsSet.has_ofList_iff id).mpr gone
        rw [has]
        simpa using inside
    have entries : (byId idOf result.upserts).entries =
        ((held ++ new).filter (sent idOf stringify base)).map fun entry => (idOf entry, entry) := by
      rw [byId_entries distinctUp, upserts]
    have applied := replaceInPlace_eq (fun entry => merged_of_sent) base held new _ kept distinct'
      entries newSent fun entry _ old there same unsent =>
        (merged_of_unsent distinct unsent).2.2 old there same
    have unmoved : new.map (merged idOf stringify base) = new := by
      rw [List.map_congr_left fun entry inside => merged_of_sent (newSent entry inside)]
      exact List.map_id' _
    rw [applied, List.map_append, unmoved]

theorem map_merged_eq_iff (distinct : (base.map idOf).Nodup) :
    list.map (merged idOf stringify base) = list ↔
      ∀ old ∈ base, ∀ entry ∈ list, idOf old = idOf entry →
        snapshotTextHash (stringify old) = snapshotTextHash (stringify entry) → old = entry := by
  constructor
  · intro same old inside entry listed sameId sameHash
    have unsent : sent idOf stringify base entry = false := by
      unfold sent
      rw [Bool.not_eq_false', List.any_eq_true]
      exact ⟨old, inside, decide_eq_true ⟨sameId, sameHash⟩⟩
    obtain ⟨-, -, unique⟩ := merged_of_unsent distinct unsent
    rw [← unique old inside sameId]
    exact List.map_inj_left.mp (same.trans (List.map_id' list).symm) entry listed
  · intro faithful
    refine (List.map_congr_left fun entry listed => ?_).trans (List.map_id' list)
    cases up : sent idOf stringify base entry with
    | true => exact merged_of_sent up
    | false =>
      obtain ⟨old, inside, found⟩ : ∃ old ∈ base, decide (idOf old = idOf entry ∧
          snapshotTextHash (stringify old) = snapshotTextHash (stringify entry)) = true := by
        unfold sent at up
        rwa [Bool.not_eq_false', List.any_eq_true] at up
      obtain ⟨sameId, sameHash⟩ := of_decide_eq_true found
      rw [(merged_of_unsent distinct up).2.2 old inside sameId]
      exact faithful old inside entry listed sameId sameHash

/-- A delta gives the current list, unless an entry was changed to one with the same hash. -/
theorem keyed_delta_correct (idOf stringify : T → JsString) (hash hash' : JsString)
    (base list : List T) (delta : KeyedListDelta T) (distinct : (base.map idOf).Nodup)
    (distinct' : (list.map idOf).Nodup)
    (computed : KeyedLists.delta (.of idOf stringify hash base) (.of idOf stringify hash' list) list =
      some delta) :
    (applyKeyedListDelta base delta idOf).isSome = true ∧
      (applyKeyedListDelta base delta idOf = some list ↔
        ∀ old ∈ base, ∀ entry ∈ list, idOf old = idOf entry →
          snapshotTextHash (stringify old) = snapshotTextHash (stringify entry) → old = entry) ∧
      (delta.order = none → ∃ held new, list = held ++ new ∧
        (held.map idOf).Sublist (base.map idOf) ∧ ∀ entry ∈ new, idOf entry ∉ base.map idOf) := by
  have spec := delta_spec distinct distinct' computed
  have applied := applyKeyedListDelta_eq distinct distinct' spec
  refine ⟨by rw [applied]; rfl, ?_, spec.ordered⟩
  rw [applied, Option.some.injEq]
  exact map_merged_eq_iff distinct

end Correct

section Examples

structure Entry where
  id : JsString
  text : JsString
deriving DecidableEq

/-- `JSON.stringify` of an entry whose strings need no escape. -/
def Entry.stringify (entry : Entry) : JsString :=
  js "\x7b\"id\":\"" ++ entry.id ++ js "\",\"text\":\"" ++ entry.text ++ js "\"\x7d"

def entryOf (id text : String) : Entry := ⟨js id, js text⟩

/-- One entry is edited, one leaves and one comes in before the others. -/
theorem edited_delta_correct : ∃ delta,
    KeyedLists.delta (.of Entry.id Entry.stringify (js "h0")
        [entryOf "n-1" "one", entryOf "n-2" "two", entryOf "n-3" "three"])
      (.of Entry.id Entry.stringify (js "h1")
        [entryOf "n-4" "four", entryOf "n-1" "one", entryOf "n-3" "edited"])
      [entryOf "n-4" "four", entryOf "n-1" "one", entryOf "n-3" "edited"] = some delta ∧
    applyKeyedListDelta [entryOf "n-1" "one", entryOf "n-2" "two", entryOf "n-3" "three"] delta
      Entry.id = some [entryOf "n-4" "four", entryOf "n-1" "one", entryOf "n-3" "edited"] := by
  refine ⟨⟨js "h0", js "h1", [entryOf "n-4" "four", entryOf "n-3" "edited"], [js "n-2"],
    some [js "n-4", js "n-1", js "n-3"]⟩, by decide +kernel, ?_⟩
  refine (keyed_delta_correct Entry.id Entry.stringify (js "h0") (js "h1") _ _ _ (by decide +kernel)
    (by decide +kernel) (by decide +kernel)).2.1.mpr (by decide +kernel)

/-- The text of an entry before and after an edit that leaves its hash as it is. -/
def textBefore : String :=
  "ylsleivzpbsleswpwbiqiveeoolgkfwmtswytxvoklbcwyxugvzbrmaofmayzntj" ++
    "kzyjmajkkmuorzdllxokuhrtjqhijqifoxjrwcioatsjunlgkqpefsmm"

def textAfter : String :=
  "ylsleivzwhrqunmvwbiqiveeoolgkfwmtswytxvoklbcwyxudedberhpeaijqfdm" ++
    "kzyjmajkvxnjtgfcnabfbkpyaveetvyboxjrwcioatsjunlgypeirjsd"

/-- The edited entry does not reach the browser. -/
theorem edited_entry_kept_back :
    let base := [entryOf "n-1" textBefore, entryOf "n-2" "two"]
    let list := [entryOf "n-1" textAfter, entryOf "n-2" "two"]
    (base.map Entry.id).Nodup ∧ (list.map Entry.id).Nodup ∧ ∃ delta,
      KeyedLists.delta (.of Entry.id Entry.stringify (js "h0") base)
        (.of Entry.id Entry.stringify (js "h1") list) list = some delta ∧
      applyKeyedListDelta base delta Entry.id = some base ∧ base ≠ list := by
  intro base list
  refine ⟨by decide +kernel, by decide +kernel, ⟨js "h0", js "h1", [], [], none⟩, ?_⟩
  decide +kernel

end Examples

end Takode.KeyedLists
