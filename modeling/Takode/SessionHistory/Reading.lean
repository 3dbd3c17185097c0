import Takode.SessionHistory.Saving

/-!
# What is read is what a file records

Whatever bytes stand on the disk, the rows that are read are those whose digests the file names.
-/

namespace Takode.SessionHistory

open JsString JsonText

variable {sha : Sha256} {sessionId : JsString} {frames : List Frame} {index index' : JournalIndex}
  {frame : Frame}

/-- The record of a row begins among these frames. -/
def Named (frames : List Frame) (kind : RowKind) (row : Nat) (digest : JsString) : Prop :=
  ∃ item, asInteger item = some row ∧ [.string kind.text, item, .string digest] ∈ frames

/-- The rows of an index, and the row whose record has not ended, are named by these frames. -/
structure Sourced (sha : Sha256) (frames : List Frame) (index : JournalIndex) : Prop where
  rows : ∀ kind row decoded, (index.rows kind).get? row = some decoded →
    Named frames kind row decoded.digest ∧
      ∀ value, decoded.value = some value → valueDigest sha value = decoded.digest
  reading : ∀ kind row digest tokens, index.reading = some (.row kind row digest tokens) →
    Named frames kind row digest

theorem get?_of_committed {rows rows' : JsMap Nat DecodedRow} {count row : Nat} {decoded : DecodedRow}
    (committed : committedRows rows count = .ok rows') (found : rows'.get? row = some decoded) :
    rows.get? row = some decoded := by
  unfold committedRows at committed
  dsimp only at committed
  (repeat' split at committed) <;> cases committed
  rw [JsMap.get?_filter] at found
  obtain ⟨_, before, kept⟩ := Option.bind_eq_some_iff.mp found
  split at kept <;> cases kept
  exact before

theorem Sourced.begin (sourced : Sourced sha frames index) (inside : frame ∈ frames)
    (idle : index.reading = none) (begun : beginRecord index frame = .ok index') :
    Sourced sha frames index' := by
  unfold beginRecord at begun
  split at begun
  · split at begun
    · (repeat' split at begun) <;> cases begun
      exact ⟨sourced.rows, fun _ _ _ _ own => (by cases own)⟩
    · (repeat' split at begun) <;> cases begun
      rename_i found integer _
      refine ⟨sourced.rows, ?_⟩
      rintro kind row digest tokens same
      cases same
      have named := List.find?_some found
      rw [decide_eq_true_eq] at named
      exact ⟨_, integer, named ▸ inside⟩
  · (repeat' split at begun) <;> try cases begun
    obtain ⟨messages, keptMessages, begun⟩ := bind_eq_ok.mp begun
    obtain ⟨tools, keptTools, begun⟩ := bind_eq_ok.mp begun
    cases begun
    refine ⟨fun kind row decoded found => ?_, fun _ _ _ _ reading => ?_⟩
    · cases kind with
      | message => exact sourced.rows .message row decoded (get?_of_committed keptMessages found)
      | tool => exact sourced.rows .tool row decoded (get?_of_committed keptTools found)
    · rw [idle] at reading
      cases reading
  · cases begun

theorem digest_decodeRow {tokens : List Frame} {digest : JsString} {strings : JsMap Nat JsString} :
    (decodeRow sha tokens digest strings).digest = digest ∧
      ∀ value, (decodeRow sha tokens digest strings).value = some value → valueDigest sha value = digest := by
  unfold decodeRow
  split
  · split
    · rename_i same
      refine ⟨rfl, ?_⟩
      rintro value own
      cases own
      exact same
    · exact ⟨rfl, nofun⟩
  · exact ⟨rfl, nofun⟩

theorem Sourced.step (sourced : Sourced sha frames index) (inside : frame ∈ frames)
    (scanned : indexFrame sha index frame = .ok index') : Sourced sha frames index' := by
  unfold indexFrame at scanned
  split at scanned
  · (repeat' split at scanned) <;> cases scanned <;> exact ⟨sourced.rows, nofun⟩
  · rename_i kind row digest tokens reading
    have named := sourced.reading kind row digest tokens reading
    (repeat' split at scanned) <;> cases scanned
    · refine ⟨fun kind' row' decoded found => ?_, nofun⟩
      dsimp only at found
      obtain rfl | other := eq_or_ne kind' kind
      · rw [Function.update_self] at found
        obtain rfl | other := eq_or_ne row' row
        · rw [JsMap.get?_set_self] at found
          cases found
          rw [digest_decodeRow.1]
          exact ⟨named, digest_decodeRow.2⟩
        · rw [JsMap.get?_set_of_ne other] at found
          exact sourced.rows kind' row' decoded found
      · rw [Function.update_of_ne other] at found
        exact sourced.rows kind' row' decoded found
    · refine ⟨sourced.rows, ?_⟩
      rintro kind' row' digest' tokens' same
      cases same
      exact named
  · exact sourced.begin inside ‹_› scanned

theorem Sourced.scan {scanned : List Frame} (sourced : Sourced sha frames index) (inside : scanned ⊆ frames)
    (read : scanned.foldlM (indexFrame sha) index = .ok index') : Sourced sha frames index' := by
  induction scanned generalizing index with
  | nil =>
    cases read
    exact sourced
  | cons frame scanned ih =>
    rw [List.foldlM_cons] at read
    obtain ⟨between, first, rest⟩ := bind_eq_ok.mp read
    obtain ⟨own, later⟩ := List.cons_subset.mp inside
    exact ih (sourced.step own first) later rest

theorem Sourced.named {kind : RowKind} {row : Nat} {value : Value} (sourced : Sourced sha frames index)
    (read : decodedRow sha index kind row = .ok value) : Named frames kind row (valueDigest sha value) := by
  unfold decodedRow at read
  split at read
  · cases read
  rename_i decoded found
  obtain ⟨named, own⟩ := sourced.rows kind row decoded found
  split at read
  · rename_i value' same
    cases read
    rw [own value same]
    exact named
  · obtain ⟨value', _, read⟩ := bind_eq_ok.mp read
    split at read
    · cases read
    · rename_i same
      cases read
      rw [not_not.mp same]
      exact named

end Takode.SessionHistory
