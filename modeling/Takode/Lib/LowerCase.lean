import Takode.Lib.JsString

/-!
# Lower case

`String.prototype.toLowerCase` depends on tables of Unicode; what is used of it is that it
is idempotent, leaves white space alone and does to ASCII text what it does everywhere.
-/

namespace Takode

open JsString

/-- A `toLowerCase`. -/
structure LowerCase where
  toLowerCase : JsString → JsString
  idempotent : ∀ s, toLowerCase (toLowerCase s) = toLowerCase s
  trimmed : ∀ s, trim s = s → trim (toLowerCase s) = toLowerCase s
  plain : ∀ s, (∀ c ∈ s, c < 128 ∧ lower c = c) → toLowerCase s = s
  noCapital : ∀ s, ∀ c ∈ toLowerCase s, lower c = c

/-- The one that leaves all other letters as they are. -/
def LowerCase.ascii : LowerCase where
  toLowerCase := JsString.toLowerCase
  idempotent := toLowerCase_toLowerCase
  trimmed s own := by rw [trim_toLowerCase, own]
  plain s small := by
    rw [JsString.toLowerCase]
    conv => rhs; rw [← List.map_id s]
    exact List.map_congr_left fun c inside => (small c inside).2
  noCapital s c inside := by
    obtain ⟨d, -, rfl⟩ := List.mem_map.mp inside
    exact lower_lower d

end Takode
