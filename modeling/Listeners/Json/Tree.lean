import Listeners.Json.Compound
/-!
Reading any value whole, as a tree. Lists and objects may be nested only so deep.
-/
namespace Listeners.Json

/-- Lists and objects may be nested this deep. -/
def depthLimit : Nat := 127

def gatherAll (value : Reader Value) : Gather (List (String × Value)) := fun read name =>
  .ok (value.map fun v => .ok ((name, v) :: read))

def value : Nat → Reader Value
  | 0 => {
    run := fun s =>
      match skipSpace s with
      | '[' :: r => .error (.on .tooDeep ('[' :: r))
      | '{' :: r => .error (.on .tooDeep ('{' :: r))
      | t => scalar t
    shortens := by
      intro s v r h
      simp only at h
      split at h
      · cases h
      · cases h
      · exact Nat.lt_of_lt_of_le (scalar_shortens h) (length_skipSpace_le s) }
  | depth + 1 => {
    run := fun s =>
      match skipSpace s with
      | '[' :: r => (items (value depth) r).map fun (vs, rest) => (.list vs, rest)
      | '{' :: r =>
        (members (gatherAll (value depth)) [] r).map fun (ms, rest) => (.object ms.reverse, rest)
      | t => scalar t
    shortens := by
      intro s v r h
      simp only at h
      split at h
      · next hs =>
        obtain ⟨⟨vs, rest⟩, hv, h⟩ := map_eq_ok.1 h
        cases h
        exact Nat.lt_of_le_of_lt (length_items_le hv) (length_lt_of_skipSpace hs)
      · next hs =>
        obtain ⟨⟨ms, rest⟩, hm, h⟩ := map_eq_ok.1 h
        cases h
        exact Nat.lt_of_le_of_lt (length_members_le hm) (length_lt_of_skipSpace hs)
      · exact Nat.lt_of_lt_of_le (scalar_shortens h) (length_skipSpace_le s) }

end Listeners.Json
