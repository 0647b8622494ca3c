import Listeners.Json.Compound
/-!
Readers of a wanted kind of value. Where another kind stands, a scalar is still read to
its end, so that what is wrong with its own form is told first.
-/
namespace Listeners.Json

def wrongKind (wanted : Wanted) (s : List Char) : Fault :=
  match s with
  | '[' :: _ => .before (.wrongKind .list wanted) s
  | '{' :: _ => .before (.wrongKind .object wanted) s
  | _ =>
    match scalar s with
    | .ok (v, rest) => .before (.wrongKind v.found wanted) rest
    | .error fault => fault

namespace Reader

def string : Reader String where
  run s :=
    match skipSpace s with
    | '"' :: r => Json.string r
    | t => .error (wrongKind .string t)
  shortens := by
    intro s a r h
    simp only at h
    split at h
    · next hs => exact Nat.lt_trans (string_shortens h) (length_lt_of_skipSpace hs)
    · cases h

def boolean : Reader Bool where
  run s :=
    match skipSpace s with
    | 't' :: r => (word ['r', 'u', 'e'] r).map (true, ·)
    | 'f' :: r => (word ['a', 'l', 's', 'e'] r).map (false, ·)
    | t => .error (wrongKind .boolean t)
  shortens := by
    intro s a r h
    simp only at h
    split at h
    · next hs =>
      obtain ⟨t, ht, h⟩ := map_eq_ok.1 h
      cases h
      exact Nat.lt_of_le_of_lt (length_word_le ht) (length_lt_of_skipSpace hs)
    · next hs =>
      obtain ⟨t, ht, h⟩ := map_eq_ok.1 h
      cases h
      exact Nat.lt_of_le_of_lt (length_word_le ht) (length_lt_of_skipSpace hs)
    · cases h

def optional (reader : Reader α) : Reader (Option α) where
  run s :=
    match skipSpace s with
    | 'n' :: r => (word ['u', 'l', 'l'] r).map (none, ·)
    | t => (reader.run t).map fun (a, rest) => (some a, rest)
  shortens := by
    intro s a r h
    simp only at h
    split at h
    · next hs =>
      obtain ⟨t, ht, h⟩ := map_eq_ok.1 h
      cases h
      exact Nat.lt_of_le_of_lt (length_word_le ht) (length_lt_of_skipSpace hs)
    · obtain ⟨⟨b, t⟩, ht, h⟩ := map_eq_ok.1 h
      cases h
      exact Nat.lt_of_lt_of_le (reader.shortens ht) (length_skipSpace_le s)

def object (gather : Gather σ) (state : σ) : Reader σ where
  run s :=
    match skipSpace s with
    | '{' :: r => members gather state r
    | t => .error (wrongKind .map t)
  shortens := by
    intro s a r h
    simp only at h
    split at h
    · next hs => exact Nat.lt_of_le_of_lt (length_members_le h) (length_lt_of_skipSpace hs)
    · cases h

end Reader

def closeRecord (s : List Char) : Except Fault (List Char) :=
  match skipSpace s with
  | [] => .error (.on .endInList [])
  | ']' :: r => .ok r
  | ',' :: r =>
    match skipSpace r with
    | ']' :: t => .error (.on .trailingComma (']' :: t))
    | t => .error (.on .trailingText t)
  | t => .error (.on .trailingText t)

/-- Reads a whole text: nothing but space may follow the value. -/
def readWhole (scan : Scan α) (text : String) : Except Malformed α :=
  match scan text.toList with
  | .error fault => .error (fault.locate text.toList)
  | .ok (a, rest) =>
    match skipSpace rest with
    | [] => .ok a
    | t => .error ((Fault.on .trailingText t).locate text.toList)

end Listeners.Json
