import Listeners.Json.Literal
import Listeners.Json.Numeral
/-!
Values as trees. The members of an object stay in their order, and a name may occur
more than once: what a repetition means is for the reader of the tree to say.
-/
namespace Listeners.Json

inductive Value where
  | null
  | boolean (b : Bool)
  | number (n : Number)
  | string (s : String)
  | list (items : List Value)
  | object (members : List (String × Value))

def Value.found : Value → Found
  | null => .null
  | boolean b => .boolean b
  | number n => .number n
  | string s => .string s
  | list _ => .list
  | object _ => .object

def membersNamed (name : String) (members : List (String × Value)) : List Value :=
  (members.filter (·.1 == name)).map (·.2)

def scalar : Scan Value
  | [] => .error (.on .endInValue [])
  | 'n' :: r => (word ['u', 'l', 'l'] r).map (.null, ·)
  | 't' :: r => (word ['r', 'u', 'e'] r).map (.boolean true, ·)
  | 'f' :: r => (word ['a', 'l', 's', 'e'] r).map (.boolean false, ·)
  | '"' :: r => (string r).map fun (s, rest) => (.string s, rest)
  | '-' :: r => (number true r).map fun (n, rest) => (.number n, rest)
  | c :: r =>
    if c.isDigit then (number false (c :: r)).map fun (n, rest) => (.number n, rest)
    else .error (.on .noValue (c :: r))

theorem scalar_shortens : Shortens scalar := by
  intro s v r h
  unfold scalar at h
  split at h
  · cases h
  · obtain ⟨t, ht, h⟩ := map_eq_ok.1 h; cases h; exact Nat.lt_succ_of_le (length_word_le ht)
  · obtain ⟨t, ht, h⟩ := map_eq_ok.1 h; cases h; exact Nat.lt_succ_of_le (length_word_le ht)
  · obtain ⟨t, ht, h⟩ := map_eq_ok.1 h; cases h; exact Nat.lt_succ_of_le (length_word_le ht)
  · obtain ⟨⟨t, u⟩, ht, h⟩ := map_eq_ok.1 h; cases h; exact Nat.lt_succ_of_lt (string_shortens ht)
  · obtain ⟨⟨t, u⟩, ht, h⟩ := map_eq_ok.1 h; cases h; exact Nat.lt_succ_of_lt (number_shortens _ ht)
  · split at h
    · obtain ⟨⟨t, u⟩, ht, h⟩ := map_eq_ok.1 h; cases h; exact number_shortens _ ht
    · cases h

end Listeners.Json
