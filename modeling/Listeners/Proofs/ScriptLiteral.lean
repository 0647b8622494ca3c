import Listeners.Proofs.Written
import Listeners.Text.Classes

/-!
Double-quoted string literals of the generated script, read by the rules of that language
(its edition of 2019: a line or paragraph separator may stand in a literal as it is). An
escape for one half of a surrogate pair is not read, since no character corresponds to it.
-/
namespace Listeners.Script
open Text

def hexDigits : Nat → Nat → List Char → Option (Nat × List Char)
  | 0, value, s => some (value, s)
  | _ + 1, _, [] => none
  | count + 1, value, c :: r =>
    match Json.hexValue? c with
    | some digit => hexDigits count (16 * value + digit) r
    | none => none

def bracedDigits (value : Nat) : List Char → Option (Nat × List Char)
  | [] => none
  | '}' :: r => some (value, r)
  | c :: r =>
    match Json.hexValue? c with
    | some digit => bracedDigits (16 * value + digit) r
    | none => none

def character : Nat × List Char → Option (List Char × List Char)
  | (n, r) => if n.isValidChar then some ([Char.ofNat n], r) else none

def controlLetter : Char → Option Char
  | 'b' => some '\x08'
  | 't' => some '\t'
  | 'n' => some '\n'
  | 'v' => some '\x0b'
  | 'f' => some '\x0c'
  | 'r' => some '\r'
  | _ => none

def codePoint : List Char → Option (Nat × List Char)
  | '{' :: r => if r.head? = some '}' then none else bracedDigits 0 r
  | r => hexDigits 4 0 r

/-- What stands after a backslash: the characters meant, none for a line that is continued, and
the rest. A digit is no escape, except a zero that no digit follows. -/
def escape : List Char → Option (List Char × List Char)
  | [] => none
  | c :: r =>
    if c = 'u' then (codePoint r).bind character
    else if c = 'x' then (hexDigits 2 0 r).bind character
    else if c = '0' then
      if (r.takeWhile isDigit).isEmpty then some (['\x00'], r) else none
    else if isDigit c then none
    else if c = '\r' ∧ r.head? = some '\n' then some ([], r.drop 1)
    else if isLineEnd c then some ([], r)
    else some ([(controlLetter c).getD c], r)

theorem length_hexDigits_le {count value n : Nat} {s r : List Char}
    (read : hexDigits count value s = some (n, r)) : r.length ≤ s.length := by
  induction count generalizing value s with
  | zero => cases read; exact Nat.le_refl _
  | succ count ih =>
    cases s with
    | nil => cases read
    | cons c t =>
      simp only [hexDigits] at read
      split at read
      · have := ih read
        simp only [List.length_cons]
        omega
      · cases read

theorem length_bracedDigits_le {value n : Nat} {s r : List Char}
    (read : bracedDigits value s = some (n, r)) : r.length ≤ s.length := by
  induction s generalizing value with
  | nil => cases read
  | cons c t ih =>
    unfold bracedDigits at read
    split at read
    · cases read
    · next same =>
      cases same; cases read
      exact Nat.le_succ _
    · next same =>
      cases same
      split at read
      · exact Nat.le_succ_of_le (ih read)
      · cases read

theorem rest_character {n : Nat} {s r cs : List Char} (read : character (n, s) = some (cs, r)) :
    r = s := by
  simp only [character] at read
  split at read
  · cases read; rfl
  · cases read

theorem length_codePoint_le {n : Nat} {s r : List Char} (read : codePoint s = some (n, r)) :
    r.length ≤ s.length := by
  unfold codePoint at read
  split at read
  · split at read
    · cases read
    · exact Nat.le_succ_of_le (length_bracedDigits_le read)
  · exact length_hexDigits_le read

theorem escape_shorter {s r cs : List Char} (read : escape s = some (cs, r)) :
    r.length < s.length := by
  cases s with
  | nil => cases read
  | cons c t =>
    apply Nat.lt_succ_of_le
    rw [escape] at read
    split at read
    · obtain ⟨⟨n, u⟩, point, meant⟩ := Option.bind_eq_some_iff.mp read
      exact rest_character meant ▸ length_codePoint_le point
    split at read
    · obtain ⟨⟨n, u⟩, digits, meant⟩ := Option.bind_eq_some_iff.mp read
      exact rest_character meant ▸ length_hexDigits_le digits
    split at read
    · split at read
      · cases read; exact Nat.le_refl _
      · cases read
    split at read
    · cases read
    split at read
    · cases read; simp
    split at read
    · cases read; exact Nat.le_refl _
    · cases read; exact Nat.le_refl _

def characters (s : List Char) : Option (List Char × List Char) :=
  match s with
  | [] => none
  | '"' :: r => some ([], r)
  | '\\' :: r =>
    match _h : escape r with
    | some (cs, t) => (characters t).map fun (ds, u) => (cs ++ ds, u)
    | none => none
  | c :: r =>
    if c = '\n' ∨ c = '\r' then none
    else (characters r).map fun (ds, u) => (c :: ds, u)
termination_by s.length
decreasing_by
  · have := escape_shorter _h
    simp only [List.length_cons]
    omega
  · exact Nat.lt_succ_self _

def literal : List Char → Option (String × List Char)
  | '"' :: r => (characters r).map fun (cs, t) => (String.ofList cs, t)
  | _ => none

theorem characters_escape {c : Char} {r t : List Char} (found : escape r = some ([c], t)) :
    characters ('\\' :: r) = (characters t).map fun (ds, u) => (c :: ds, u) := by
  rw [characters]
  split
  · next again => rw [found] at again; cases again; rfl
  · next again => rw [found] at again; cases again

theorem escape_control {c : Char} (control : c.toNat < 32) (r : List Char) :
    escape ('u' :: '0' :: '0' :: hexDigit (c.toNat / 16) :: hexDigit (c.toNat % 16) :: r) =
      some ([c], r) := by
  have zero : Json.hexValue? '0' = some 0 := by decide
  have high := Json.hexValue_hexDigit (c.toNat / 16) (by omega)
  have low := Json.hexValue_hexDigit (c.toNat % 16) (by omega)
  have whole : 16 * (16 * (16 * (16 * 0 + 0) + 0) + c.toNat / 16) + c.toNat % 16 = c.toNat := by
    omega
  have point : codePoint ('0' :: '0' :: hexDigit (c.toNat / 16) :: hexDigit (c.toNat % 16) :: r) =
      some (c.toNat, r) := by
    change hexDigits 4 0 _ = _
    simp only [hexDigits, zero, high, low, whole]
  have valid : c.toNat.isValidChar := c.valid
  simp only [escape, if_true, point, Option.bind_some, character, valid, Char.ofNat_toNat]

theorem escape_letter {letter c : Char} (known : (letter, c) ∈ letterEscapes) (r : List Char) :
    escape (letter :: r) = some ([c], r) := by
  simp only [letterEscapes, List.mem_cons, Prod.mk.injEq, List.not_mem_nil, or_false] at known
  rcases known with ⟨rfl, rfl⟩ | ⟨rfl, rfl⟩ | ⟨rfl, rfl⟩ | ⟨rfl, rfl⟩ | ⟨rfl, rfl⟩ | ⟨rfl, rfl⟩ |
    ⟨rfl, rfl⟩
  all_goals rfl

theorem characters_escaped (c : Char) (r : List Char) :
    characters (escaped c ++ r) = (characters r).map fun (ds, u) => (c :: ds, u) := by
  rcases escaped_cases c with ⟨letter, known, text⟩ | ⟨control, text⟩ |
    ⟨notQuote, notBackslash, visible, text⟩
  · rw [text]
    exact characters_escape (escape_letter known r)
  · rw [text]
    exact characters_escape (escape_control control r)
  · have noBreak : ¬ (c = '\n' ∨ c = '\r') := by
      rintro (rfl | rfl) <;> exact absurd visible (by decide)
    rw [text, List.cons_append, List.nil_append, characters]
    · rw [if_neg noBreak]
    · exact notQuote
    · exact notBackslash

theorem characters_flatMap_escaped (s r : List Char) :
    characters (s.flatMap escaped ++ '"' :: r) = some (s, r) := by
  induction s with
  | nil => simp [characters]
  | cons c s ih =>
    rw [List.flatMap_cons, List.append_assoc, characters_escaped, ih]
    rfl

/-- A quoted name is read back, and the literal ends where the name does. -/
theorem literal_quote (s : String) (r : List Char) :
    literal ((quote s).toList ++ r) = some (s, r) := by
  rw [toList_quote]
  simp [literal, characters_flatMap_escaped]

end Listeners.Script
