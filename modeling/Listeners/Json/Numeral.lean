import Listeners.Json.Reader
/-!
The written form of a number, and its value once it is known to be in range. What is
said of a numeral that ends too soon is for the caller to choose.
-/
namespace Listeners.Json
open Text (isDigit)

/-- The digits of a numeral before its point: a single zero, or digits that start with none. -/
def wholeDigits (atEnd : Cause) (s : List Char) : Except Fault (List Char × List Char) :=
  match s with
  | [] => .error (.before atEnd [])
  | '0' :: r =>
    match r with
    | c :: _ => if isDigit c then .error (.on .badNumber r) else .ok (['0'], r)
    | [] => .ok (['0'], r)
  | c :: r =>
    if isDigit c then .ok (c :: r.takeWhile isDigit, r.dropWhile isDigit)
    else .error (.on .badNumber (c :: r))

def someDigits (atEnd : Cause) (s : List Char) : Except Fault (List Char × List Char) :=
  match s with
  | [] => .error (.before atEnd [])
  | c :: r =>
    if isDigit c then .ok (c :: r.takeWhile isDigit, r.dropWhile isDigit)
    else .error (.on .badNumber (c :: r))

def fractionDigits (atEnd : Cause) : List Char → Except Fault (List Char × List Char)
  | '.' :: r => someDigits atEnd r
  | s => .ok ([], s)

def exponentDigits (atEnd : Cause) (s : List Char) :
    Except Fault (Option (Bool × List Char) × List Char) :=
  match s with
  | c :: r =>
    if c = 'e' || c = 'E' then
      match r with
      | '-' :: t => (someDigits atEnd t).map fun (ds, rest) => (some (true, ds), rest)
      | '+' :: t => (someDigits atEnd t).map fun (ds, rest) => (some (false, ds), rest)
      | t => (someDigits atEnd t).map fun (ds, rest) => (some (false, ds), rest)
    else .ok (none, s)
  | [] => .ok (none, [])

def numeral (atEnd : Cause) (negative : Bool) (s : List Char) :
    Except Fault (Numeral × List Char) := do
  let (whole, s) ← wholeDigits atEnd s
  let (fraction, s) ← fractionDigits atEnd s
  let (exponent, s) ← exponentDigits atEnd s
  .ok (⟨negative, whole, fraction, exponent⟩, s)

def number (negative : Bool) (s : List Char) : Except Fault (Number × List Char) := do
  let (n, rest) ← numeral .endInValue negative s
  match n.value with
  | .ok v => .ok (v, rest)
  | .error following => .error ⟨.numberRange, following + byteCount rest⟩

theorem wholeDigits_shortens (atEnd : Cause) : Shortens (wholeDigits atEnd) := by
  intro s ds r h
  unfold wholeDigits at h
  split at h
  · cases h
  · split at h
    · split at h
      · cases h
      · cases h; exact Nat.lt_succ_self _
    · cases h; exact Nat.lt_succ_self _
  · split at h
    · cases h; exact Nat.lt_succ_of_le (List.dropWhile_sublist _).length_le
    · cases h

theorem someDigits_shortens (atEnd : Cause) : Shortens (someDigits atEnd) := by
  intro s ds r h
  unfold someDigits at h
  split at h
  · cases h
  · split at h
    · cases h; exact Nat.lt_succ_of_le (List.dropWhile_sublist _).length_le
    · cases h

theorem length_fractionDigits_le {atEnd : Cause} {s ds r : List Char}
    (h : fractionDigits atEnd s = .ok (ds, r)) : r.length ≤ s.length := by
  unfold fractionDigits at h
  split at h
  · exact Nat.le_succ_of_le (Nat.le_of_lt (someDigits_shortens atEnd h))
  · cases h; exact Nat.le_refl _

theorem length_exponentDigits_le {atEnd : Cause} {s r : List Char} {e : Option (Bool × List Char)}
    (h : exponentDigits atEnd s = .ok (e, r)) : r.length ≤ s.length := by
  unfold exponentDigits at h
  split at h
  · split at h
    · split at h
      all_goals
        obtain ⟨⟨ds, t⟩, ht, h⟩ := map_eq_ok.1 h
        have := someDigits_shortens atEnd ht
        cases h
        simp only [List.length_cons] at this ⊢
        omega
    · cases h; exact Nat.le_refl _
  · cases h; exact Nat.le_refl _

theorem numeral_shortens (atEnd : Cause) (negative : Bool) : Shortens (numeral atEnd negative) := by
  intro s n r h
  obtain ⟨⟨w, s₁⟩, h₁, h⟩ := bind_eq_ok.1 h
  obtain ⟨⟨f, s₂⟩, h₂, h⟩ := bind_eq_ok.1 h
  obtain ⟨⟨e, s₃⟩, h₃, h⟩ := bind_eq_ok.1 h
  have := wholeDigits_shortens atEnd h₁
  have := length_fractionDigits_le h₂
  have := length_exponentDigits_le h₃
  cases h
  omega

theorem number_shortens (negative : Bool) : Shortens (number negative) := by
  intro s n r h
  obtain ⟨⟨m, s₁⟩, h₁, h⟩ := bind_eq_ok.1 h
  have := numeral_shortens _ negative h₁
  simp only at h
  split at h
  · cases h; exact this
  · cases h

end Listeners.Json
