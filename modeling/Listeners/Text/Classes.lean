/-!
The character classes that the scanners of handler expressions, key names and
identifiers share. Blanks and line ends are the ones of the generated script
language; letters and digits are ASCII.
-/
namespace Listeners.Text

/-- A blank of the script language: a space, tab or line break of any script, and the byte order
mark. -/
def isBlank (c : Char) : Bool :=
  let n := c.toNat
  (9 ≤ n && n ≤ 13) || n == 0x20 || n == 0xa0 || n == 0x1680 || (0x2000 ≤ n && n ≤ 0x200a) ||
    n == 0x2028 || n == 0x2029 || n == 0x202f || n == 0x205f || n == 0x3000 || n == 0xfeff

def isLineEnd (c : Char) : Bool :=
  c == '\n' || c == '\r' || c == '\u2028' || c == '\u2029'

def isQuote (c : Char) : Bool := c == '\'' || c == '"'

def isDigit (c : Char) : Bool := c.isDigit

def isIdentStart (c : Char) : Bool := c.isAlpha || c == '_' || c == '$'

def isIdentPart (c : Char) : Bool := isIdentStart c || isDigit c

def isIdentifier (s : String) : Bool :=
  match s.toList with
  | [] => false
  | c :: r => isIdentStart c && r.all isIdentPart

theorem identifier_head {s : String} (identifier : isIdentifier s = true) :
    ∃ c r, s.toList = c :: r ∧ isIdentStart c = true ∧ r.all isIdentPart = true := by
  unfold isIdentifier at identifier
  split at identifier
  · cases identifier
  · next c r shape =>
    rw [Bool.and_eq_true] at identifier
    exact ⟨c, r, shape, identifier.1, identifier.2⟩

def dropBlank (s : List Char) : List Char := s.dropWhile isBlank

theorem isIdentPart_of_isIdentStart {c : Char} (h : isIdentStart c = true) :
    isIdentPart c = true := by
  simp [isIdentPart, h]

theorem isAlpha_eq (c : Char) :
    c.isAlpha = (decide (c.val ≥ 'A'.val ∧ c.val ≤ 'Z'.val) ||
      (decide (c.val ≥ 'a'.val) && decide (c.val ≤ 'z'.val))) := rfl

theorem isDigit_of_isIdentStart {c : Char} (h : isIdentStart c = true) : isDigit c = false := by
  simp only [isIdentStart, Bool.or_eq_true, beq_iff_eq] at h
  rcases h with (letter | rfl) | rfl
  · simp only [isAlpha_eq, isDigit, Char.isDigit] at *
    grind
  · rfl
  · rfl

theorem isIdentPart_toNat {c : Char} (h : isIdentPart c = true) :
    (65 ≤ c.toNat ∧ c.toNat ≤ 90) ∨ (97 ≤ c.toNat ∧ c.toNat ≤ 122) ∨ c.toNat = 95 ∨ c.toNat = 36 ∨
      (48 ≤ c.toNat ∧ c.toNat ≤ 57) := by
  simp only [isIdentPart, isIdentStart, isDigit, isAlpha_eq, Char.isDigit, Bool.or_eq_true,
    Bool.and_eq_true, decide_eq_true_eq, UInt32.le_iff_toNat_le, ge_iff_le, beq_iff_eq] at h
  rcases h with (((upper | lower) | rfl) | rfl) | digit
  · exact Or.inl upper
  · exact Or.inr (Or.inl lower)
  · decide
  · decide
  · exact Or.inr (Or.inr (Or.inr (Or.inr digit)))

theorem isIdentPart_of_isBlank {c : Char} (h : isBlank c = true) : isIdentPart c = false := by
  simp only [isBlank, Bool.or_eq_true, Bool.and_eq_true, decide_eq_true_eq, beq_iff_eq] at h
  refine Bool.eq_false_iff.mpr fun part => ?_
  have code := isIdentPart_toNat part
  omega

/-- The text is empty or starts with a character that is not of the class. -/
def Stops (p : Char → Bool) (s : List Char) : Prop := ∀ c r, s = c :: r → p c = false

theorem stops_cons {p : Char → Bool} {c : Char} (h : p c = false) (r : List Char) :
    Stops p (c :: r) := by
  intro d t same
  cases same
  exact h

theorem stops_dropWhile (p : Char → Bool) (s : List Char) : Stops p (s.dropWhile p) := by
  intro c r first
  have head := List.head?_dropWhile_not p s
  rw [first] at head
  simpa using head

theorem takeWhile_append_stops {p : Char → Bool} {s r : List Char} (all : ∀ c ∈ s, p c = true)
    (stop : Stops p r) : (s ++ r).takeWhile p = s := by
  rw [List.takeWhile_append_of_pos all]
  cases r with
  | nil => simp
  | cons c t => simp [stop c t rfl]

theorem dropWhile_append_stops {p : Char → Bool} {s r : List Char} (all : ∀ c ∈ s, p c = true)
    (stop : Stops p r) : (s ++ r).dropWhile p = r := by
  rw [List.dropWhile_append_of_pos all]
  cases r with
  | nil => rfl
  | cons c t => simp [stop c t rfl]

end Listeners.Text
