import Listeners.Json.Literal
import Listeners.Text.Quoted
/-!
The spellings of a character inside a string: as itself, by a letter or by its number in digits of either
case. A string is read alike in all of them, and what is written is one of them.
-/
namespace Listeners.Json
open Text

def HexDigit (c : Char) (n : Nat) : Prop :=
  (c, n) ∈ "0123456789abcdef".toList.zipIdx ∨ (c, n) ∈ "0123456789ABCDEF".toList.zipIdx

instance (c : Char) (n : Nat) : Decidable (HexDigit c n) :=
  inferInstanceAs (Decidable (_ ∈ _ ∨ _ ∈ _))

inductive FourDigits : Nat → List Char → Prop where
  | digits {a b c d : Char} {i j k l : Nat} (first : HexDigit a i) (second : HexDigit b j)
      (third : HexDigit c k) (fourth : HexDigit d l) :
      FourDigits (((i * 16 + j) * 16 + k) * 16 + l) [a, b, c, d]

/-- The ways to write a character inside a string. One beyond the basic plane is numbered by a pair.
-/
inductive Spells (c : Char) : List Char → Prop where
  | plain (no_quote : c ≠ '"') (no_backslash : c ≠ '\\') (visible : 32 ≤ c.toNat) : Spells c [c]
  | letter {letter : Char} (known : (letter, c) ∈ ('/', '/') :: letterEscapes) :
      Spells c ['\\', letter]
  | number {digits : List Char} (digits_of : FourDigits c.toNat digits) :
      Spells c ('\\' :: 'u' :: digits)
  | pair {high low : Nat} {leading trailing : List Char} (high_lt : high < 0x400) (low_lt : low < 0x400)
      (code : c.toNat = 0x10000 + high * 0x400 + low) (leading_of : FourDigits (0xd800 + high) leading)
      (trailing_of : FourDigits (0xdc00 + low) trailing) :
      Spells c ('\\' :: 'u' :: leading ++ '\\' :: 'u' :: trailing)

theorem hexValue_of_hexDigit {c : Char} {n : Nat} (digit : HexDigit c n) : hexValue? c = some n := by
  have small : ∀ p ∈ "0123456789abcdef".toList.zipIdx, hexValue? p.1 = some p.2 := by decide
  have capital : ∀ p ∈ "0123456789ABCDEF".toList.zipIdx, hexValue? p.1 = some p.2 := by decide
  cases digit with
  | inl here => exact small _ here
  | inr here => exact capital _ here

theorem fourDigits_spelled {n : Nat} {digits : List Char} (number : FourDigits n digits)
    (rest : List Char) : fourDigits (digits ++ rest) = .ok (n, rest) := by
  cases number with
  | digits first second third fourth =>
    simp only [List.cons_append, List.nil_append, fourDigits, hexValue_of_hexDigit first,
      hexValue_of_hexDigit second, hexValue_of_hexDigit third, hexValue_of_hexDigit fourth]

theorem codePoint_character {c : Char} {digits : List Char} (number : FourDigits c.toNat digits)
    (rest : List Char) : codePoint (digits ++ rest) = .ok (c, rest) := by
  have valid : c.toNat < 0xd800 ∨ 0xdfff < c.toNat ∧ c.toNat < 0x110000 := c.valid
  have notTrailing : isTrailing c.toNat = false := by
    simp only [isTrailing, Bool.and_eq_false_iff, decide_eq_false_iff_not]
    omega
  have notLeading : isLeading c.toNat = false := by
    simp only [isLeading, Bool.and_eq_false_iff, decide_eq_false_iff_not]
    omega
  simp only [codePoint, fourDigits_spelled number, bind, Except.bind, notTrailing, notLeading,
    Bool.false_eq_true, if_false, Char.ofNat_toNat]

theorem codePoint_pair {c : Char} {high low : Nat} {leading trailing : List Char}
    (high_lt : high < 0x400) (low_lt : low < 0x400) (code : c.toNat = 0x10000 + high * 0x400 + low)
    (leading_of : FourDigits (0xd800 + high) leading) (trailing_of : FourDigits (0xdc00 + low) trailing)
    (rest : List Char) :
    codePoint (leading ++ '\\' :: 'u' :: (trailing ++ rest)) = .ok (c, rest) := by
  have notTrailing : isTrailing (0xd800 + high) = false := by
    simp only [isTrailing, Bool.and_eq_false_iff, decide_eq_false_iff_not]
    omega
  have leads : isLeading (0xd800 + high) = true := by
    simp only [isLeading, Bool.and_eq_true, decide_eq_true_eq]
    omega
  have trails : isTrailing (0xdc00 + low) = true := by
    simp only [isTrailing, Bool.and_eq_true, decide_eq_true_eq]
    omega
  have whole : 0x10000 + (0xd800 + high - 0xd800) * 0x400 + (0xdc00 + low - 0xdc00) = c.toNat := by
    omega
  simp only [codePoint, fourDigits_spelled leading_of, fourDigits_spelled trailing_of, bind, Except.bind,
    notTrailing, leads, Bool.false_eq_true, if_false, if_true, Json.trailing, trails, whole,
    Char.ofNat_toNat]

theorem escape_letter {letter c : Char} (known : (letter, c) ∈ letterEscapes) (rest : List Char) :
    escape (letter :: rest) = .ok (c, rest) := by
  simp only [letterEscapes, List.mem_cons, Prod.mk.injEq, List.not_mem_nil, or_false] at known
  rcases known with ⟨rfl, rfl⟩ | ⟨rfl, rfl⟩ | ⟨rfl, rfl⟩ | ⟨rfl, rfl⟩ | ⟨rfl, rfl⟩ | ⟨rfl, rfl⟩ |
    ⟨rfl, rfl⟩
  all_goals rfl

theorem characters_spelled {c : Char} {word : List Char} (spells : Spells c word)
    (read rest : List Char) : characters read (word ++ rest) = characters (c :: read) rest := by
  cases spells with
  | plain no_quote no_backslash visible => exact characters_plain no_quote no_backslash visible
  | letter known =>
    rcases List.mem_cons.1 known with slash | other
    · cases slash
      exact characters_escape rfl
    · exact characters_escape (escape_letter other rest)
  | number digits_of => exact characters_escape (codePoint_character digits_of rest)
  | pair high_lt low_lt code leading_of trailing_of =>
    have point := codePoint_pair high_lt low_lt code leading_of trailing_of rest
    simp only [List.cons_append, List.append_assoc]
    exact characters_escape point

theorem hexDigit_spelled : ∀ n < 16, HexDigit (hexDigit n) n := by decide

theorem hexValue_hexDigit (n : Nat) (small : n < 16) : hexValue? (hexDigit n) = some n :=
  hexValue_of_hexDigit (hexDigit_spelled n small)

theorem spells_escaped (c : Char) : Spells c (escaped c) := by
  rcases escaped_cases c with ⟨letter, known, text⟩ | ⟨control, text⟩ |
    ⟨notQuote, notBackslash, visible, text⟩
  · rw [text]
    exact .letter (List.mem_cons_of_mem _ known)
  · have zero := hexDigit_spelled 0 (by decide)
    have high := hexDigit_spelled (c.toNat / 16) (by omega)
    have low := hexDigit_spelled (c.toNat % 16) (by omega)
    have code : ((0 * 16 + 0) * 16 + c.toNat / 16) * 16 + c.toNat % 16 = c.toNat := by omega
    have digits := FourDigits.digits zero zero high low
    rw [code] at digits
    rw [text]
    exact .number digits
  · rw [text]
    exact .plain notQuote notBackslash visible

end Listeners.Json
