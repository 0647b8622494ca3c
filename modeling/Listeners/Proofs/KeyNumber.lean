import Listeners.Proofs.PrologueText
import Mathlib.Data.List.Induction
import Mathlib.Data.List.TakeWhile
import Mathlib.Data.Nat.Digits.Defs
/-!
The number at the front of a key name, apart from the scanner: the name is cut into blanks, a sign,
digits and a rest, each as long as it can be, and the digits count by their places. The same number
is looked for in the bytes of the name, where a cut could fall inside a character. None does.
-/
namespace Listeners.KeyCode
open Text

inductive Sign where
  | absent
  | plus
  | minus
  deriving DecidableEq, Repr

def Sign.text : Sign → List Char
  | absent => []
  | plus => ['+']
  | minus => ['-']

def Sign.apply : Sign → Nat → Int
  | minus, n => -n
  | _, n => n

def isSign (c : Char) : Bool := c == '+' || c == '-'

structure Front where
  blanks : List Char
  sign : Sign
  digits : List Char
  rest : List Char
  blank : ∀ c ∈ blanks, isBlank c = true
  digit : ∀ c ∈ digits, isDigit c = true
  all_blanks : Stops isBlank (sign.text ++ (digits ++ rest))
  all_signs : sign = .absent → Stops isSign (digits ++ rest)
  all_digits : Stops isDigit rest

def Front.text (f : Front) : List Char := f.blanks ++ (f.sign.text ++ (f.digits ++ f.rest))

def placeValue (digits : List Char) : Nat :=
  Nat.ofDigits 10 (digits.reverse.map fun d => d.toNat - '0'.toNat)

def Front.value (f : Front) : Int := f.sign.apply (placeValue f.digits)

/-- The number in decimal: a minus sign only below zero, and all digits but the zeros before the
first other digit. -/
def Front.Writes (f : Front) (text : String) : Prop :=
  ∃ zeros first others, f.digits = zeros ++ first :: others ∧ (∀ z ∈ zeros, z = '0') ∧ first ≠ '0' ∧
    text.toList = (if f.value < 0 then ['-'] else []) ++ first :: others ∧
    placeValue (first :: others) = f.value.natAbs

theorem digit_toNat {c : Char} (digit : isDigit c = true) : 48 ≤ c.toNat ∧ c.toNat ≤ 57 := by
  simpa [isDigit, Char.isDigit, UInt32.le_iff_toNat_le] using digit

theorem digitChar_of_digit {c : Char} (digit : isDigit c = true) :
    Nat.digitChar (c.toNat - 48) = c := by
  have table : ∀ n, n < 10 → Nat.digitChar n = Char.ofNat (n + 48) := by decide
  have bounds := digit_toNat digit
  rw [table _ (by omega), Nat.sub_add_cancel bounds.1, Char.ofNat_toNat]

theorem placeValue_singleton (d : Char) : placeValue [d] = d.toNat - 48 := by
  simp [placeValue]

theorem placeValue_append_one (digits : List Char) (d : Char) :
    placeValue (digits ++ [d]) = 10 * placeValue digits + (d.toNat - 48) := by
  simp only [placeValue, List.reverse_append, List.reverse_singleton, List.singleton_append,
    List.map_cons, Nat.ofDigits_cons]
  exact Nat.add_comm _ _

theorem ofDigitChars_eq_placeValue (digits : List Char) :
    Nat.ofDigitChars 10 digits 0 = placeValue digits := by
  induction digits using List.reverseRecOn with
  | nil => rfl
  | append_singleton digits d ih =>
    rw [Nat.ofDigitChars_append, ih, placeValue_append_one, Nat.ofDigitChars_cons,
      Nat.ofDigitChars_nil]
    rfl

theorem placeValue_zeros {zeros : List Char} (zero : ∀ z ∈ zeros, z = '0') (digits : List Char) :
    placeValue (zeros ++ digits) = placeValue digits := by
  have same : zeros = List.replicate zeros.length '0' := List.eq_replicate_iff.2 ⟨rfl, zero⟩
  rw [← ofDigitChars_eq_placeValue, ← ofDigitChars_eq_placeValue, Nat.ofDigitChars_append, same,
    Nat.ofDigitChars_replicate_zero, Nat.mul_zero]

theorem placeValue_pos {first : Char} (nonzero : first ≠ '0') (digit : isDigit first = true)
    (others : List Char) : 0 < placeValue (first :: others) := by
  induction others using List.reverseRecOn with
  | nil =>
    have bounds := digit_toNat digit
    have notZero : first.toNat ≠ '0'.toNat := fun same => nonzero (Char.toNat_inj.1 same)
    have zero : '0'.toNat = 48 := rfl
    have value := placeValue_singleton first
    omega
  | append_singleton others d ih =>
    rw [← List.cons_append, placeValue_append_one]
    omega

theorem toDigits_placeValue {first : Char} {others : List Char} (nonzero : first ≠ '0')
    (digit : ∀ c ∈ first :: others, isDigit c = true) :
    Nat.toDigits 10 (placeValue (first :: others)) = first :: others := by
  -- digits are taken off the end, so that the first one stays
  induction others using List.reverseRecOn with
  | nil =>
    have one := digit first List.mem_cons_self
    have bounds := digit_toNat one
    rw [placeValue_singleton, Nat.toDigits_of_lt_base (by omega), digitChar_of_digit one]
  | append_singleton others d ih =>
    have shorter := ih (fun c member => digit c (by simp at member ⊢; tauto))
    have last := digit d (by simp)
    have bounds := digit_toNat last
    have positive := placeValue_pos nonzero (digit first List.mem_cons_self) others
    have small : d.toNat - 48 < 10 := by omega
    rw [← List.cons_append, placeValue_append_one,
      ← Nat.toDigits_append_toDigits (by decide) positive small, shorter,
      Nat.toDigits_of_lt_base small, digitChar_of_digit last]

theorem digits_cases (digits : List Char) :
    (∀ z ∈ digits, z = '0') ∨
      ∃ zeros first others, digits = zeros ++ first :: others ∧ (∀ z ∈ zeros, z = '0') ∧
        first ≠ '0' := by
  induction digits with
  | nil => exact Or.inl (by simp)
  | cons d digits ih =>
    by_cases zero : d = '0'
    · subst zero
      rcases ih with all | ⟨zeros, first, others, rfl, all, nonzero⟩
      · exact Or.inl (by simpa using all)
      · exact Or.inr ⟨'0' :: zeros, first, others, rfl, by simpa using all, nonzero⟩
    · exact Or.inr ⟨[], d, digits, rfl, by simp, zero⟩

theorem Front.dropBlank_text (f : Front) :
    dropBlank f.text = f.sign.text ++ (f.digits ++ f.rest) :=
  dropWhile_append_stops f.blank f.all_blanks

theorem Front.takeWhile_digits (f : Front) : (f.digits ++ f.rest).takeWhile isDigit = f.digits :=
  takeWhile_append_stops f.digit f.all_digits

theorem Front.leadingNumber (f : Front) :
    KeyCode.leadingNumber (f.digits ++ f.rest) = placeValue f.digits := by
  rw [KeyCode.leadingNumber, f.takeWhile_digits, ofDigitChars_eq_placeValue]

def signAt : List Char → Sign
  | '-' :: _ => .minus
  | '+' :: _ => .plus
  | _ => .absent

theorem stops_sign {s : List Char} (absent : signAt s = .absent) : Stops isSign s := by
  rintro c r rfl
  simp only [isSign, Bool.or_eq_false_iff, beq_eq_false_iff_ne]
  constructor
  · rintro rfl
    cases absent
  · rintro rfl
    cases absent

theorem signAt_stops {s : List Char} (stop : Stops isSign s) : signAt s = .absent := by
  unfold signAt
  split
  · exact absurd (stop _ _ rfl) (by decide)
  · exact absurd (stop _ _ rfl) (by decide)
  · rfl

theorem sign_append_drop (s : List Char) :
    s = (signAt s).text ++ s.drop (signAt s).text.length := by
  unfold signAt
  split <;> rfl

theorem Front.signAt_text (f : Front) :
    signAt (f.sign.text ++ (f.digits ++ f.rest)) = f.sign := by
  cases sign : f.sign with
  | absent => exact signAt_stops (f.all_signs sign)
  | plus => rfl
  | minus => rfl

theorem exists_front (key : List Char) : ∃ f : Front, f.text = key := by
  obtain ⟨s, unblanked⟩ : ∃ s, s = dropBlank key := ⟨_, rfl⟩
  obtain ⟨unsigned, signed⟩ : ∃ unsigned, s = (signAt s).text ++ unsigned := ⟨_, sign_append_drop s⟩
  have digits : unsigned.takeWhile isDigit ++ unsigned.dropWhile isDigit = unsigned :=
    List.takeWhile_append_dropWhile
  have all_blanks : Stops isBlank
      ((signAt s).text ++ (unsigned.takeWhile isDigit ++ unsigned.dropWhile isDigit)) := by
    rw [digits, ← signed, unblanked]
    exact stops_dropWhile isBlank key
  have all_signs : signAt s = .absent →
      Stops isSign (unsigned.takeWhile isDigit ++ unsigned.dropWhile isDigit) := by
    intro absent
    have whole : s = unsigned := by
      rw [absent] at signed
      exact signed
    rw [digits, ← whole]
    exact stops_sign absent
  have whole : key.takeWhile isBlank ++
      ((signAt s).text ++ (unsigned.takeWhile isDigit ++ unsigned.dropWhile isDigit)) = key := by
    rw [digits, ← signed, unblanked]
    exact List.takeWhile_append_dropWhile
  exact ⟨⟨key.takeWhile isBlank, signAt s, unsigned.takeWhile isDigit, unsigned.dropWhile isDigit,
    fun c member => List.mem_takeWhile_imp member, fun c member => List.mem_takeWhile_imp member,
    all_blanks, all_signs, stops_dropWhile isDigit unsigned⟩, whole⟩

theorem Front.text_inj {f g : Front} (same : f.text = g.text) : f = g := by
  have unblanked : f.sign.text ++ (f.digits ++ f.rest) = g.sign.text ++ (g.digits ++ g.rest) := by
    rw [← f.dropBlank_text, same, g.dropBlank_text]
  have blanks : f.blanks = g.blanks := by
    unfold Front.text at same
    rw [unblanked] at same
    exact List.append_cancel_right same
  have sign : f.sign = g.sign := by
    rw [← f.signAt_text, unblanked, g.signAt_text]
  have unsigned : f.digits ++ f.rest = g.digits ++ g.rest := by
    rw [sign] at unblanked
    exact List.append_cancel_left unblanked
  have digits : f.digits = g.digits := by
    rw [← f.takeWhile_digits, unsigned, g.takeWhile_digits]
  have rest : f.rest = g.rest := by
    rw [digits] at unsigned
    exact List.append_cancel_left unsigned
  cases f
  cases g
  simp_all

theorem leadingInteger_eq (key : String) :
    leadingInteger key =
      (signAt (dropBlank key.toList)).apply
        (leadingNumber ((dropBlank key.toList).drop (signAt (dropBlank key.toList)).text.length)) := by
  unfold leadingInteger
  generalize dropBlank key.toList = s
  split
  · rfl
  · rfl
  · next notMinus notPlus =>
    have absent : signAt s = .absent := by
      unfold signAt
      split
      · exact absurd rfl (notMinus _)
      · exact absurd rfl (notPlus _)
      · rfl
    rw [absent]
    rfl

theorem leadingInteger_front {key : String} {f : Front} (parts : f.text = key.toList) :
    leadingInteger key = f.value := by
  rw [leadingInteger_eq, ← parts, f.dropBlank_text, f.signAt_text, List.drop_left, f.leadingNumber]
  rfl

theorem natAbs_apply (sign : Sign) (n : Nat) : (sign.apply n).natAbs = n := by
  cases sign with
  | absent | plus | minus => simp [Sign.apply]

theorem integer_apply (sign : Sign) {n : Nat} (counts : 0 < n) :
    (Decimal.integer (sign.apply n)).toList =
      (if sign.apply n < 0 then ['-'] else []) ++ Nat.toDigits 10 n := by
  cases sign with
  | absent | plus =>
    have above : ¬ (n : Int) < 0 := by omega
    simp [Sign.apply, Decimal.integer_natCast, above]
  | minus => simp [Sign.apply, Decimal.integer_neg counts, counts]

theorem Front.natAbs_value (f : Front) : f.value.natAbs = placeValue f.digits :=
  natAbs_apply f.sign _

theorem Front.zeros_of_value (f : Front) (zero : f.value = 0) : ∀ z ∈ f.digits, z = '0' := by
  rcases digits_cases f.digits with all | ⟨zeros, first, others, split, all, nonzero⟩
  · exact all
  · have digit := f.digit first (by simp [split])
    have positive := placeValue_pos nonzero digit others
    have natAbs := f.natAbs_value
    rw [split, placeValue_zeros all] at natAbs
    omega

theorem Front.writes_integer {f : Front} (counts : f.value ≠ 0) :
    f.Writes (Decimal.integer f.value) := by
  have natAbs := f.natAbs_value
  rcases digits_cases f.digits with all | ⟨zeros, first, others, split, all, nonzero⟩
  · have zero := placeValue_zeros all []
    rw [List.append_nil] at zero
    have none : placeValue [] = 0 := rfl
    omega
  · have digit : ∀ c ∈ first :: others, isDigit c = true := by
      intro c member
      exact f.digit c (by rw [split]; exact List.mem_append_right zeros member)
    have value : placeValue f.digits = placeValue (first :: others) := by
      rw [split, placeValue_zeros all]
    have printed := integer_apply f.sign (n := placeValue f.digits) (by omega)
    refine ⟨zeros, first, others, split, all, nonzero, ?_, by rw [natAbs, value]⟩
    rw [Front.value, printed, value, toDigits_placeValue nonzero digit]

def bytes (s : List Char) : List UInt8 := s.flatMap String.utf8EncodeChar

def isDigitByte (b : UInt8) : Bool := '0'.toNat ≤ b.toNat && b.toNat ≤ '9'.toNat

/-- The first so many bytes of a text and the others, as texts. There are none where the cut falls
inside a character or behind the end. -/
def cut : Nat → List Char → Option (List Char × List Char)
  | 0, s => some ([], s)
  | _ + 1, [] => none
  | n + 1, c :: r =>
    if c.utf8Size ≤ n + 1 then (cut (n + 1 - c.utf8Size) r).map fun (s, t) => (c :: s, t) else none

def signOfByte (first : Option UInt8) : Sign :=
  if first = some 0x2d then .minus else if first = some 0x2b then .plus else .absent

/-- The decimal form of the number at the front, from the bytes: its sign is the first byte behind
the blanks, its digits are counted as bytes, and the zeros before it are left out. It is none where
there is no number or only zero; the outer option is none where a cut fails. -/
def numeral (key : String) : Option (Option String) := do
  let unblanked := dropBlank key.toList
  let sign := signOfByte (bytes unblanked).head?
  let (_, unsigned) ← cut sign.text.length unblanked
  let (digits, _) ← cut ((bytes unsigned).takeWhile isDigitByte).length unsigned
  let significant := digits.dropWhile (· == '0')
  some (if significant.isEmpty then none
    else some (String.ofList ((if sign = .minus then ['-'] else []) ++ significant)))

theorem utf8EncodeChar_cases (c : Char) :
    ∃ b r, String.utf8EncodeChar c = b :: r ∧
      ((c.toNat < 128 ∧ c.utf8Size = 1 ∧ r = [] ∧ b.toNat = c.toNat) ∨
        (128 ≤ c.toNat ∧ 128 ≤ b.toNat)) := by
  have size := String.length_utf8EncodeChar c
  have number : c.val.toNat = c.toNat := rfl
  unfold String.utf8EncodeChar at size ⊢
  simp only [number] at size ⊢
  split at size
  · next narrow =>
    rw [if_pos narrow]
    have code : (UInt8.ofNat c.toNat).toNat = c.toNat := by
      rw [UInt8.toNat_ofNat']
      omega
    exact ⟨_, _, rfl, Or.inl ⟨by omega, size.symm, rfl, code⟩⟩
  · next wide =>
    rw [if_neg wide]
    split
    · exact ⟨_, _, rfl, Or.inr ⟨by omega, by rw [UInt8.toNat_ofNat']; omega⟩⟩
    split
    · exact ⟨_, _, rfl, Or.inr ⟨by omega, by rw [UInt8.toNat_ofNat']; omega⟩⟩
    · exact ⟨_, _, rfl, Or.inr ⟨by omega, by rw [UInt8.toNat_ofNat']; omega⟩⟩

theorem cut_ascii {s : List Char} (ascii : ∀ c ∈ s, c.toNat < 128) (r : List Char) :
    cut s.length (s ++ r) = some (s, r) := by
  induction s with
  | nil => rw [List.length_nil, cut, List.nil_append]
  | cons c s ih =>
    have narrow := ascii c List.mem_cons_self
    have size : c.utf8Size = 1 := by
      obtain ⟨_, _, _, ⟨_, one, _⟩ | ⟨wide, _⟩⟩ := utf8EncodeChar_cases c
      · exact one
      · omega
    have later := ih fun d member => ascii d (List.mem_cons_of_mem c member)
    simp [cut, size, later]

theorem isDigit_eq (c : Char) : isDigit c = ('0'.toNat ≤ c.toNat && c.toNat ≤ '9'.toNat) := rfl

theorem isDigitByte_first {c : Char} {b : UInt8} {r : List UInt8}
    (first : String.utf8EncodeChar c = b :: r) : isDigitByte b = isDigit c := by
  obtain ⟨d, t, again, code⟩ := utf8EncodeChar_cases c
  rw [again] at first
  cases first
  have nine : '9'.toNat = 57 := rfl
  rw [isDigitByte, isDigit_eq]
  rcases code with ⟨_, _, _, same⟩ | ⟨wide, beyond⟩
  · rw [same]
  · rw [nine, decide_eq_false (by omega : ¬ b.toNat ≤ 57), decide_eq_false (by omega : ¬ c.toNat ≤ 57),
      Bool.and_false, Bool.and_false]

theorem signOfByte_bytes (s : List Char) : signOfByte (bytes s).head? = signAt s := by
  cases s with
  | nil => rfl
  | cons c s =>
    obtain ⟨b, r, first, code⟩ := utf8EncodeChar_cases c
    have same : ∀ d : Char, d.toNat < 128 → (b.toNat = d.toNat ↔ c = d) := by
      intro d ascii
      rw [← Char.toNat_inj]
      omega
    have minus : b = 0x2d ↔ c = '-' := by
      rw [← same '-' (by decide), ← UInt8.toNat_inj]
      exact Iff.rfl
    have plus : b = 0x2b ↔ c = '+' := by
      rw [← same '+' (by decide), ← UInt8.toNat_inj]
      exact Iff.rfl
    simp only [bytes, List.flatMap_cons, first, List.cons_append, List.head?_cons, signOfByte,
      Option.some.injEq, minus, plus]
    split
    · next isMinus => subst isMinus; rfl
    split
    · next isPlus => subst isPlus; rfl
    · next notMinus notPlus =>
      have other : isSign c = false := by simp [isSign, notMinus, notPlus]
      exact (signAt_stops (stops_cons other s)).symm

theorem takeWhile_bytes {digits rest : List Char} (digit : ∀ c ∈ digits, isDigit c = true)
    (stop : Stops isDigit rest) :
    ((bytes (digits ++ rest)).takeWhile isDigitByte).length = digits.length := by
  induction digits with
  | nil =>
    cases rest with
    | nil => rfl
    | cons c r =>
      obtain ⟨b, t, first, _⟩ := utf8EncodeChar_cases c
      have noDigit := (isDigitByte_first first).trans (stop c r rfl)
      simp [bytes, first, noDigit]
  | cons c digits ih =>
    have one := digit c List.mem_cons_self
    have bounds := digit_toNat one
    obtain ⟨b, t, first, ⟨_, _, rfl, _⟩ | ⟨wide, _⟩⟩ := utf8EncodeChar_cases c
    · have later := ih fun d member => digit d (List.mem_cons_of_mem c member)
      have isByte := (isDigitByte_first first).trans one
      simp only [bytes, List.cons_append, List.flatMap_cons, first, List.nil_append] at later ⊢
      rw [List.takeWhile_cons_of_pos isByte, List.length_cons, List.length_cons, later]
    · omega

theorem apply_neg_iff (sign : Sign) {n : Nat} (counts : 0 < n) :
    sign.apply n < 0 ↔ sign = .minus := by
  cases sign with
  | absent | plus => simp [Sign.apply]
  | minus => simp [Sign.apply, counts]

theorem numeral_front {key : String} {f : Front} (parts : f.text = key.toList) :
    numeral key = some (if f.value = 0 then none else some (Decimal.integer f.value)) := by
  have sign_ascii : ∀ c ∈ f.sign.text, c.toNat < 128 := by
    cases f.sign with
    | absent | plus | minus => simp [Sign.text]
  have digits_ascii : ∀ c ∈ f.digits, c.toNat < 128 := by
    intro c member
    have bounds := digit_toNat (f.digit c member)
    omega
  simp only [numeral, ← parts, f.dropBlank_text, signOfByte_bytes, f.signAt_text,
    cut_ascii sign_ascii, takeWhile_bytes f.digit f.all_digits, cut_ascii digits_ascii,
    Option.bind_eq_bind, Option.bind_some]
  by_cases zero : f.value = 0
  · have dropped : f.digits.dropWhile (· == '0') = [] :=
      List.dropWhile_eq_nil_iff.2 (by simpa using f.zeros_of_value zero)
    rw [dropped, if_pos zero]
    rfl
  · obtain ⟨zeros, first, others, split, all, nonzero, text, _⟩ := Front.writes_integer zero
    have kept : f.digits.dropWhile (· == '0') = first :: others := by
      rw [split]
      exact dropWhile_append_stops (by simpa using all) (stops_cons (by simpa using nonzero) others)
    have natAbs := f.natAbs_value
    have below : f.value < 0 ↔ f.sign = .minus := apply_neg_iff f.sign (by omega)
    rw [kept, if_neg zero, ← String.ofList_toList (s := Decimal.integer f.value), text]
    simp only [below]
    rfl

theorem lookup_aliases {key : String} {codes : List Nat} (listed : (key, codes) ∈ aliases) :
    aliases.lookup key = some codes := by
  have distinct : ∀ pair ∈ aliases, aliases.lookup pair.1 = some pair.2 := by decide
  exact distinct _ listed

theorem ofName_of_number {key : String} (counts : leadingInteger key ≠ 0) :
    ofName key = [.number (leadingInteger key)] := by
  simp [ofName, counts]

theorem ofName_of_no_number {key : String} (none : leadingInteger key = 0) :
    ofName key = ((aliases.lookup key).map fun codes => codes.map known).getD [.custom key] := by
  simp only [ofName, none, ne_eq, not_true_eq_false, if_false]
  cases aliases.lookup key <;> rfl

/-- A key name is cut in one way. Digits at its front that make a number other than zero stand for
that number, which is written in decimal with all its digits; the bytes of the name give the same
text without a cut inside a character. Any other name is looked for among the known keys as it
stands, and is left to the resolver if it is none of them. -/
theorem ofName_resolved (key : String) :
    ∃ f : Front, f.text = key.toList ∧ (∀ g : Front, g.text = key.toList → g = f) ∧
      (f.digits ≠ [] ∧ f.value ≠ 0 →
        ∃ text, ofName key = [.number f.value] ∧ (∀ o, (KeyCode.number f.value).code o = text) ∧
          f.Writes text ∧ numeral key = some (some text)) ∧
      (¬ (f.digits ≠ [] ∧ f.value ≠ 0) → numeral key = some none ∧
        (∀ codes, (key, codes) ∈ aliases → ofName key = codes.map .known) ∧
        ((∀ codes, (key, codes) ∉ aliases) → ofName key = [.custom key])) ∧
      ofName key ≠ [] := by
  obtain ⟨f, parts⟩ := exists_front key.toList
  have leading := leadingInteger_front parts
  have byBytes := numeral_front parts
  refine ⟨f, parts, fun g same => Front.text_inj (same.trans parts.symm), ?_, ?_, ?_⟩
  · rintro ⟨_, counts⟩
    have number := ofName_of_number (leading ▸ counts)
    rw [leading] at number
    rw [if_neg counts] at byBytes
    exact ⟨Decimal.integer f.value, number, fun _ => rfl, Front.writes_integer counts, byBytes⟩
  · intro noNumber
    have zero : f.value = 0 := by
      by_contra counts
      refine noNumber ⟨fun empty => counts ?_, counts⟩
      rw [← Int.natAbs_eq_zero, f.natAbs_value, empty]
      rfl
    rw [if_pos zero] at byBytes
    have named := ofName_of_no_number (leading.trans zero)
    refine ⟨byBytes, fun codes listed => ?_, fun unlisted => ?_⟩
    · rw [named, lookup_aliases listed]
      rfl
    · have unknown : aliases.lookup key = none := by
        rw [List.lookup_eq_none_iff]
        intro pair listed
        simp only [bne_iff_ne, ne_eq]
        rintro rfl
        exact unlisted _ listed
      rw [named, unknown]
      rfl
  · obtain ⟨c, cs, codes⟩ := ofName_cons key
    rw [codes]
    exact List.cons_ne_nil c cs

-- A known key with two codes, a number with text behind it, and a key left to the resolver.
example : ofName "delete" = [.known 8, .known 46] ∧ ofName " -013px" = [.number (-13)] ∧
    ofName "Delete" = [.custom "Delete"] := by
  decide

end Listeners.KeyCode
