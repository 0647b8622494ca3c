import Listeners.Proofs.Path
import Mathlib.Computability.Language
/-!
The pattern of a function, apart from the scanners that look for one: a regular language, with
every way to split a text that such a language leaves open. The scanners take all they can and
never go back, and they accept just the texts that start with a word of the language.
-/
namespace Listeners.Expression
open Text
open scoped Computability

def Class (p : Char → Prop) : Language Char := {word | ∃ c, p c ∧ word = [c]}

def Exactly (text : String) : Language Char := {word | word = text.toList}

def Blanks : Language Char := (Class fun c => isBlank c = true)∗

/-- The pattern `[A-Za-z0-9_$]+|\([^)]*\)`. -/
def Parameters : Language Char :=
  Class (fun c => Letter c ∨ Digit c) * (Class fun c => Letter c ∨ Digit c)∗ +
    Exactly "(" * (Class fun c => c ≠ ')')∗ * Exactly ")"

/-- The pattern `\s*([A-Za-z0-9_$]+|\([^)]*\))\s*=>`. -/
def ArrowPattern : Language Char := Blanks * Parameters * Blanks * Exactly "=>"

/-- The pattern `function\s*\(`. -/
def AnonymousPattern : Language Char := Exactly "function" * Blanks * Exactly "("

theorem mem_exactly (text : String) : text.toList ∈ Exactly text := rfl

theorem mem_star_class {p : Char → Prop} {word : List Char} :
    word ∈ (Class p)∗ ↔ ∀ c ∈ word, p c := by
  constructor
  · intro star c member
    obtain ⟨parts, rfl, single⟩ := Language.mem_kstar.1 star
    obtain ⟨part, listed, inside⟩ := List.mem_flatten.1 member
    obtain ⟨d, holds, rfl⟩ := single part listed
    rw [List.mem_singleton.1 inside]
    exact holds
  · intro all
    refine Language.mem_kstar.2 ⟨word.map fun c => [c], (List.flatMap_singleton' word).symm, ?_⟩
    intro part listed
    obtain ⟨c, member, rfl⟩ := List.mem_map.1 listed
    exact ⟨c, all c member, rfl⟩

theorem mem_parameters {word : List Char} :
    word ∈ Parameters ↔
      (∃ c r, word = c :: r ∧ isIdentPart c = true ∧ ∀ d ∈ r, isIdentPart d = true) ∨
      ∃ body, word = '(' :: body ++ [')'] ∧ ∀ d ∈ body, d ≠ ')' := by
  constructor
  · rintro (bare | enclosed)
    · obtain ⟨_, ⟨c, part, rfl⟩, r, rest, rfl⟩ := Language.mem_mul.1 bare
      exact Or.inl ⟨c, r, rfl, (isIdentPart_iff c).2 part,
        fun d member => (isIdentPart_iff d).2 (mem_star_class.1 rest d member)⟩
    · obtain ⟨_, opened, _, rfl, rfl⟩ := Language.mem_mul.1 enclosed
      obtain ⟨_, rfl, body, inside, rfl⟩ := Language.mem_mul.1 opened
      exact Or.inr ⟨body, rfl, mem_star_class.1 inside⟩
  · rintro (⟨c, r, rfl, part, rest⟩ | ⟨body, rfl, inside⟩)
    · have first : [c] ∈ Class fun c => Letter c ∨ Digit c := ⟨c, (isIdentPart_iff c).1 part, rfl⟩
      have others : r ∈ (Class fun c => Letter c ∨ Digit c)∗ :=
        mem_star_class.2 fun d member => (isIdentPart_iff d).1 (rest d member)
      exact Or.inl (Language.append_mem_mul first others)
    · have opened := Language.append_mem_mul (mem_exactly "(") (mem_star_class.2 inside)
      exact Or.inr (Language.append_mem_mul opened (mem_exactly ")"))

theorem afterParameters_enclosed {body : List Char} (inside : ∀ c ∈ body, c ≠ ')') (r : List Char) :
    afterParameters ('(' :: body ++ ')' :: r) = some r := by
  have closing : (body ++ ')' :: r).dropWhile (· != ')') = ')' :: r :=
    dropWhile_append_stops (by simpa using inside) (stops_cons (by decide) r)
  simp [afterParameters, closing]

theorem afterParameters_unclosed {s : List Char} (inside : ∀ c ∈ s, c ≠ ')') :
    afterParameters ('(' :: s) = none := by
  have closing : s.dropWhile (· != ')') = [] := List.dropWhile_eq_nil_iff.2 (by simpa using inside)
  simp [afterParameters, closing]

theorem afterParameters_of_head {c : Char} (notOpening : c ≠ '(') (r : List Char) :
    afterParameters (c :: r) =
      if isIdentPart c = true then some (r.dropWhile isIdentPart) else none := by
  unfold afterParameters
  split
  · next same =>
    cases same
    exact absurd rfl notOpening
  · by_cases part : isIdentPart c = true
    · simp [part]
    · simp [part]

theorem afterParameters_append {word r : List Char} (parameters : word ∈ Parameters)
    (stop : Stops isIdentPart r) : afterParameters (word ++ r) = some r := by
  rcases mem_parameters.1 parameters with ⟨c, t, rfl, part, rest⟩ | ⟨body, rfl, inside⟩
  · have notOpening : c ≠ '(' := by
      rintro rfl
      exact absurd part (by decide)
    rw [List.cons_append, afterParameters_of_head notOpening, if_pos part,
      dropWhile_append_stops rest stop]
  · rw [List.append_assoc]
    exact afterParameters_enclosed inside r

theorem afterParameters_some {s r : List Char} (h : afterParameters s = some r) :
    ∃ word ∈ Parameters, s = word ++ r := by
  cases s with
  | nil => simp [afterParameters] at h
  | cons c t =>
    by_cases opening : c = '('
    · subst opening
      by_cases closes : ')' ∈ t
      · obtain ⟨body, rest, rfl, closed⟩ := List.eq_append_cons_of_mem closes
        have inside : ∀ d ∈ body, d ≠ ')' := fun d member same => closed (same ▸ member)
        cases (afterParameters_enclosed inside rest).symm.trans h
        exact ⟨_, mem_parameters.2 (Or.inr ⟨body, rfl, inside⟩), by simp⟩
      · rw [afterParameters_unclosed (fun d member same => closes (same ▸ member))] at h
        cases h
    · rw [afterParameters_of_head opening] at h
      split at h
      · next part =>
        cases h
        refine ⟨c :: t.takeWhile isIdentPart, mem_parameters.2 (Or.inl ⟨_, _, rfl, part, ?_⟩), ?_⟩
        · intro d member
          exact List.mem_takeWhile_imp member
        · rw [List.cons_append, List.takeWhile_append_dropWhile]
      · cases h

theorem parameters_stops {word : List Char} (parameters : word ∈ Parameters) (r : List Char) :
    Stops isBlank (word ++ r) := by
  rcases mem_parameters.1 parameters with ⟨c, t, rfl, part, _⟩ | ⟨body, rfl, _⟩
  · refine stops_cons (Bool.eq_false_iff.2 fun blank => ?_) _
    rw [isIdentPart_of_isBlank blank] at part
    cases part
  · exact stops_cons (by decide) _

theorem stops_arrow {between : List Char} (blank : ∀ c ∈ between, isBlank c = true) (r : List Char) :
    Stops isIdentPart (between ++ '=' :: r) := by
  cases between with
  | nil => exact stops_cons (by decide) r
  | cons c t => exact stops_cons (isIdentPart_of_isBlank (blank c List.mem_cons_self)) _

theorem mem_arrowPattern {word : List Char} :
    word ∈ ArrowPattern ↔ ∃ before parameters between, word =
        before ++ (parameters ++ (between ++ ['=', '>'])) ∧
      (∀ c ∈ before, isBlank c = true) ∧ parameters ∈ Parameters ∧
        ∀ c ∈ between, isBlank c = true := by
  constructor
  · intro arrow
    obtain ⟨_, spaced, _, rfl, rfl⟩ := Language.mem_mul.1 arrow
    obtain ⟨_, named, between, after, rfl⟩ := Language.mem_mul.1 spaced
    obtain ⟨before, blank, parameters, accepted, rfl⟩ := Language.mem_mul.1 named
    exact ⟨before, parameters, between, by simp, mem_star_class.1 blank, accepted,
      mem_star_class.1 after⟩
  · rintro ⟨before, parameters, between, rfl, blank, accepted, after⟩
    have named := Language.append_mem_mul (mem_star_class.2 blank) accepted
    have spaced := Language.append_mem_mul named (mem_star_class.2 after)
    have arrow := Language.append_mem_mul spaced (mem_exactly "=>")
    rw [← List.append_assoc, ← List.append_assoc]
    exact arrow

theorem mem_anonymousPattern {word : List Char} :
    word ∈ AnonymousPattern ↔
      ∃ between, word = "function".toList ++ (between ++ ['(']) ∧ ∀ c ∈ between, isBlank c = true := by
  constructor
  · intro anonymous
    obtain ⟨_, spaced, _, rfl, rfl⟩ := Language.mem_mul.1 anonymous
    obtain ⟨_, rfl, between, after, rfl⟩ := Language.mem_mul.1 spaced
    exact ⟨between, by simp, mem_star_class.1 after⟩
  · rintro ⟨between, rfl, after⟩
    have spaced := Language.append_mem_mul (mem_exactly "function") (mem_star_class.2 after)
    have anonymous := Language.append_mem_mul spaced (mem_exactly "(")
    rw [← List.append_assoc]
    exact anonymous

theorem isArrowHead_iff (s : List Char) :
    isArrowHead s = true ↔ ∃ head ∈ ArrowPattern, head <+: s := by
  constructor
  · intro arrow
    unfold isArrowHead at arrow
    split at arrow
    · next rest read =>
      obtain ⟨parameters, accepted, named⟩ := afterParameters_some read
      obtain ⟨r, shaft⟩ := List.isPrefixOf_iff_prefix.1 arrow
      have whole : s = s.takeWhile isBlank ++ (parameters ++
          (rest.takeWhile isBlank ++ (['=', '>'] ++ r))) := by
        rw [shaft, dropBlank, List.takeWhile_append_dropWhile, ← named, dropBlank,
          List.takeWhile_append_dropWhile]
      refine ⟨_, mem_arrowPattern.2 ⟨s.takeWhile isBlank, parameters, rest.takeWhile isBlank, rfl,
        fun c member => List.mem_takeWhile_imp member, accepted,
        fun c member => List.mem_takeWhile_imp member⟩, r, ?_⟩
      simpa using whole.symm
    · cases arrow
  · rintro ⟨head, pattern, r, rfl⟩
    obtain ⟨before, parameters, between, rfl, blank, accepted, after⟩ := mem_arrowPattern.1 pattern
    have unblanked : dropBlank (before ++ (parameters ++ (between ++ '=' :: '>' :: r))) =
        parameters ++ (between ++ '=' :: '>' :: r) :=
      dropWhile_append_stops blank (parameters_stops accepted _)
    have named := afterParameters_append accepted (stops_arrow after ('>' :: r))
    have shaft : dropBlank (between ++ '=' :: '>' :: r) = '=' :: '>' :: r :=
      dropWhile_append_stops after (stops_cons (by decide) _)
    simp [isArrowHead, unblanked, named, shaft]

theorem isFunctionHead_iff (s : List Char) :
    isFunctionHead s = true ↔ ∃ head ∈ AnonymousPattern, head <+: s := by
  constructor
  · intro anonymous
    simp only [isFunctionHead, Bool.and_eq_true, List.isPrefixOf_iff_prefix] at anonymous
    obtain ⟨⟨t, rfl⟩, r, opening⟩ := anonymous
    rw [List.drop_left] at opening
    have whole : t = t.takeWhile isBlank ++ (['('] ++ r) := by
      rw [opening, dropBlank, List.takeWhile_append_dropWhile]
    refine ⟨_, mem_anonymousPattern.2 ⟨t.takeWhile isBlank, rfl,
      fun c member => List.mem_takeWhile_imp member⟩, r, ?_⟩
    simpa using whole.symm
  · rintro ⟨head, pattern, r, rfl⟩
    obtain ⟨between, rfl, after⟩ := mem_anonymousPattern.1 pattern
    have opening : dropBlank (between ++ '(' :: r) = '(' :: r :=
      dropWhile_append_stops after (stops_cons (by decide) _)
    simp [isFunctionHead, opening]

/-- What stands behind the match may be anything. -/
theorem isFunction_iff_pattern (text : String) :
    isFunction text = true ↔ ∃ head ∈ ArrowPattern + AnonymousPattern, head <+: text.toList := by
  simp only [isFunction, Bool.or_eq_true, isArrowHead_iff, isFunctionHead_iff, Language.mem_add,
    or_and_right, exists_or]

end Listeners.Expression
