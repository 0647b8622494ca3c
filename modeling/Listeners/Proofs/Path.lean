import Listeners.Expression
import Mathlib.Data.List.TakeWhile
/-!
The grammar of paths, apart from the scanners that look for one: blanks, an identifier,
members and indices, blanks. The scanners accept the texts of this grammar and no others,
and a text is the text of one path at most.
-/
namespace Listeners.Expression
open Text

def Letter (c : Char) : Prop := ('A' ≤ c ∧ c ≤ 'Z') ∨ ('a' ≤ c ∧ c ≤ 'z') ∨ c = '_' ∨ c = '$'

def Digit (c : Char) : Prop := '0' ≤ c ∧ c ≤ '9'

instance : DecidablePred Letter := fun c =>
  inferInstanceAs (Decidable (('A' ≤ c ∧ c ≤ 'Z') ∨ ('a' ≤ c ∧ c ≤ 'z') ∨ c = '_' ∨ c = '$'))

instance : DecidablePred Digit := fun c => inferInstanceAs (Decidable ('0' ≤ c ∧ c ≤ '9'))

structure Identifier where
  first : Char
  rest : List Char
  starts : Letter first
  follows : ∀ c ∈ rest, Letter c ∨ Digit c

def Identifier.text (i : Identifier) : List Char := i.first :: i.rest

structure Digits where
  first : Char
  rest : List Char
  starts : Digit first
  follows : ∀ c ∈ rest, Digit c

def Digits.text (d : Digits) : List Char := d.first :: d.rest

/-- The body may hold its quote and a closing bracket, but not the one right before the other. -/
structure QuotedKey where
  quote : Char
  body : List Char
  quotes : quote = '\'' ∨ quote = '"'
  oneLine : ∀ c ∈ body, c ∉ ['\n', '\r', '\u2028', '\u2029']
  open_inside : ¬ [quote, ']'] <:+: body

def QuotedKey.text (k : QuotedKey) : List Char := k.quote :: k.body ++ [k.quote]

inductive Segment where
  | member (name : Identifier)
  | index (digits : Digits)
  | named (name : Identifier)
  | quoted (key : QuotedKey)

def Segment.text : Segment → List Char
  | member name => '.' :: name.text
  | index digits => '[' :: digits.text ++ [']']
  | named name => '[' :: name.text ++ [']']
  | quoted key => '[' :: key.text ++ [']']

structure Path where
  before : List Char
  root : Identifier
  segments : List Segment
  behind : List Char
  blank_before : ∀ c ∈ before, isBlank c = true
  blank_behind : ∀ c ∈ behind, isBlank c = true

def Path.text (p : Path) : List Char :=
  p.before ++ (p.root.text ++ (p.segments.flatMap Segment.text ++ p.behind))

theorem isIdentStart_iff (c : Char) : isIdentStart c = true ↔ Letter c := by
  simp only [isIdentStart, isAlpha_eq, Letter, Bool.or_eq_true, Bool.and_eq_true, decide_eq_true_eq,
    beq_iff_eq, or_assoc]
  exact Iff.rfl

theorem isDigit_iff (c : Char) : isDigit c = true ↔ Digit c := by
  simp only [isDigit, Char.isDigit, Digit, Bool.and_eq_true, decide_eq_true_eq]
  exact Iff.rfl

theorem isIdentPart_iff (c : Char) : isIdentPart c = true ↔ Letter c ∨ Digit c := by
  simp only [isIdentPart, Bool.or_eq_true, isIdentStart_iff, isDigit_iff]

theorem isLineEnd_iff (c : Char) : isLineEnd c = true ↔ c ∈ ['\n', '\r', '\u2028', '\u2029'] := by
  simp [isLineEnd, or_assoc]

theorem isQuote_iff (c : Char) : isQuote c = true ↔ c = '\'' ∨ c = '"' := by
  simp [isQuote]

theorem not_isQuote_of_isIdentPart {c : Char} (part : isIdentPart c = true) : isQuote c = false := by
  refine Bool.eq_false_iff.mpr fun quote => ?_
  rcases (isQuote_iff c).1 quote with rfl | rfl
  · exact absurd part (by decide)
  · exact absurd part (by decide)

theorem isIdentPart_of_isDigit {c : Char} (digit : isDigit c = true) : isIdentPart c = true := by
  simp [isIdentPart, digit]

theorem afterIdentifier_append (name : Identifier) {r : List Char} (stop : Stops isIdentPart r) :
    afterIdentifier (name.text ++ r) = some r := by
  have starts := (isIdentStart_iff name.first).2 name.starts
  have follows : ∀ c ∈ name.rest, isIdentPart c = true := by
    intro c member
    exact (isIdentPart_iff c).2 (name.follows c member)
  simp [Identifier.text, afterIdentifier, starts, dropWhile_append_stops follows stop]

theorem afterIdentifier_some {s r : List Char} (h : afterIdentifier s = some r) :
    ∃ name : Identifier, s = name.text ++ r := by
  cases s with
  | nil => simp [afterIdentifier] at h
  | cons c t =>
    simp only [afterIdentifier, Option.ite_none_right_eq_some, Option.some.injEq] at h
    obtain ⟨starts, rest⟩ := h
    have follows : ∀ d ∈ t.takeWhile isIdentPart, Letter d ∨ Digit d := by
      intro d member
      exact (isIdentPart_iff d).1 (List.mem_takeWhile_imp member)
    refine ⟨⟨c, t.takeWhile isIdentPart, (isIdentStart_iff c).1 starts, follows⟩, ?_⟩
    simp [Identifier.text, ← rest, List.takeWhile_append_dropWhile]

theorem afterBracket_none {s : List Char} (h : ∀ r, s ≠ ']' :: r) : afterBracket s = none := by
  cases bracket : afterBracket s with
  | none => rfl
  | some r => exact absurd (afterBracket_some bracket) (h r)

theorem afterQuotedKey_append {q : Char} (quotes : q = '\'' ∨ q = '"') (body r : List Char)
    (oneLine : ∀ c ∈ body, isLineEnd c = false) (inside : ¬ [q, ']'] <:+: body) :
    afterQuotedKey q (body ++ q :: ']' :: r) = some r := by
  induction body with
  | nil => simp [afterQuotedKey, afterBracket]
  | cons c t ih =>
    have later := ih (fun d member => oneLine d (List.mem_cons_of_mem c member))
      (fun found => inside (List.infix_cons found))
    by_cases same : c = q
    · -- the next character is no bracket: in the body it may not be one, and behind it the quote stands
      have open_key : afterBracket (t ++ q :: ']' :: r) = none := by
        apply afterBracket_none
        intro u bracket
        cases t with
        | nil =>
          have quote_is_bracket : q = ']' := by simpa using (List.cons.inj bracket).1
          subst quote_is_bracket
          simp at quotes
        | cons d v =>
          have bracket_first : d = ']' := by simpa using (List.cons.inj bracket).1
          subst bracket_first
          subst same
          exact inside (List.IsPrefix.isInfix ⟨v, rfl⟩)
      simp [afterQuotedKey, same, open_key, later]
    · have no_end := oneLine c List.mem_cons_self
      simp [afterQuotedKey, same, no_end, later]

theorem quotedBody_cons {q c : Char} {body : List Char} (no_end : isLineEnd c = false)
    (no_close : ∀ v, c = q → body ≠ ']' :: v) (oneLine : ∀ d ∈ body, isLineEnd d = false)
    (inside : ¬ [q, ']'] <:+: body) :
    (∀ d ∈ c :: body, isLineEnd d = false) ∧ ¬ [q, ']'] <:+: c :: body := by
  constructor
  · intro d member
    rcases List.mem_cons.1 member with same | later
    · rw [same]
      exact no_end
    · exact oneLine d later
  · intro found
    rcases List.infix_cons_iff.1 found with ⟨v, first⟩ | later
    · obtain ⟨same, rest⟩ := List.cons.inj first
      exact no_close v same.symm rest.symm
    · exact inside later

theorem afterQuotedKey_some {q : Char} {s r : List Char} (quotes : q = '\'' ∨ q = '"')
    (h : afterQuotedKey q s = some r) :
    ∃ body, s = body ++ q :: ']' :: r ∧ (∀ c ∈ body, isLineEnd c = false) ∧ ¬ [q, ']'] <:+: body := by
  induction s with
  | nil => simp [afterQuotedKey] at h
  | cons c t ih =>
    unfold afterQuotedKey at h
    split at h
    · next same =>
      subst same
      split at h
      · next rest bracket =>
        cases h
        exact ⟨[], by simp [afterBracket_some bracket], by simp, by simp⟩
      · next no_bracket =>
        obtain ⟨body, rfl, oneLine, inside⟩ := ih h
        have no_end : isLineEnd c = false := by
          rcases quotes with rfl | rfl
          · decide
          · decide
        have no_close : ∀ v, c = c → body ≠ ']' :: v := by
          intro v _ bracket
          simp [bracket, afterBracket] at no_bracket
        exact ⟨c :: body, rfl, quotedBody_cons no_end no_close oneLine inside⟩
    · next other =>
      split at h
      · cases h
      · next line =>
        obtain ⟨body, rfl, oneLine, inside⟩ := ih h
        have no_end : isLineEnd c = false := by simpa using line
        have no_close : ∀ v, c = q → body ≠ ']' :: v := by
          intro v same
          exact absurd same other
        exact ⟨c :: body, rfl, quotedBody_cons no_end no_close oneLine inside⟩

theorem afterIdentifier_bracket (name : Identifier) (r : List Char) :
    (afterIdentifier (name.text ++ ']' :: r)).bind afterBracket = some r := by
  have stop : Stops isIdentPart (']' :: r) := stops_cons (by decide) r
  simp [afterIdentifier_append name stop, afterBracket]

theorem dropWhile_digits (digits : Digits) (r : List Char) :
    (digits.rest ++ ']' :: r).dropWhile isDigit = ']' :: r := by
  have follows : ∀ c ∈ digits.rest, isDigit c = true := by
    intro c member
    exact (isDigit_iff c).2 (digits.follows c member)
  exact dropWhile_append_stops follows (stops_cons (by decide) r)

theorem afterSegment_append (segment : Segment) {r : List Char} (stop : Stops isIdentPart r) :
    afterSegment (segment.text ++ r) = some r := by
  cases segment with
  | member name => exact afterIdentifier_append name stop
  | index digits =>
    have digit := (isDigit_iff digits.first).2 digits.starts
    have no_quote := not_isQuote_of_isIdentPart (isIdentPart_of_isDigit digit)
    simp [Segment.text, Digits.text, afterSegment, afterKey, no_quote, digit, dropWhile_digits,
      afterBracket]
  | named name =>
    have letter := (isIdentStart_iff name.first).2 name.starts
    have no_quote := not_isQuote_of_isIdentPart (isIdentPart_of_isIdentStart letter)
    have no_digit := isDigit_of_isIdentStart letter
    have read := afterIdentifier_bracket name r
    simp only [Identifier.text, List.cons_append] at read
    simp [Segment.text, Identifier.text, afterSegment, afterKey, no_quote, no_digit, read]
  | quoted key =>
    have quote := (isQuote_iff key.quote).2 key.quotes
    have oneLine : ∀ c ∈ key.body, isLineEnd c = false := by
      intro c member
      exact Bool.eq_false_iff.2 fun lineEnd => key.oneLine c member ((isLineEnd_iff c).1 lineEnd)
    have read := afterQuotedKey_append key.quotes key.body r oneLine key.open_inside
    simp [Segment.text, QuotedKey.text, afterSegment, afterKey, quote, read]

theorem afterKey_some {s r : List Char} (h : afterKey s = some r) :
    ∃ segment : Segment, '[' :: s = segment.text ++ r := by
  cases s with
  | nil => simp [afterKey] at h
  | cons c t =>
    rw [afterKey] at h
    split at h
    · next quote =>
      have quotes := (isQuote_iff c).1 quote
      obtain ⟨body, rfl, oneLine, inside⟩ := afterQuotedKey_some quotes h
      have no_end : ∀ d ∈ body, d ∉ ['\n', '\r', '\u2028', '\u2029'] := by
        intro d member lineEnd
        exact Bool.eq_false_iff.1 (oneLine d member) ((isLineEnd_iff d).2 lineEnd)
      exact ⟨.quoted ⟨c, body, quotes, no_end, inside⟩, by simp [Segment.text, QuotedKey.text]⟩
    · split at h
      · next digit =>
        have follows : ∀ d ∈ t.takeWhile isDigit, Digit d := by
          intro d member
          exact (isDigit_iff d).1 (List.mem_takeWhile_imp member)
        refine ⟨.index ⟨c, t.takeWhile isDigit, (isDigit_iff c).1 digit, follows⟩, ?_⟩
        have split := List.takeWhile_append_dropWhile (p := isDigit) (l := t)
        rw [afterBracket_some h] at split
        simp [Segment.text, Digits.text, split]
      · obtain ⟨u, identifier, bracket⟩ := Option.bind_eq_some_iff.1 h
        obtain ⟨name, same⟩ := afterIdentifier_some identifier
        exact ⟨.named name, by simp [Segment.text, same, afterBracket_some bracket]⟩

theorem afterSegment_some {s r : List Char} (h : afterSegment s = some r) :
    ∃ segment : Segment, s = segment.text ++ r := by
  unfold afterSegment at h
  split at h
  · obtain ⟨name, rfl⟩ := afterIdentifier_some h
    exact ⟨.member name, rfl⟩
  · exact afterKey_some h
  · cases h

theorem startsSegment_append (segment : Segment) (r : List Char) :
    startsSegment (segment.text ++ r) = true := by
  cases segment with
  | member | index | named | quoted => rfl

theorem startsSegment_blank {s : List Char} (blank : ∀ c ∈ s, isBlank c = true) :
    startsSegment s = false := by
  cases s with
  | nil => rfl
  | cons c t =>
    have first := blank c List.mem_cons_self
    simp only [startsSegment, Bool.or_eq_false_iff, beq_eq_false_iff_ne]
    constructor
    · rintro rfl
      exact absurd first (by decide)
    · rintro rfl
      exact absurd first (by decide)

theorem stops_segments (segments : List Segment) {behind : List Char}
    (blank : ∀ c ∈ behind, isBlank c = true) :
    Stops isIdentPart (segments.flatMap Segment.text ++ behind) := by
  cases segments with
  | nil =>
    intro c r first
    exact isIdentPart_of_isBlank (blank c (by simp_all))
  | cons segment rest =>
    cases segment with
    | member => exact stops_cons (by decide) _
    | index | named | quoted => exact stops_cons (by decide) _

theorem afterSegments_append (segments : List Segment) {behind : List Char}
    (blank : ∀ c ∈ behind, isBlank c = true) :
    afterSegments (segments.flatMap Segment.text ++ behind) = some behind := by
  induction segments with
  | nil =>
    rw [afterSegments_eq]
    simp [startsSegment_blank blank]
  | cons segment rest ih =>
    have read := afterSegment_append segment (stops_segments rest blank)
    rw [afterSegments_eq, List.flatMap_cons, List.append_assoc, startsSegment_append, read]
    simpa using ih

theorem afterSegments_some {s r : List Char} (h : afterSegments s = some r) :
    ∃ segments : List Segment, s = segments.flatMap Segment.text ++ r := by
  -- a segment shortens the text, so the induction is on its length
  induction length : s.length using Nat.strongRecOn generalizing s with
  | ind n ih =>
    rw [afterSegments_eq] at h
    split at h
    · obtain ⟨t, first, later⟩ := Option.bind_eq_some_iff.1 h
      have shorter := afterSegment_shorter first
      obtain ⟨segments, rfl⟩ := ih t.length (by omega) later rfl
      obtain ⟨segment, rfl⟩ := afterSegment_some first
      exact ⟨segment :: segments, by simp⟩
    · cases h
      exact ⟨[], rfl⟩

theorem Identifier.text_inj {a b : Identifier} (same : a.text = b.text) : a = b := by
  cases a
  cases b
  simp_all [Identifier.text]

theorem Digits.text_inj {a b : Digits} (same : a.text = b.text) : a = b := by
  cases a
  cases b
  simp_all [Digits.text]

theorem QuotedKey.text_inj {a b : QuotedKey} (same : a.text = b.text) : a = b := by
  cases a
  cases b
  simp only [QuotedKey.text, List.cons_append, List.cons.injEq] at same
  obtain ⟨rfl, body⟩ := same
  simpa using body

theorem digit_ne_letter (digits : Digits) (name : Identifier) : digits.first ≠ name.first := by
  intro first
  have digit := (isDigit_iff digits.first).2 digits.starts
  rw [first, isDigit_of_isIdentStart ((isIdentStart_iff name.first).2 name.starts)] at digit
  cases digit

theorem quote_ne_part (key : QuotedKey) {c : Char} (part : Letter c ∨ Digit c) : key.quote ≠ c := by
  intro first
  have quote := (isQuote_iff key.quote).2 key.quotes
  rw [first, not_isQuote_of_isIdentPart ((isIdentPart_iff c).2 part)] at quote
  cases quote

/-- The first character behind an opening bracket keeps the three kinds of index apart. -/
theorem Segment.text_inj {a b : Segment} (same : a.text = b.text) : a = b := by
  cases a with
  | member name =>
    cases b with
    | member other => rw [Identifier.text_inj (List.cons.inj same).2]
    | index | named | quoted => simp [Segment.text] at same
  | index digits =>
    cases b with
    | member => simp [Segment.text] at same
    | index others =>
      have digits_same : digits = others := Digits.text_inj (by simpa [Segment.text] using same)
      rw [digits_same]
    | named other =>
      simp only [Segment.text, Digits.text, Identifier.text, List.cons_append, List.cons.injEq] at same
      exact absurd same.2.1 (digit_ne_letter digits other)
    | quoted other =>
      simp only [Segment.text, Digits.text, QuotedKey.text, List.cons_append, List.cons.injEq] at same
      exact absurd same.2.1.symm (quote_ne_part other (Or.inr digits.starts))
  | named name =>
    cases b with
    | member => simp [Segment.text] at same
    | index others =>
      simp only [Segment.text, Digits.text, Identifier.text, List.cons_append, List.cons.injEq] at same
      exact absurd same.2.1.symm (digit_ne_letter others name)
    | named other =>
      have names_same : name = other := Identifier.text_inj (by simpa [Segment.text] using same)
      rw [names_same]
    | quoted other =>
      simp only [Segment.text, Identifier.text, QuotedKey.text, List.cons_append, List.cons.injEq] at same
      exact absurd same.2.1.symm (quote_ne_part other (Or.inl name.starts))
  | quoted key =>
    cases b with
    | member => simp [Segment.text] at same
    | index others =>
      simp only [Segment.text, Digits.text, QuotedKey.text, List.cons_append, List.cons.injEq] at same
      exact absurd same.2.1 (quote_ne_part key (Or.inr others.starts))
    | named other =>
      simp only [Segment.text, Identifier.text, QuotedKey.text, List.cons_append, List.cons.injEq] at same
      exact absurd same.2.1 (quote_ne_part key (Or.inl other.starts))
    | quoted other =>
      have keys_same : key = other := QuotedKey.text_inj (by simpa [Segment.text] using same)
      rw [keys_same]

theorem dropBlank_path (p : Path) :
    dropBlank p.text = p.root.text ++ (p.segments.flatMap Segment.text ++ p.behind) := by
  have letter := (isIdentStart_iff p.root.first).2 p.root.starts
  have no_blank : isBlank p.root.first = false := by
    refine Bool.eq_false_iff.mpr fun blank => ?_
    have part := isIdentPart_of_isIdentStart letter
    rw [isIdentPart_of_isBlank blank] at part
    cases part
  exact dropWhile_append_stops p.blank_before (stops_cons no_blank _)

theorem isSimplePath_of_path (p : Path) {text : String} (same : p.text = text.toList) :
    isSimplePath text = true := by
  have root := afterIdentifier_append p.root (stops_segments p.segments p.blank_behind)
  have behind : dropBlank p.behind = [] := List.dropWhile_eq_nil_iff.2 p.blank_behind
  simp [isSimplePath, ← same, dropBlank_path, root, afterSegments_append p.segments p.blank_behind,
    behind]

theorem path_of_isSimplePath {text : String} (simple : isSimplePath text = true) :
    ∃ p : Path, p.text = text.toList := by
  unfold isSimplePath at simple
  split at simple
  · next rest read =>
    obtain ⟨u, identifier, later⟩ := Option.bind_eq_some_iff.1 read
    obtain ⟨root, unread⟩ := afterIdentifier_some identifier
    obtain ⟨segments, rfl⟩ := afterSegments_some later
    have blank_before : ∀ c ∈ text.toList.takeWhile isBlank, isBlank c = true := by
      intro c member
      exact List.mem_takeWhile_imp member
    have blank_behind : ∀ c ∈ rest, isBlank c = true :=
      List.dropWhile_eq_nil_iff.1 (List.isEmpty_iff.1 simple)
    refine ⟨⟨_, root, segments, rest, blank_before, blank_behind⟩, ?_⟩
    rw [Path.text, ← unread]
    exact List.takeWhile_append_dropWhile
  · cases simple

theorem segments_unique {these those : List Segment} {behind rest : List Char}
    (blank_behind : ∀ c ∈ behind, isBlank c = true) (blank_rest : ∀ c ∈ rest, isBlank c = true)
    (same : these.flatMap Segment.text ++ behind = those.flatMap Segment.text ++ rest) :
    these = those ∧ behind = rest := by
  induction these generalizing those with
  | nil =>
    cases those with
    | nil => exact ⟨rfl, same⟩
    | cons segment later =>
      have starts := startsSegment_append segment (later.flatMap Segment.text ++ rest)
      have no_start := startsSegment_blank blank_behind
      simp_all
  | cons segment later ih =>
    cases those with
    | nil =>
      have starts := startsSegment_append segment (later.flatMap Segment.text ++ behind)
      have no_start := startsSegment_blank blank_rest
      simp_all
    | cons other further =>
      simp only [List.flatMap_cons, List.append_assoc] at same
      have read := afterSegment_append segment (stops_segments later blank_behind)
      rw [same, afterSegment_append other (stops_segments further blank_rest)] at read
      have rests := Option.some.inj read
      rw [rests] at same
      obtain ⟨rfl, behinds⟩ := ih rests.symm
      exact ⟨by rw [Segment.text_inj (List.append_cancel_right same)], behinds⟩

theorem Path.text_inj {p q : Path} (same : p.text = q.text) : p = q := by
  have roots : p.root.text ++ (p.segments.flatMap Segment.text ++ p.behind) =
      q.root.text ++ (q.segments.flatMap Segment.text ++ q.behind) := by
    rw [← dropBlank_path p, same, dropBlank_path q]
  have befores : p.before = q.before := by
    unfold Path.text at same
    rw [roots] at same
    exact List.append_cancel_right same
  have read := afterIdentifier_append p.root (stops_segments p.segments p.blank_behind)
  rw [roots, afterIdentifier_append q.root (stops_segments q.segments q.blank_behind)] at read
  have rests := Option.some.inj read
  rw [rests] at roots
  have root := Identifier.text_inj (List.append_cancel_right roots)
  obtain ⟨segments, behinds⟩ := segments_unique p.blank_behind q.blank_behind rests.symm
  cases p
  cases q
  simp_all

/-- A text is taken for a path exactly where it is the text of one, and it is then of no other. -/
theorem isSimplePath_iff_path (text : String) :
    (isSimplePath text = true ↔ ∃ p : Path, p.text = text.toList) ∧
      ∀ p q : Path, p.text = text.toList → q.text = text.toList → p = q := by
  constructor
  · constructor
    · exact path_of_isSimplePath
    · intro ⟨p, same⟩
      exact isSimplePath_of_path p same
  · intro p q one other
    exact Path.text_inj (one.trans other.symm)

theorem path_with_quote_inside_key :
    isSimplePath " a['it's']" = true ∧
      ∃ p : Path, p.text = " a['it's']".toList ∧ ∀ q : Path, q.text = " a['it's']".toList → q = p := by
  let key : QuotedKey := ⟨'\'', ['i', 't', '\'', 's'], by decide, by simp, by decide⟩
  let path : Path := ⟨[' '], ⟨'a', [], by decide, by simp⟩, [.quoted key], [], by simp; rfl, by simp⟩
  have text : path.text = " a['it's']".toList := by decide
  have accepted := (isSimplePath_iff_path " a['it's']").1.2 ⟨path, text⟩
  exact ⟨accepted, path, text, fun q same => (isSimplePath_iff_path " a['it's']").2 q path same text⟩

end Listeners.Expression
