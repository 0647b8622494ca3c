import Listeners.Block
import Listeners.Proofs.Path
/-!
Paths beside the string literals of their text. A literal ends at its own quote, a quoted key
at the first such quote that a bracket follows, so the two may part. Where they do not, a text
that is taken for a path is a chain of members and indices, once its literals are left out.
-/
namespace Listeners.Expression
open Text

inductive Token where
  | plain (c : Char)
  | literal (quote : Char) (body : List Char)
  deriving DecidableEq

/-- Reads a text from the left. Inside a literal its quote and the characters of its body so far are
known; a backslash takes the next character into the body, and a literal holds no line end. -/
def tokens : Option (Char × List Char) → List Char → Option (List Token)
  | none, [] => some []
  | some _, [] => none
  | none, c :: r =>
    if isQuote c then tokens (some (c, [])) r else (tokens none r).map (.plain c :: ·)
  | some (q, body), '\\' :: c :: r =>
    if isLineEnd c then none else tokens (some (q, body ++ ['\\', c])) r
  | some (q, body), c :: r =>
    if c = q then (tokens none r).map (.literal q body :: ·)
    else if isLineEnd c then none
    else tokens (some (q, body ++ [c])) r

inductive Mark where
  | character (c : Char)
  | literal
  deriving DecidableEq

def Token.mark : Token → Mark
  | plain c => .character c
  | literal _ _ => .literal

inductive Link where
  | member (name : Identifier)
  | index (digits : Digits)
  | named (name : Identifier)
  | text

def characters (s : List Char) : List Mark := s.map Mark.character

def Link.marks : Link → List Mark
  | member name => characters ('.' :: name.text)
  | index digits => characters ('[' :: digits.text ++ [']'])
  | named name => characters ('[' :: name.text ++ [']'])
  | text => [.character '[', .literal, .character ']']

/-- An identifier and its members and indices, with blanks around, and a literal for an index at
most. -/
structure Chain where
  before : List Char
  root : Identifier
  links : List Link
  behind : List Char
  blank_before : ∀ c ∈ before, isBlank c = true
  blank_behind : ∀ c ∈ behind, isBlank c = true

def Chain.marks (c : Chain) : List Mark :=
  characters (c.before ++ c.root.text) ++ (c.links.flatMap Link.marks ++ characters c.behind)

def Closed (ms : List Mark) : Prop :=
  ∀ before behind, ms = before ++ .literal :: behind → behind.head? = some (.character ']')

/-- No literal holds its own quote with a bracket directly behind it. -/
def Unbroken (ts : List Token) : Prop := ∀ q body, .literal q body ∈ ts → ¬ [q, ']'] <:+: body

theorem tokens_plain {s : List Char} (no_quote : ∀ c ∈ s, isQuote c = false) (r : List Char) :
    tokens none (s ++ r) = (tokens none r).map (s.map .plain ++ ·) := by
  induction s with
  | nil => simp
  | cons c t ih =>
    have first := no_quote c List.mem_cons_self
    have later := ih fun d member => no_quote d (List.mem_cons_of_mem c member)
    simp [tokens, first, later, Function.comp_def]

theorem tokens_inside {q : Char} {pre s : List Char} {ts : List Token}
    (read : tokens (some (q, pre)) s = some ts) :
    ∃ body r rest, s = body ++ q :: r ∧ (∀ c ∈ body, isLineEnd c = false) ∧
      tokens none r = some rest ∧ ts = .literal q (pre ++ body) :: rest := by
  generalize inside : some (q, pre) = state at read
  fun_induction tokens state s generalizing q pre ts with
  | case1 => cases inside
  | case2 => cases read
  | case3 => cases inside
  | case4 => cases inside
  | case5 => cases read
  | case6 q body c r no_end ih =>
    cases inside
    obtain ⟨rest, t, ts, rfl, oneLine, later, rfl⟩ := ih rfl read
    refine ⟨'\\' :: c :: rest, t, ts, rfl, ?_, later, by simp⟩
    have backslash : isLineEnd '\\' = false := by decide
    simpa [backslash, no_end] using oneLine
  | case7 q body r _ =>
    cases inside
    obtain ⟨rest, later, rfl⟩ := Option.map_eq_some_iff.1 read
    exact ⟨[], r, rest, rfl, by simp, later, by simp⟩
  | case8 => cases read
  | case9 q body c r _ other no_end ih =>
    cases inside
    obtain ⟨rest, t, ts, rfl, oneLine, later, rfl⟩ := ih rfl read
    refine ⟨c :: rest, t, ts, rfl, ?_, later, by simp⟩
    simpa [no_end] using oneLine

theorem not_isQuote_of_isBlank {c : Char} (blank : isBlank c = true) : isQuote c = false := by
  refine Bool.eq_false_iff.mpr fun quote => ?_
  rcases (isQuote_iff c).1 quote with rfl | rfl
  · exact absurd blank (by decide)
  · exact absurd blank (by decide)

theorem Identifier.isIdentPart (name : Identifier) : ∀ c ∈ name.text, isIdentPart c = true := by
  intro c member
  rcases List.mem_cons.1 member with rfl | later
  · exact (isIdentPart_iff _).2 (Or.inl name.starts)
  · exact (isIdentPart_iff c).2 (name.follows c later)

theorem Digits.isIdentPart (digits : Digits) : ∀ c ∈ digits.text, isIdentPart c = true := by
  intro c member
  rcases List.mem_cons.1 member with rfl | later
  · exact (isIdentPart_iff _).2 (Or.inr digits.starts)
  · exact (isIdentPart_iff c).2 (Or.inr (digits.follows c later))

theorem Identifier.not_isQuote (name : Identifier) : ∀ c ∈ name.text, isQuote c = false :=
  fun c member => not_isQuote_of_isIdentPart (name.isIdentPart c member)

theorem Digits.not_isQuote (digits : Digits) : ∀ c ∈ digits.text, isQuote c = false :=
  fun c member => not_isQuote_of_isIdentPart (digits.isIdentPart c member)

theorem forall_bracketed {P : Char → Prop} (opening : P '[') (closing : P ']') {s : List Char}
    (inside : ∀ c ∈ s, P c) : ∀ c ∈ '[' :: s ++ [']'], P c := by
  intro c member
  simp only [List.cons_append, List.mem_cons, List.mem_append, List.not_mem_nil, or_false] at member
  rcases member with rfl | inner | rfl
  · exact opening
  · exact inside c inner
  · exact closing

theorem tokens_head {s : List Char} {ts : List Token} {c : Char} (read : tokens none s = some ts)
    (head : (ts.map Token.mark).head? = some (.character c)) :
    ∃ r rest, s = c :: r ∧ tokens none r = some rest ∧ ts = .plain c :: rest := by
  cases s with
  | nil =>
    cases read
    cases head
  | cons d r =>
    rw [tokens] at read
    split at read
    · obtain ⟨body, t, rest, _, _, _, rfl⟩ := tokens_inside read
      cases head
    · obtain ⟨rest, later, rfl⟩ := Option.map_eq_some_iff.1 read
      cases head
      exact ⟨r, rest, rfl, later, rfl⟩

theorem Closed.of_append {a b : List Mark} (closed : Closed (a ++ b)) : Closed b := by
  rintro before behind rfl
  exact closed (a ++ before) behind (by simp)

theorem Unbroken.of_append {a b : List Token} (unbroken : Unbroken (a ++ b)) : Unbroken b := by
  intro q body member
  exact unbroken q body (List.mem_append_right a member)

def Segment.link : Segment → Link
  | member name => .member name
  | index digits => .index digits
  | named name => .named name
  | quoted _ => .text

theorem marks_plain (s : List Char) : (s.map Token.plain).map Token.mark = characters s := by
  simp [characters, Function.comp_def, Token.mark]

theorem Segment.plain_or_quoted (segment : Segment) :
    ((∀ c ∈ segment.text, isQuote c = false) ∧ segment.link.marks = characters segment.text) ∨
      ∃ key, segment = .quoted key := by
  have opening : isQuote '[' = false := by decide
  have closing : isQuote ']' = false := by decide
  have dot : isQuote '.' = false := by decide
  cases segment with
  | member name => exact Or.inl ⟨by simpa [Segment.text, dot] using name.not_isQuote, rfl⟩
  | index digits => exact Or.inl ⟨forall_bracketed opening closing digits.not_isQuote, rfl⟩
  | named name => exact Or.inl ⟨forall_bracketed opening closing name.not_isQuote, rfl⟩
  | quoted key => exact Or.inr ⟨key, rfl⟩

/-- Where a bracket follows the literal that a quoted key opens, and the literal holds none such
before, the key is that literal: both go on to the first quote that a bracket follows. -/
theorem tokens_quoted (key : QuotedKey) {r : List Char} {ts : List Token}
    (read : tokens none (Segment.text (.quoted key) ++ r) = some ts)
    (closed : Closed (ts.map Token.mark)) (unbroken : Unbroken ts) :
    ∃ rest, tokens none r = some rest ∧
      ts = [.plain '[', .literal key.quote key.body, .plain ']'] ++ rest := by
  have quote := (isQuote_iff key.quote).2 key.quotes
  have opening : isQuote '[' = false := by decide
  have inner : tokens none (Segment.text (.quoted key) ++ r) =
      (tokens (some (key.quote, [])) (key.body ++ key.quote :: ']' :: r)).map (.plain '[' :: ·) := by
    simp [Segment.text, QuotedKey.text, tokens, quote, opening]
  rw [inner] at read
  obtain ⟨within, opened, rfl⟩ := Option.map_eq_some_iff.1 read
  obtain ⟨body, t, rest, split, oneLine, later, rfl⟩ := tokens_inside opened
  have bracket := closed [.character '['] (rest.map Token.mark) rfl
  obtain ⟨u, after, rfl, further, rfl⟩ := tokens_head later bracket
  -- the scanner of keys finds one end, and both the key and the literal have theirs there
  have whole := unbroken key.quote body (by simp)
  have key_line : ∀ c ∈ key.body, isLineEnd c = false := by
    intro c member
    exact Bool.eq_false_iff.2 fun lineEnd => key.oneLine c member ((isLineEnd_iff c).1 lineEnd)
  have key_end := afterQuotedKey_append key.quotes key.body r key_line key.open_inside
  rw [split, afterQuotedKey_append key.quotes body u oneLine whole] at key_end
  cases key_end
  have bodies := List.append_cancel_right split
  exact ⟨after, further, by simp [bodies]⟩

theorem links_of_segments (segments : List Segment) {behind : List Char} {ts : List Token}
    (no_quote : ∀ c ∈ behind, isQuote c = false)
    (read : tokens none (segments.flatMap Segment.text ++ behind) = some ts)
    (closed : Closed (ts.map Token.mark)) (unbroken : Unbroken ts) :
    ts.map Token.mark = (segments.map Segment.link).flatMap Link.marks ++ characters behind := by
  induction segments generalizing ts with
  | nil =>
    have all := tokens_plain no_quote []
    simp only [List.append_nil, tokens, Option.map_some] at all
    rw [List.flatMap_nil, List.nil_append, all] at read
    cases read
    exact marks_plain behind
  | cons segment rest ih =>
    rw [List.flatMap_cons, List.append_assoc] at read
    rcases segment.plain_or_quoted with ⟨plain, marks⟩ | ⟨key, rfl⟩
    · rw [tokens_plain plain] at read
      obtain ⟨later, further, rfl⟩ := Option.map_eq_some_iff.1 read
      rw [List.map_append] at closed ⊢
      have tail := ih further closed.of_append unbroken.of_append
      rw [tail, marks_plain, ← marks]
      simp
    · obtain ⟨later, further, rfl⟩ := tokens_quoted key read closed unbroken
      rw [List.map_append] at closed ⊢
      have tail := ih further closed.of_append unbroken.of_append
      rw [tail]
      simp [Segment.link, Link.marks, Token.mark]

def Path.chain (p : Path) : Chain where
  before := p.before
  root := p.root
  links := p.segments.map Segment.link
  behind := p.behind
  blank_before := p.blank_before
  blank_behind := p.blank_behind

theorem chain_of_path (p : Path) {ts : List Token} (read : tokens none p.text = some ts)
    (closed : Closed (ts.map Token.mark)) (unbroken : Unbroken ts) :
    p.chain.marks = ts.map Token.mark := by
  have before : ∀ c ∈ p.before ++ p.root.text, isQuote c = false := by
    intro c member
    rcases List.mem_append.1 member with blank | name
    · exact not_isQuote_of_isBlank (p.blank_before c blank)
    · exact p.root.not_isQuote c name
  have behind : ∀ c ∈ p.behind, isQuote c = false := by
    intro c member
    exact not_isQuote_of_isBlank (p.blank_behind c member)
  rw [Path.text, ← List.append_assoc, tokens_plain before] at read
  obtain ⟨rest, later, rfl⟩ := Option.map_eq_some_iff.1 read
  rw [List.map_append] at closed ⊢
  rw [links_of_segments p.segments behind later closed.of_append unbroken.of_append, marks_plain]
  rfl

theorem Closed.append {a b : List Mark} (first : Closed a) (second : Closed b) : Closed (a ++ b) := by
  intro before behind split
  rcases List.append_eq_append_iff.1 split with ⟨inner, rfl, rest⟩ | ⟨inner, here, rest⟩
  · exact second inner behind rest
  · cases inner with
    | nil => exact second [] behind rest.symm
    | cons mark inner =>
      obtain ⟨rfl, rfl⟩ := List.cons.inj rest
      have head := first before inner here
      cases inner with
      | nil => cases head
      | cons d u => exact head

theorem closed_characters (s : List Char) : Closed (characters s) := by
  intro before behind split
  have literal : Mark.literal ∈ characters s := by simp [split]
  simp [characters] at literal

theorem closed_link (link : Link) : Closed link.marks := by
  cases link with
  | member | index | named => exact closed_characters _
  | text =>
    intro before behind split
    match before with
    | [] => cases split
    | [first] => cases split; rfl
    | [first, second] => cases split
    | first :: second :: third :: rest => simp [Link.marks] at split

theorem Chain.closed (c : Chain) : Closed c.marks := by
  have links : Closed (c.links.flatMap Link.marks) := by
    induction c.links with
    | nil => exact closed_characters []
    | cons link rest ih => exact (closed_link link).append ih
  exact (closed_characters _).append (links.append (closed_characters _))

def InChain (c : Char) : Prop :=
  isBlank c = true ∨ isIdentPart c = true ∨ c = '.' ∨ c = '[' ∨ c = ']'

theorem mem_characters {c : Char} {s : List Char} : .character c ∈ characters s ↔ c ∈ s := by
  simp [characters]

theorem inChain_of_isIdentPart {c : Char} (part : isIdentPart c = true) : InChain c :=
  Or.inr (Or.inl part)

theorem inChain_of_link {link : Link} {c : Char} (member : .character c ∈ link.marks) : InChain c := by
  have dot : InChain '.' := by simp [InChain]
  have opening : InChain '[' := by simp [InChain]
  have closing : InChain ']' := by simp [InChain]
  cases link with
  | member name =>
    rcases List.mem_cons.1 (mem_characters.1 member) with rfl | inner
    · exact dot
    · exact inChain_of_isIdentPart (name.isIdentPart c inner)
  | index digits =>
    have inside := fun d here => inChain_of_isIdentPart (digits.isIdentPart d here)
    exact forall_bracketed opening closing inside c (mem_characters.1 member)
  | named name =>
    have inside := fun d here => inChain_of_isIdentPart (name.isIdentPart d here)
    exact forall_bracketed opening closing inside c (mem_characters.1 member)
  | text =>
    simp only [Link.marks, List.mem_cons, Mark.character.injEq, reduceCtorEq, List.not_mem_nil,
      or_false, false_or] at member
    rcases member with rfl | rfl
    · exact opening
    · exact closing

theorem Chain.inChain {chain : Chain} {c : Char} (member : .character c ∈ chain.marks) : InChain c := by
  simp only [Chain.marks, List.mem_append, mem_characters, List.mem_flatMap] at member
  rcases member with (blank | name) | ⟨link, _, inner⟩ | blank
  · exact Or.inl (chain.blank_before c blank)
  · exact inChain_of_isIdentPart (chain.root.isIdentPart c name)
  · exact inChain_of_link inner
  · exact Or.inl (chain.blank_behind c blank)

theorem inChain_of_plain {chain : Chain} {ts : List Token} (same : chain.marks = ts.map Token.mark)
    {c : Char} (member : .plain c ∈ ts) : InChain c := by
  apply chain.inChain
  rw [same]
  exact List.mem_map_of_mem (f := Token.mark) member

/-- Take a text whose literals are well formed and hold no quote of their own with a bracket
directly behind it. If it is taken for a path, it is a chain once its literals are left out exactly
where a bracket follows every literal; then no operator, call or comma stands outside a literal. -/
theorem path_is_chain_iff {text : String} {ts : List Token} (formed : tokens none text.toList = some ts)
    (unbroken : Unbroken ts) (simple : isSimplePath text = true) :
    ((∃ chain : Chain, chain.marks = ts.map Token.mark) ↔ Closed (ts.map Token.mark)) ∧
      (Closed (ts.map Token.mark) → ∀ c, .plain c ∈ ts → InChain c) := by
  obtain ⟨p, same⟩ := path_of_isSimplePath simple
  rw [← same] at formed
  constructor
  · constructor
    · rintro ⟨chain, marks⟩
      rw [← marks]
      exact chain.closed
    · intro closed
      exact ⟨p.chain, chain_of_path p formed closed unbroken⟩
  · intro closed c member
    exact inChain_of_plain (chain_of_path p formed closed unbroken) member

theorem chain_with_escaped_quote :
    ∃ ts, tokens none " a['it\\'s'].b[0]".toList = some ts ∧ Unbroken ts ∧
      isSimplePath " a['it\\'s'].b[0]" = true ∧ ∃ chain : Chain, chain.marks = ts.map Token.mark := by
  let key : QuotedKey := ⟨'\'', ['i', 't', '\\', '\'', 's'], by decide, by simp, by decide⟩
  let path : Path := ⟨[' '], ⟨'a', [], by decide, by simp⟩,
    [.quoted key, .member ⟨'b', [], by decide, by simp⟩, .index ⟨'0', [], by decide, by simp⟩], [],
    by simp; rfl, by simp⟩
  have simple : isSimplePath " a['it\\'s'].b[0]" = true := isSimplePath_of_path path (by decide)
  let ts : List Token := [.plain ' ', .plain 'a', .plain '[',
    .literal '\'' ['i', 't', '\\', '\'', 's'], .plain ']', .plain '.', .plain 'b', .plain '[',
    .plain '0', .plain ']']
  have formed : tokens none " a['it\\'s'].b[0]".toList = some ts := by decide
  have unbroken : Unbroken ts := by
    intro q body member
    obtain ⟨rfl, rfl⟩ : q = '\'' ∧ body = ['i', 't', '\\', '\'', 's'] := by simpa [ts] using member
    decide
  have shape : ts.map Token.mark =
      characters [' ', 'a'] ++ (Link.text.marks ++ characters ".b[0]".toList) := by decide
  have closed : Closed (ts.map Token.mark) := by
    rw [shape]
    exact (closed_characters _).append ((closed_link .text).append (closed_characters _))
  exact ⟨ts, formed, unbroken, simple, (path_is_chain_iff formed unbroken simple).1.2 closed⟩

/-- Two texts with well-formed literals that are taken for paths though they call a function outside
their literals. In the first a comma follows a literal; in the second a bracket follows each, but
one holds its quote with a bracket behind it. The first stands bare in generated code. -/
theorem call_between_literals_is_path :
    (∃ ts, tokens none "a['b',f(),'c']".toList = some ts ∧ isSimplePath "a['b',f(),'c']" = true ∧
      ({ value := "a['b',f(),'c']" } : Binding).code {} "click" = "a['b',f(),'c']" ∧
      ¬ ∃ chain : Chain, chain.marks = ts.map Token.mark) ∧
    ∃ ts, tokens none "a['b\\'][']+f()['x']".toList = some ts ∧
      isSimplePath "a['b\\'][']+f()['x']" = true ∧ Closed (ts.map Token.mark) ∧
      ¬ ∃ chain : Chain, chain.marks = ts.map Token.mark := by
  have no_parenthesis : ¬ InChain '(' := by
    unfold InChain
    decide
  constructor
  · let key : QuotedKey := ⟨'\'', ['b', '\'', ',', 'f', '(', ')', ',', '\'', 'c'], by decide,
      by simp, by decide⟩
    let path : Path := ⟨[], ⟨'a', [], by decide, by simp⟩, [.quoted key], [], by simp, by simp⟩
    let ts : List Token := [.plain 'a', .plain '[', .literal '\'' ['b'], .plain ',', .plain 'f',
      .plain '(', .plain ')', .plain ',', .literal '\'' ['c'], .plain ']']
    have simple : isSimplePath "a['b',f(),'c']" = true := isSimplePath_of_path path (by decide)
    have no_function : isFunction "a['b',f(),'c']" = false := by decide
    have bare : ({ value := "a['b',f(),'c']" } : Binding).code {} "click" = "a['b',f(),'c']" := by
      simp [Binding.code, Binding.hasModifiers, kind, no_function, simple, Kind.callable]
    refine ⟨ts, by decide, simple, bare, ?_⟩
    rintro ⟨chain, same⟩
    exact no_parenthesis (inChain_of_plain same (by simp [ts]))
  · let first : QuotedKey := ⟨'\'', ['b', '\\'], by decide, by simp, by decide⟩
    let second : QuotedKey := ⟨'\'', [']', '+', 'f', '(', ')', '[', '\'', 'x'], by decide,
      by simp, by decide⟩
    let path : Path := ⟨[], ⟨'a', [], by decide, by simp⟩, [.quoted first, .quoted second], [],
      by simp, by simp⟩
    let ts : List Token := [.plain 'a', .plain '[', .literal '\'' ['b', '\\', '\'', ']', '['],
      .plain ']', .plain '+', .plain 'f', .plain '(', .plain ')', .plain '[', .literal '\'' ['x'],
      .plain ']']
    have shape : ts.map Token.mark = characters ['a'] ++
        (Link.text.marks ++ (characters ['+', 'f', '(', ')'] ++ Link.text.marks)) := by decide
    have closed : Closed (ts.map Token.mark) := by
      rw [shape]
      exact (closed_characters _).append
        ((closed_link .text).append ((closed_characters _).append (closed_link .text)))
    refine ⟨ts, by decide, isSimplePath_of_path path (by decide), closed, ?_⟩
    rintro ⟨chain, same⟩
    exact no_parenthesis (inChain_of_plain same (by simp [ts]))

end Listeners.Expression
