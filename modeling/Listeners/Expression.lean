import Listeners.Text.Classes
/-!
What a handler expression is, judged from its text alone: a function, a path that
refers to one (`a.b['c'][0]`), or statements that have to be wrapped. The scanners
take the rest of the text and give what is left after the part they read.
-/
namespace Listeners.Expression
open Text

def afterIdentifier : List Char → Option (List Char)
  | [] => none
  | c :: r => if isIdentStart c then some (r.dropWhile isIdentPart) else none

def afterBracket : List Char → Option (List Char)
  | ']' :: r => some r
  | _ => none

/-- A quoted key goes on to the first quote that a closing bracket follows, and holds no line end.
-/
def afterQuotedKey (q : Char) : List Char → Option (List Char)
  | [] => none
  | c :: r =>
    if c = q then
      match afterBracket r with
      | some rest => some rest
      | none => afterQuotedKey q r
    else if isLineEnd c then none
    else afterQuotedKey q r

def afterKey : List Char → Option (List Char)
  | [] => none
  | c :: r =>
    if isQuote c then afterQuotedKey c r
    else if isDigit c then afterBracket (r.dropWhile isDigit)
    else (afterIdentifier (c :: r)).bind afterBracket

def afterSegment : List Char → Option (List Char)
  | '.' :: r => afterIdentifier r
  | '[' :: r => afterKey r
  | _ => none

def startsSegment : List Char → Bool
  | c :: _ => c == '.' || c == '['
  | [] => false

theorem afterIdentifier_shorter {s r : List Char} (h : afterIdentifier s = some r) :
    r.length < s.length := by
  cases s with
  | nil => simp [afterIdentifier] at h
  | cons c t =>
    simp only [afterIdentifier, Option.ite_none_right_eq_some, Option.some.injEq] at h
    rw [← h.2]
    exact Nat.lt_succ_of_le (List.dropWhile_sublist isIdentPart).length_le

theorem afterBracket_some {s r : List Char} (h : afterBracket s = some r) : s = ']' :: r := by
  unfold afterBracket at h
  split at h
  · cases h
    rfl
  · cases h

theorem afterBracket_shorter {s r : List Char} (h : afterBracket s = some r) :
    r.length < s.length := by
  rw [afterBracket_some h]
  exact Nat.lt_succ_self _

theorem afterQuotedKey_shorter {q : Char} {s r : List Char} (h : afterQuotedKey q s = some r) :
    r.length < s.length := by
  induction s with
  | nil => simp [afterQuotedKey] at h
  | cons c t ih =>
    unfold afterQuotedKey at h
    split at h
    · split at h
      · next hb => cases h; exact Nat.lt_succ_of_lt (afterBracket_shorter hb)
      · exact Nat.lt_succ_of_lt (ih h)
    · split at h
      · cases h
      · exact Nat.lt_succ_of_lt (ih h)

theorem afterKey_shorter {s r : List Char} (h : afterKey s = some r) : r.length < s.length := by
  cases s with
  | nil => simp [afterKey] at h
  | cons c t =>
    rw [afterKey] at h
    split at h
    · exact Nat.lt_succ_of_lt (afterQuotedKey_shorter h)
    · split at h
      · exact Nat.lt_succ_of_lt
          (Nat.lt_of_lt_of_le (afterBracket_shorter h) (List.dropWhile_sublist isDigit).length_le)
      · obtain ⟨u, hu, hr⟩ := Option.bind_eq_some_iff.1 h
        exact Nat.lt_trans (afterBracket_shorter hr) (afterIdentifier_shorter hu)

theorem afterSegment_shorter {s r : List Char} (h : afterSegment s = some r) :
    r.length < s.length := by
  unfold afterSegment at h
  split at h
  · exact Nat.lt_succ_of_lt (afterIdentifier_shorter h)
  · exact Nat.lt_succ_of_lt (afterKey_shorter h)
  · cases h

/-- Takes segments for as long as one starts; one that starts and does not end is refused. -/
def afterSegments (s : List Char) : Option (List Char) :=
  if startsSegment s then
    match _h : afterSegment s with
    | some r => afterSegments r
    | none => none
  else some s
termination_by s.length
decreasing_by exact afterSegment_shorter _h

theorem afterSegments_eq (s : List Char) :
    afterSegments s =
      if startsSegment s then (afterSegment s).bind afterSegments else some s := by
  rw [afterSegments]
  split
  · split
    · next h => rw [h]; rfl
    · next h => rw [h]; rfl
  · rfl

def isSimplePath (text : String) : Bool :=
  match (afterIdentifier (dropBlank text.toList)).bind afterSegments with
  | some rest => (dropBlank rest).isEmpty
  | none => false

/-- The parameters of an arrow function: all up to the first closing parenthesis, or one word. -/
def afterParameters : List Char → Option (List Char)
  | '(' :: r =>
    match r.dropWhile (· != ')') with
    | _ :: rest => some rest
    | [] => none
  | s => if (s.takeWhile isIdentPart).isEmpty then none else some (s.dropWhile isIdentPart)

def isArrowHead (s : List Char) : Bool :=
  match afterParameters (dropBlank s) with
  | some rest => ['=', '>'].isPrefixOf (dropBlank rest)
  | none => false

def isFunctionHead (s : List Char) : Bool :=
  let word := "function".toList
  word.isPrefixOf s && ['('].isPrefixOf (dropBlank (s.drop word.length))

/-- Does the text start as a function does? What follows the head is not looked at. -/
def isFunction (text : String) : Bool := isArrowHead text.toList || isFunctionHead text.toList

inductive Kind where
  | function
  | path
  | statements
  deriving DecidableEq, Repr

def Kind.callable : Kind → Bool
  | statements => false
  | _ => true

def kind (text : String) : Kind :=
  if isFunction text then .function else if isSimplePath text then .path else .statements

end Listeners.Expression
