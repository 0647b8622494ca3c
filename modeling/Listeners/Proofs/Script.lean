import Listeners.Proofs.ScriptLiteral

/-!
The statements at the front of a generated handler: how they are read off its text and what
they do to an event. The comparisons of a key filter are read with whatever names they have;
the reader of statements knows the name of the parameter and the name of the resolver, and it
gives up on any other text.
-/
namespace Listeners.Script
open Text

inductive Flag where
  | ctrlKey
  | shiftKey
  | altKey
  | metaKey
  deriving DecidableEq, Repr

def flags : List (String × Flag) :=
  [("ctrlKey", .ctrlKey), ("shiftKey", .shiftKey), ("altKey", .altKey), ("metaKey", .metaKey)]

inductive Comparand where
  | number (n : Int)
  | call (function argument : String)
  deriving DecidableEq, Repr

structure KeyComparison where
  subject : String
  comparand : Comparand
  deriving DecidableEq, Repr

/-- A comparand whose call is one of the resolver. -/
inductive Operand where
  | number (n : Int)
  | resolved (name : String)
  deriving DecidableEq, Repr

inductive Statement where
  | stopPropagation
  | preventDefault
  | returnUnlessSelf
  | returnUnlessHeld (flag : Flag)
  | returnUnlessKey (operands : List Operand)
  deriving DecidableEq, Repr

def after (text : String) (s : List Char) : Option (List Char) := text.toList.isPrefixOf? s

/-- A decimal number. A zero at the front of further digits would change their base. -/
def natural (s : List Char) : Option (Nat × List Char) :=
  let digits := s.takeWhile isDigit
  if digits = [] ∨ (digits.head? = some '0' ∧ digits ≠ ['0']) then none
  else some (Nat.ofDigitChars 10 digits 0, s.dropWhile isDigit)

def integer (s : List Char) : Option (Int × List Char) :=
  match s with
  | '-' :: r => (natural r).map fun (n, t) => (-n, t)
  | s => (natural s).map fun (n, t) => (n, t)

def word (s : List Char) : Option (String × List Char) :=
  if (s.takeWhile isIdentPart).isEmpty then none
  else some (String.ofList (s.takeWhile isIdentPart), s.dropWhile isIdentPart)

def call (s : List Char) : Option (Comparand × List Char) := do
  let (function, r) ← word s
  let r ← after "(" r
  let (argument, r) ← literal r
  let r ← after ")" r
  some (.call function argument, r)

def comparand (s : List Char) : Option (Comparand × List Char) :=
  match integer s with
  | some (n, r) => some (.number n, r)
  | none => call s

def keyComparison (s : List Char) : Option (KeyComparison × List Char) := do
  let (subject, r) ← word s
  let r ← after ".keyCode!==" r
  let (comparand, r) ← comparand r
  some (⟨subject, comparand⟩, r)

def keyComparisons (s : List Char) : Option (List KeyComparison × List Char) :=
  match keyComparison s with
  | none => none
  | some (c, r) =>
    match after "&&" r with
    | none => some ([c], r)
    | some t =>
      if t.length < s.length then (keyComparisons t).map fun (cs, u) => (c :: cs, u) else none
termination_by s.length

/-- What a comparison means where the parameter is `p` and the resolver `k`. A parameter of the
same name hides the resolver. -/
def KeyComparison.operand? (p k : String) (c : KeyComparison) : Option Operand :=
  if c.subject = p then
    match c.comparand with
    | .number n => some (.number n)
    | .call function argument =>
      if function = k ∧ k ≠ p then some (.resolved argument) else none
  else none

def keyOperands (p k : String) (s : List Char) : Option (List Operand × List Char) := do
  let (cs, r) ← keyComparisons s
  let operands ← cs.mapM (KeyComparison.operand? p k)
  some (operands, r)

def flag (s : List Char) : Option (Flag × List Char) :=
  flags.findSome? fun (name, f) => (after name s).map (f, ·)

def condition (p k : String) (s : List Char) : Option (Statement × List Char) :=
  match s with
  | '!' :: r => ((after (p ++ ".") r).bind flag).map fun (f, t) => (.returnUnlessHeld f, t)
  | s =>
    match after (p ++ ".target!==" ++ p ++ ".currentTarget") s with
    | some r => some (.returnUnlessSelf, r)
    | none => (keyOperands p k s).map fun (os, t) => (.returnUnlessKey os, t)

def method (s : List Char) : Option (Statement × List Char) :=
  match after "stopPropagation();" s with
  | some r => some (.stopPropagation, r)
  | none => (after "preventDefault();" s).map (.preventDefault, ·)

def statement (p k : String) (s : List Char) : Option (Statement × List Char) :=
  match after "if(" s with
  | some r => do
    let (guard, t) ← condition p k r
    let rest ← after ")return;" t
    some (guard, rest)
  | none => (after (p ++ ".") s).bind method

def statements (p k : String) (s : List Char) : Option (List Statement) :=
  if s = [] then some []
  else
    match statement p k s with
    | some (g, r) => if r.length < s.length then (statements p k r).map (g :: ·) else none
    | none => none
termination_by s.length

structure Event where
  keyCode : Int
  /-- Is the target of the event the element that listens? -/
  onSelf : Bool
  held : Flag → Bool

inductive Effect where
  | stopPropagation
  | preventDefault
  deriving DecidableEq, Repr

structure Outcome where
  effects : List Effect
  reachesEnd : Bool
  deriving DecidableEq, Repr

def Operand.value (resolve : String → Int) : Operand → Int
  | number n => n
  | resolved name => resolve name

def Statement.passes (e : Event) (resolve : String → Int) : Statement → Bool
  | stopPropagation => true
  | preventDefault => true
  | returnUnlessSelf => e.onSelf
  | returnUnlessHeld f => e.held f
  | returnUnlessKey operands => !operands.all fun o => e.keyCode != o.value resolve

def Statement.effect? : Statement → Option Effect
  | stopPropagation => some .stopPropagation
  | preventDefault => some .preventDefault
  | _ => none

def run (e : Event) (resolve : String → Int) : List Statement → Outcome
  | [] => ⟨[], true⟩
  | g :: rest =>
    if g.passes e resolve then
      let later := run e resolve rest
      ⟨g.effect?.toList ++ later.effects, later.reachesEnd⟩
    else ⟨[], false⟩

theorem run_reachesEnd (e : Event) (resolve : String → Int) (gs : List Statement) :
    (run e resolve gs).reachesEnd = gs.all (Statement.passes e resolve) := by
  induction gs with
  | nil => rfl
  | cons g rest ih =>
    unfold run
    split
    · next passes => simp [passes, ih]
    · next returns => simp [returns]

theorem run_effects (e : Event) (resolve : String → Int) (gs : List Statement) :
    (run e resolve gs).effects =
      (gs.takeWhile (Statement.passes e resolve)).filterMap Statement.effect? := by
  induction gs with
  | nil => rfl
  | cons g rest ih =>
    unfold run
    split
    · next passes => cases effect : g.effect? <;> simp [passes, ih, effect]
    · next returns => simp [returns]

theorem isPrefixOf?_cons (c d : Char) (s r : List Char) :
    (c :: s).isPrefixOf? (d :: r) = if c == d then s.isPrefixOf? r else none := rfl

theorem after_append (text : String) (r : List Char) : after text (text.toList ++ r) = some r := by
  unfold after
  induction text.toList with
  | nil => cases r <;> rfl
  | cons c cs ih => simp [isPrefixOf?_cons, ih]

theorem after_append_append (first second : String) (r : List Char) :
    after (first ++ second) (first.toList ++ r) = after second r := by
  unfold after
  rw [String.toList_append]
  induction first.toList with
  | nil => rfl
  | cons c cs ih => simpa [isPrefixOf?_cons] using ih

end Listeners.Script
