import Listeners.Decimal.Integer
import Listeners.Options
/-!
Names of keys. A name that starts with a number other than zero stands for that key code,
a known name for the codes of its keys, and any other name for what the resolver makes of
it when the code runs.
-/
namespace Listeners

inductive KeyCode where
  | number (n : Int)
  | known (code : Nat)
  | custom (name : String)
  deriving DecidableEq, Repr

namespace KeyCode

def aliases : List (String × List Nat) :=
  [("esc", [27]), ("tab", [9]), ("enter", [13]), ("space", [32]), ("up", [38]), ("left", [37]),
    ("right", [39]), ("down", [40]), ("delete", [8, 46])]

def leadingNumber (s : List Char) : Nat := Nat.ofDigitChars 10 (s.takeWhile Text.isDigit) 0

/-- The number that a text starts with, after blanks and a sign; zero if it starts with none. -/
def leadingInteger (key : String) : Int :=
  match Text.dropBlank key.toList with
  | '-' :: r => -(leadingNumber r : Int)
  | '+' :: r => leadingNumber r
  | r => leadingNumber r

def ofName (key : String) : List KeyCode :=
  let n := leadingInteger key
  if n ≠ 0 then [number n]
  else
    match aliases.lookup key with
    | some codes => codes.map known
    | none => [custom key]

def code (o : Options) : KeyCode → String
  | number n => Decimal.integer n
  | known n => Nat.repr n
  | custom name => o.keyResolver ++ "(" ++ Text.quote name ++ ")"

end KeyCode

def keyTest (o : Options) (c : KeyCode) : String := o.eventParam ++ ".keyCode!==" ++ c.code o

def keyFilter (o : Options) (keys : List String) : String :=
  "if(" ++ "&&".intercalate ((keys.flatMap KeyCode.ofName).map (keyTest o)) ++ ")return;"

end Listeners
