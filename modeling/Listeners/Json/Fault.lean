import Listeners.Json.Number
import Listeners.Text.Shown
/-!
Why a text is refused, and where. A reader knows only the text in front of it, so it
places a fault by the bytes it has not used; the line and the column are counted once
the whole text is known.
-/
namespace Listeners.Json

inductive Found where
  | null
  | boolean (b : Bool)
  | number (n : Number)
  | string (s : String)
  | list
  | object

inductive Wanted where
  | map
  | string
  | boolean
  | binding
  | options
  deriving DecidableEq, Repr

inductive Cause where
  | endInValue
  | endInString
  | endInList
  | endInObject
  | misspeltWord
  | noValue
  | badNumber
  | numberRange
  | controlCharacter
  | badEscape
  | loneSurrogate
  | unpairedSurrogate
  | nameNotString
  | noColon
  | noListSeparator
  | noObjectSeparator
  | trailingComma
  | trailingText
  | tooDeep
  | wrongKind (found : Found) (wanted : Wanted)
  | missing (name : String)
  | repeated (name : String)
  | emptyRecord
  | noHandlerForm

def Found.text : Found → String
  | null => "null"
  | boolean true => "boolean `true`"
  | boolean false => "boolean `false`"
  | number (.integer n) => "integer `" ++ (Number.integer n).shown ++ "`"
  | number (.floating x) => "floating point `" ++ (Number.floating x).shown ++ "`"
  | string s => "string " ++ Text.shown s
  | list => "sequence"
  | object => "map"

def Wanted.text : Wanted → String
  | map => "a map"
  | string => "a string"
  | boolean => "a boolean"
  | binding => "struct HandlerDescriptor"
  | options => "struct CodegenOptions"

def Cause.text : Cause → String
  | endInValue => "EOF while parsing a value"
  | endInString => "EOF while parsing a string"
  | endInList => "EOF while parsing a list"
  | endInObject => "EOF while parsing an object"
  | misspeltWord => "expected ident"
  | noValue => "expected value"
  | badNumber => "invalid number"
  | numberRange => "number out of range"
  | controlCharacter => "control character (\\u0000-\\u001F) found while parsing a string"
  | badEscape => "invalid escape"
  | loneSurrogate => "lone leading surrogate in hex escape"
  | unpairedSurrogate => "unexpected end of hex escape"
  | nameNotString => "key must be a string"
  | noColon => "expected `:`"
  | noListSeparator => "expected `,` or `]`"
  | noObjectSeparator => "expected `,` or `\x7d`"
  | trailingComma => "trailing comma"
  | trailingText => "trailing characters"
  | tooDeep => "recursion limit exceeded"
  | wrongKind found wanted => "invalid type: " ++ found.text ++ ", expected " ++ wanted.text
  | missing name => "missing field `" ++ name ++ "`"
  | repeated name => "duplicate field `" ++ name ++ "`"
  | emptyRecord => "invalid length 0, expected struct HandlerDescriptor with 2 elements"
  | noHandlerForm => "data did not match any variant of untagged enum EventHandler"

def byteCount : List Char → Nat
  | [] => 0
  | c :: r => c.utf8Size + byteCount r

structure Fault where
  cause : Cause
  /-- The bytes of the text that come after the place of the fault. -/
  unread : Nat

def Fault.before (cause : Cause) (rest : List Char) : Fault := ⟨cause, byteCount rest⟩

/-- The fault lies on the first byte of `rest`, or at the end where nothing is left. -/
def Fault.on (cause : Cause) (rest : List Char) : Fault := ⟨cause, byteCount rest - 1⟩

structure Position where
  line : Nat
  column : Nat
  deriving DecidableEq, Repr

def Position.advance (p : Position) (bytes : Nat) : List Char → Position
  | [] => p
  | c :: r =>
    if bytes < c.utf8Size then { p with column := p.column + bytes }
    else if c = '\n' then advance ⟨p.line + 1, 0⟩ (bytes - c.utf8Size) r
    else advance { p with column := p.column + c.utf8Size } (bytes - c.utf8Size) r

/-- Why a text is no value of the wanted kind. A value that is refused as a whole has no place. -/
structure Malformed where
  cause : Cause
  place : Option Position

def Malformed.text (m : Malformed) : String :=
  match m.place with
  | some p => m.cause.text ++ " at line " ++ Nat.repr p.line ++ " column " ++ Nat.repr p.column
  | none => m.cause.text

def Fault.locate (f : Fault) (text : List Char) : Malformed :=
  ⟨f.cause, some (Position.advance ⟨1, 0⟩ (byteCount text - f.unread) text)⟩

end Listeners.Json
