import Listeners.Text.Printable
/-!
Texts inside messages: quoted, with everything that would not show escaped by its code
point.
-/
namespace Listeners.Text

def hex (n : Nat) : String := String.ofList (Nat.toDigits 16 n)

def codePoint (c : Char) : String := "\\u\x7b" ++ hex c.toNat ++ "\x7d"

def shownChar (c : Char) : String :=
  if c = '"' then "\\\""
  else if c = '\\' then "\\\\"
  else if c = '\t' then "\\t"
  else if c = '\r' then "\\r"
  else if c = '\n' then "\\n"
  else if c = '\x00' then "\\0"
  else if isExtending c || isUnprinted c then codePoint c
  else c.toString

def shown (s : String) : String := "\"" ++ String.join (s.toList.map shownChar) ++ "\""

end Listeners.Text
