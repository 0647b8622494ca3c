import Listeners.Text.Classes
import Listeners.Decimal.Integer
import Listeners.Decimal.Shortest
/-!
The value of a written number. A number without point and exponent that fits a
64-bit word, signed or not, is an integer; every other one is a double: the leading
digits that fit a word, scaled by a power of ten.
-/
namespace Listeners.Json

inductive Number where
  | integer (n : Int)
  | floating (x : Float)

structure Numeral where
  negative : Bool
  whole : List Char
  fraction : List Char
  /-- The sign of the exponent, true below zero, and its digits. -/
  exponent : Option (Bool × List Char)

namespace Numeral

def wordLimit : Nat := UInt64.size - 1

def exponentLimit : Nat := (1 <<< 31) - 1

/-- Adds digits at the right end for as long as the number stays within the limit; gives the number
and the digits left over. -/
def absorb (limit : Nat) : Nat → List Char → Nat × List Char
  | n, [] => (n, [])
  | n, d :: ds =>
    let m := 10 * n + (d.toNat - '0'.toNat)
    if m ≤ limit then absorb limit m ds else (n, d :: ds)

def powerOfTen (k : Nat) : Float := Float.ofScientific 1 false k

/-- `x * 10 ^ e` in steps of at most 308 places; `none` when that is too large for a double. -/
def scale (x : Float) (e : Int) : Option Float :=
  if e.natAbs ≤ 308 then
    if 0 ≤ e then
      let y := x * powerOfTen e.natAbs
      if y.isInf then none else some y
    else some (x / powerOfTen e.natAbs)
  else if x == 0 then some x
  else if 0 ≤ e then none
  else scale (x / powerOfTen 308) (e + 308)
termination_by e.natAbs
decreasing_by omega

def signed (negative : Bool) (x : Float) : Float := if negative then -x else x

def significand (n : Numeral) : Nat × Int :=
  let (w, left) := absorb wordLimit 0 n.whole
  let (m, ignored) := absorb wordLimit w n.fraction
  (m, (left.length : Int) - ((n.fraction.length : Int) - ignored.length))

/-- The double that a numeral stands for, or how many of its last characters follow the place
where it is found to be out of range. -/
def toFloat (n : Numeral) : Except Nat Float :=
  let (m, places) := n.significand
  let whole := m.toUInt64.toFloat
  let scaled (e : Int) : Except Nat Float :=
    match scale whole e with
    | some x => .ok (signed n.negative x)
    | none => .error 0
  match n.exponent with
  | none => scaled places
  | some (below, digits) =>
    match absorb exponentLimit 0 digits with
    | (e, []) => scaled (if below then places - e else places + e)
    | (_, _ :: more) =>
      if m = 0 || below then .ok (signed n.negative 0) else .error more.length

def toInt? (n : Numeral) : Option Int :=
  match n.fraction, n.exponent, absorb wordLimit 0 n.whole with
  | [], none, (m, []) =>
    if n.negative then
      if m = 0 || (1 <<< 63) < m then none else some (-(m : Int))
    else some m
  | _, _, _ => none

def value (n : Numeral) : Except Nat Number :=
  match n.toInt? with
  | some i => .ok (.integer i)
  | none => n.toFloat.map .floating

end Numeral

def Number.shown : Number → String
  | integer n => Decimal.integer n
  | floating x => Decimal.text x

end Listeners.Json
