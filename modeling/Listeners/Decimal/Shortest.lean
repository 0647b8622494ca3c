/-!
The shortest decimal that reads back as a given double, and how it is laid out.
`shortest m q` works in exact arithmetic on the double `m * 2 ^ q`: it tries the grids
of powers of ten from the coarsest down and takes the first that has a point within
half a unit of the last binary place, the nearer of two.
-/
namespace Listeners.Decimal

/-- The interval of numbers that round to `m * 2 ^ q`, in quarters of `2 ^ q`. Below a power of two
the neighbours are twice as close. -/
structure Interval where
  low : Nat
  middle : Nat
  high : Nat
  /-- Do the ends themselves round to the middle? -/
  closed : Bool

def Interval.around (m : Nat) (boundary : Bool) : Interval :=
  ⟨if boundary then 4 * m - 1 else 4 * m - 2, 4 * m, 4 * m + 2, m % 2 == 0⟩

def Interval.contains (i : Interval) (num den : Nat) : Bool :=
  if i.closed then i.low * den ≤ num && num ≤ i.high * den
  else i.low * den < num && num < i.high * den

/-- The point of the grid of multiples of `den / num` that lies in the interval, the nearer of two.
-/
def onGrid? (i : Interval) (num den : Nat) : Option Nat :=
  let below := i.middle * den / num
  let above := below + 1
  match i.contains (below * num) den, i.contains (above * num) den with
  | true, true =>
    let down := i.middle * den - below * num
    let up := above * num - i.middle * den
    some (if down < up || (down == up && below % 2 == 0) then below else above)
  | true, false => some below
  | false, true => some above
  | false, false => none

/-- Digits and power of ten, from the grid `10 ^ e` down over `steps` grids. -/
def search (i : Interval) (q : Int) : Nat → Int → Nat × Int
  | 0, e => (0, e)
  | steps + 1, e =>
    -- a point k of the grid is k * 10 ^ e, against quarters of 2 ^ q
    let num := 4 * 10 ^ e.toNat * 2 ^ (-q).toNat
    let den := 10 ^ (-e).toNat * 2 ^ q.toNat
    match onGrid? i num den with
    | some k => if k = 0 then search i q steps (e - 1) else (k, e)
    | none => search i q steps (e - 1)

def shortest (m : Nat) (q : Int) (boundary : Bool) : Nat × Int :=
  -- 1234 / 4096 is close to log10 2, and two powers more make the first grid too coarse
  let size : Int := (m.log2 + 1 : Nat) + q
  search (.around m boundary) q 40 (size * 1234 / 4096 + 2)

def parts (x : Float) : Nat × Int × Bool :=
  let bits := x.toBits.toNat
  let fraction : Nat := bits % (1 <<< 52)
  let exponent : Nat := (bits >>> 52) % (1 <<< 11)
  if exponent = 0 then (fraction, -1074, false)
  else (fraction + (1 <<< 52), (exponent : Int) - 1075, fraction = 0 && 1 < exponent)

structure Layout where
  least : Int
  greatest : Int

/-- Positional from `0.00001` up to sixteen digits before the point. -/
def layout : Layout := ⟨-5, 15⟩

def zeros (n : Nat) : String := String.ofList (List.replicate n '0')

/-- The number `digits * 10 ^ e`; one without a fraction ends in `.0`, and an exponent carries its
sign. -/
def Layout.text (l : Layout) (digits : Nat) (e : Int) : String :=
  let ds := Nat.repr digits
  let first : Int := e + ds.length - 1
  if l.least ≤ first ∧ first ≤ l.greatest then
    if 0 ≤ e then ds ++ zeros e.toNat ++ ".0"
    else if 0 ≤ first then
      String.ofList (ds.toList.take (first.toNat + 1)) ++ "." ++
        String.ofList (ds.toList.drop (first.toNat + 1))
    else "0." ++ zeros (-first - 1).toNat ++ ds
  else
    let head := String.ofList (ds.toList.take 1)
    let tail := String.ofList (ds.toList.drop 1)
    let mark := if first < 0 then "e-" else "e+"
    (if tail.isEmpty then head else head ++ "." ++ tail) ++ mark ++ Nat.repr first.natAbs

def text (x : Float) : String :=
  let sign := if x.toBits.toNat >>> 63 = 1 then "-" else ""
  match parts x with
  | (0, _, _) => sign ++ "0.0"
  | (m, q, boundary) =>
    let (digits, e) := shortest m q boundary
    sign ++ layout.text digits e

end Listeners.Decimal
