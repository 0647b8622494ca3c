/-!
Integers in decimal: no leading zero, and a minus sign below zero.
-/
namespace Listeners.Decimal

def integer : Int → String
  | .ofNat n => Nat.repr n
  | .negSucc n => "-" ++ Nat.repr (n + 1)

theorem integer_natCast (n : Nat) : integer n = Nat.repr n := rfl

theorem integer_neg {n : Nat} (h : 0 < n) : integer (-(n : Int)) = "-" ++ Nat.repr n := by
  cases n with
  | zero => cases h
  | succ k => rfl

end Listeners.Decimal
