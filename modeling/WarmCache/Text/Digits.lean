/-!
# Digits

Natural numbers as digits of a base from 2 to 16, filled up with zeros on the left where a
number has to have a fixed width.
-/

namespace WarmCache

namespace Digits

/-- The digits of `n` after as many zeros as make them `width` long. -/
def padded (base width n : Nat) : List Char :=
  let digits := Nat.toDigits base n
  List.replicate (width - digits.length) '0' ++ digits

/-- Decimal digits of `n`, at least `width` of them. -/
def decimal (width n : Nat) : String := String.ofList (padded 10 width n)

/-- Lower-case hexadecimal digits of `n`, at least `width` of them. -/
def hexadecimal (width n : Nat) : String := String.ofList (padded 16 width n)

/-- The value of a hexadecimal digit in either case. -/
def hexValue? (c : Char) : Option Nat :=
  if '0' ≤ c ∧ c ≤ '9' then some (c.toNat - 48)
  else if 'a' ≤ c ∧ c ≤ 'f' then some (c.toNat - 87)
  else if 'A' ≤ c ∧ c ≤ 'F' then some (c.toNat - 55)
  else none

end Digits

end WarmCache
