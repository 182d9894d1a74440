/-!
# Decimal integers

The written form of an integer is an optional sign and one or more ASCII digits, with any
number of leading zeros. A form whose value lies outside the bounds is no integer. A bound
that admits no negative value also refuses the minus sign, even before a zero.

* `readNatural`, `readInteger` : the number of a form, within the bounds.
-/

namespace WarmCache

/-- The value of an ASCII digit. -/
def digitValue? (c : Char) : Option Nat :=
  if 48 ≤ c.toNat ∧ c.toNat ≤ 57 then some (c.toNat - 48) else none

/-- The value of `cs` read as digits that follow the digits of `acc`. -/
def readDigitsFrom (acc : Nat) : List Char → Option Nat
  | [] => some acc
  | c :: cs =>
    match digitValue? c with
    | some d => readDigitsFrom (acc * 10 + d) cs
    | none => none

/-- The value of one or more ASCII digits. -/
def readDigits : List Char → Option Nat
  | [] => none
  | cs => readDigitsFrom 0 cs

/-- The digits of a number that may follow a plus sign. -/
def readUnsigned : List Char → Option Nat
  | '+' :: cs => readDigits cs
  | cs => readDigits cs

/-- A number of at most `bound`: an optional plus sign and digits. -/
def readNatural (bound : Nat) (cs : List Char) : Option Nat :=
  (readUnsigned cs).filter (· ≤ bound)

/-- A number from `low` to `high`: an optional sign of either kind and digits. -/
def readInteger (low high : Int) (cs : List Char) : Option Int :=
  let value : Option Int :=
    match cs with
    | '-' :: ds => (readDigits ds).map fun n => -(n : Int)
    | ds => (readUnsigned ds).map fun n => (n : Int)
  value.filter fun n => low ≤ n && n ≤ high

end WarmCache
