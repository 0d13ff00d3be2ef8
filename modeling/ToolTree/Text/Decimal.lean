/-!
Decimal integers of 64 bits.

A written integer is an optional sign and at least one ASCII digit; leading zeros are allowed,
and the number must lie in the signed 64-bit range.
-/

namespace ToolTree.Text

/-- Whether an integer fits in 64 bits with a sign. -/
def inInt64 (n : Int) : Bool :=
  -9223372036854775808 ≤ n && n ≤ 9223372036854775807

/-- The number written by digits of a base, if every character is a digit of it and there is
at least one. -/
def digits? (base : Nat) (value : Char → Option Nat) : List Char → Option Nat
  | [] => none
  | cs => cs.foldlM (fun acc c => (value c).bind fun d =>
      if d < base then some (acc * base + d) else none) 0

/-- The value of an ASCII decimal digit. -/
def decimalValue (c : Char) : Option Nat :=
  if '0' ≤ c ∧ c ≤ '9' then some (c.toNat - '0'.toNat) else none

/-- The value of an ASCII hexadecimal digit, in either case. -/
def hexValue (c : Char) : Option Nat :=
  if '0' ≤ c ∧ c ≤ '9' then some (c.toNat - '0'.toNat)
  else if 'a' ≤ c ∧ c ≤ 'f' then some (c.toNat - 'a'.toNat + 10)
  else if 'A' ≤ c ∧ c ≤ 'F' then some (c.toNat - 'A'.toNat + 10)
  else none

/-- The number written by decimal digits. -/
def natural? (cs : List Char) : Option Nat :=
  digits? 10 decimalValue cs

/-- The integer with an optional sign that a text denotes, if it has 64 bits at most. -/
def integer? (s : String) : Option Int :=
  let signed := match s.toList with
    | '+' :: rest => (natural? rest).map Int.ofNat
    | '-' :: rest => (natural? rest).map fun n => -Int.ofNat n
    | rest => (natural? rest).map Int.ofNat
  signed.filter inInt64

end ToolTree.Text
