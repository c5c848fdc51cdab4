/-!
# Decimal numerals

Natural numbers and integers as decimal text, and the reading of bounded unsigned numerals.
Digits are the ten ASCII digits.
-/

namespace ChunkLoading.Numeral

/-- The decimal digits of a natural number, without leading zeros. -/
def digits (n : Nat) : List Char :=
  Nat.toDigits 10 n

/-- The decimal digits of an integer, with a sign only when it is negative. -/
def signedDigits (n : Int) : List Char :=
  match n with
  | .ofNat n => digits n
  | .negSucc n => '-' :: digits (n + 1)

/-- The number that a list of decimal digits stands for. -/
def value (ds : List Char) : Nat :=
  Nat.ofDigitChars 10 ds 0

/-- One more than the largest unsigned 64-bit number. -/
def bound64 : Nat := 18446744073709551616

/-- Reads one or more digits as a number below `bound`; leading zeros are allowed. -/
def readBelow? (bound : Nat) (ds : List Char) : Option Nat :=
  if ds ≠ [] ∧ ds.all Char.isDigit ∧ value ds < bound then some (value ds) else none

/-- Reads an unsigned 64-bit number with an optional plus sign before its digits. -/
def readUnsigned? : List Char → Option Nat
  | '+' :: ds => readBelow? bound64 ds
  | ds => readBelow? bound64 ds

/-- The value of a hexadecimal digit of either case. -/
def hexValue? (c : Char) : Option Nat :=
  if '0' ≤ c ∧ c ≤ '9' then some (c.toNat - 48)
  else if 'a' ≤ c ∧ c ≤ 'f' then some (c.toNat - 87)
  else if 'A' ≤ c ∧ c ≤ 'F' then some (c.toNat - 55)
  else none

/-- The number that a list of hexadecimal digits stands for. -/
def readHex? (ds : List Char) : Option Nat :=
  ds.foldlM (fun n c => (hexValue? c).map (16 * n + ·)) 0

/-- The lower-case hexadecimal digit of a number below 16. -/
def hexDigit (n : Nat) : Char :=
  if n < 10 then Char.ofNat (48 + n) else Char.ofNat (87 + n)

/-- The lower-case hexadecimal digits of a natural number, without leading zeros. -/
def hexDigits (n : Nat) : List Char :=
  Nat.toDigits 16 n

end ChunkLoading.Numeral
