import ChunkLoading.Decimal.Fixed

/-!
# Binary fractions of 53 digits

Non-negative numbers as double precision keeps them: a fraction whose numerator has at most 53
binary digits over or under a power of two. Every operation gives the nearest such fraction to the
exact result, ties to even. Numbers too large or too small for an exponent of eleven binary digits
do not occur here.
-/

namespace ChunkLoading.Decimal

/-- A fraction; `den` is a power of two. -/
structure Binary where
  num : Nat
  den : Nat

namespace Binary

/-- The exponent of the greatest power of two that is at most `num / den`, for a positive `num`. -/
def exponent (num den : Nat) : Int :=
  let e : Int := (num.log2 : Int) - (den.log2 : Int)
  if num * Nat.pow 2 (-e).toNat < den * Nat.pow 2 e.toNat then e - 1 else e

/-- The nearest binary fraction to `num / den`. -/
def round (num den : Nat) : Binary :=
  if num = 0 then ⟨0, 1⟩
  else
    let shift := 52 - exponent num den
    let n := roundDiv (num * Nat.pow 2 shift.toNat) (den * Nat.pow 2 (-shift).toNat)
    ⟨n * Nat.pow 2 (-shift).toNat, Nat.pow 2 shift.toNat⟩

def ofNat (n : Nat) : Binary := round n 1

def add (x y : Binary) : Binary := round (x.num * y.den + y.num * x.den) (x.den * y.den)

def mul (x y : Binary) : Binary := round (x.num * y.num) (x.den * y.den)

def div (x y : Binary) : Binary := round (x.num * y.den) (x.den * y.num)

/-- Whether `x` is at least the natural number `n`. -/
def atLeast (x : Binary) (n : Nat) : Bool := n * x.den ≤ x.num

/-- The text with a fixed number of places. -/
def fixed (places : Nat) (x : Binary) : String := Decimal.fixed places x.num x.den

end Binary

end ChunkLoading.Decimal
