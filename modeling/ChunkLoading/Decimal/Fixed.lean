import ChunkLoading.Text.Numeral

/-!
# Fixed places

A quotient of natural numbers as decimal text with a fixed number of places. The quotient is
rounded to the nearest such decimal; a tie goes to the even neighbour.
-/

namespace ChunkLoading.Decimal

/-- The quotient rounded to the nearest natural number, ties to even. -/
def roundDiv (num den : Nat) : Nat :=
  let q := num / den
  let r := num % den
  if 2 * r < den then q
  else if den < 2 * r then q + 1
  else if q % 2 = 0 then q
  else q + 1

/-- The text of `num / den` with the given number of places. -/
def fixed (places num den : Nat) : String :=
  let n := roundDiv (num * Nat.pow 10 places) den
  let whole := String.ofList (Numeral.digits (n / Nat.pow 10 places))
  if places = 0 then whole
  else
    let ds := Numeral.digits (n % Nat.pow 10 places)
    whole ++ "." ++ String.ofList (List.replicate (places - ds.length) '0' ++ ds)

end ChunkLoading.Decimal
