import ChunkLoading.Decimal.Binary

/-!
# Sizes and durations

How sizes and elapsed times are shown, and how a time limit shows in a description. Sizes and
elapsed times are computed in double precision and then rounded to the places shown.
-/

namespace ChunkLoading.Measure

open Decimal

def kilobyte : Nat := 1024

def megabyte : Nat := 1024 * 1024

/-- A size in the largest unit that it fills. -/
def size (bytes : Nat) : String :=
  if megabyte ≤ bytes then ((Binary.ofNat bytes).div (.ofNat megabyte)).fixed 2 ++ " MB"
  else if kilobyte ≤ bytes then ((Binary.ofNat bytes).div (.ofNat kilobyte)).fixed 2 ++ " KB"
  else String.ofList (Numeral.digits bytes) ++ " B"

/-- An elapsed time in seconds. -/
def seconds (secs nanos : Nat) : Binary :=
  (Binary.ofNat secs).add ((Binary.ofNat nanos).div (.ofNat 1000000000))

/-- An elapsed time: seconds from one second on, else milliseconds. -/
def duration (secs nanos : Nat) : String :=
  let t := seconds secs nanos
  if t.atLeast 1 then t.fixed 2 ++ "s" else (t.mul (.ofNat 1000)).fixed 0 ++ "ms"

/-- A time limit given in milliseconds, as seconds with no trailing zeros from one second on. -/
def limit (millis : Nat) : String :=
  if millis = 0 then "0ns"
  else if millis < 1000 then String.ofList (Numeral.digits millis) ++ "ms"
  else
    let ds := Numeral.digits (millis % 1000)
    let padded := List.replicate (3 - ds.length) '0' ++ ds
    let places := (padded.reverse.dropWhile (· == '0')).reverse
    let whole := String.ofList (Numeral.digits (millis / 1000))
    if places.isEmpty then whole ++ "s" else whole ++ "." ++ String.ofList places ++ "s"

end ChunkLoading.Measure
