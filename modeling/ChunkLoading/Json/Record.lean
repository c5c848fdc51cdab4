import ChunkLoading.Data.Fields
import ChunkLoading.Json.Reader

/-!
# Records in JSON

How typed data is taken from a JSON text. A record is an object, whose unknown members are ignored
and whose known members stand at most once, or an array of its fields in their order, from which
fields at the end may be missing. A missing field takes its default, if it has one.
-/

namespace ChunkLoading.Json

/-! ## Plain values -/

/-- The text of a string. -/
def string? : Json → Option String
  | .string token => (unescape? token).map String.ofList
  | _ => none

/-- The value of an integer token; a minus before zero, a fraction or an exponent make it none. -/
def int? : Json → Option Int
  | .number ('-' :: ds) =>
    if ds.all Char.isDigit ∧ Numeral.value ds ≠ 0 then some (-(Numeral.value ds : Int)) else none
  | .number ds => if ds.all Char.isDigit then some (Numeral.value ds : Int) else none
  | _ => none

/-- A list, each item read by `item`. -/
def list? {α : Type} (item : Json → Option α) : Json → Option (List α)
  | .array vs => vs.mapM item
  | _ => none

/-! ## Records -/

/-- The members of an object with their keys as plain text. -/
def plainKeys? (ms : List (List Char × Json)) : Option (Fields Json) :=
  ms.mapM fun m => (unescape? m.1).map fun k => (String.ofList k, m.2)

/-- The fields of a record that is declared with the given names. -/
def fields? (names : List String) : Json → Option (Fields Json)
  | .object ms => do
    let given := (← plainKeys? ms).filter fun m => names.contains m.1
    if (given.map (·.1)).Nodup then some given else none
  | .array vs => if vs.length ≤ names.length then some (names.zip vs) else none
  | _ => none

/-- A value that may be null. -/
def nullable? {α : Type} (read : Json → Option α) : Json → Option (Option α)
  | .null => some none
  | v => (read v).map some

end ChunkLoading.Json
