import ChunkLoading.Json.Record
import ChunkLoading.Text.Quoted

/-!
# Ids

Chunks and modules are named by a number or by a text; `7` and `"7"` are different ids. Numbers
come before texts, and texts are ordered by code point.
-/

namespace ChunkLoading

inductive Id where
  | number (n : UInt64)
  | name (s : String)
  deriving DecidableEq, Inhabited

/-- The id of a chunk, stable within one build. -/
abbrev ChunkId := Id

/-- The id of a module, unique within the whole build. -/
abbrev ModuleId := Id

namespace Id

/-- The id as plain text. -/
def text : Id → String
  | number n => String.ofList (Numeral.digits n.toNat)
  | name s => s

/-- The id that a text given on a command line means: a number if it reads as one. -/
def ofText (s : String) : Id :=
  match Numeral.readUnsigned? s.toList with
  | some n => number (.ofNat n)
  | none => name s

def toJson : Id → Json
  | number n => Json.ofNat n.toNat
  | name s => Json.ofString s

def ofJson? (v : Json) : Option Id :=
  match v with
  | .string _ => v.string?.map name
  | v =>
    match v.int? with
    | some (.ofNat n) => if n < Numeral.bound64 then some (number (.ofNat n)) else none
    | _ => none

/-- The id as a literal of emitted code. -/
def literal (id : Id) : String := id.toJson.text

/-- The id in a description. -/
def describe : Id → String
  | number n => "Number(" ++ String.ofList (Numeral.digits n.toNat) ++ ")"
  | name s => "Name(" ++ Quoted.string s ++ ")"

/-- Ascending order of ids. -/
def le : Id → Id → Bool
  | number m, number n => m ≤ n
  | number _, name _ => true
  | name _, number _ => false
  | name s, name t => s ≤ t

def sort (ids : List Id) : List Id := ids.mergeSort le

end Id

end ChunkLoading
