import ChunkLoading.Data.Assoc
import ChunkLoading.Data.Fields

/-!
# TOML values and tables

The values of a TOML document and its tree of tables. A table remembers how it came to be, since
that decides who may still add to it: a header may open a table that only longer headers brought
about, and dotted keys may go on with a table that dotted keys began.
-/

namespace ChunkLoading

/-- How a table came to be. -/
inductive TableOrigin where
  /-- By its own header. -/
  | header
  /-- As a part of the path of other headers. -/
  | path
  /-- As a part of dotted keys. -/
  | dotted
  deriving DecidableEq

inductive Toml where
  | string (s : String)
  | integer (n : Int)
  /-- A float is kept as its token. -/
  | float (token : List Char)
  | boolean (b : Bool)
  /-- A date, a time or both, kept as its token. -/
  | dateTime (token : List Char)
  | array (items : List Toml)
  | inlineTable (entries : List (String × Toml))
  | table (origin : TableOrigin) (entries : List (String × Toml))
  /-- The tables of one name that were opened by headers in double brackets. -/
  | tables (items : List (List (String × Toml)))
  deriving Inhabited

namespace Toml

/-- The entries of a table. -/
abbrev Entries := Fields Toml

/-- A key with its value, the key split at its dots. -/
structure Assignment where
  path : List String
  value : Toml

namespace Entries

open Assoc (put)

/-- Adds a value under a key split at its dots. Tables on the way must have been begun by dotted
keys or by paths of headers, and the last of them by dotted keys; `mayEnd` says whether the key may
end in this table. -/
def assign (v : Toml) : Bool → List String → Entries → Option Entries
  | _, [], _ => none
  | mayEnd, [k], es => if mayEnd && (es.lookup k).isNone then some (put k v es) else none
  | _, k :: k' :: ks, es =>
    match es.lookup k with
    | none => (assign v true (k' :: ks) []).map fun sub => put k (.table .dotted sub) es
    | some (.table .header _) => none
    | some (.table origin sub) =>
      (assign v (origin = .dotted) (k' :: ks) sub).map fun sub => put k (.table origin sub) es
    | some (.tables items) =>
      match items.reverse with
      | [] => none
      | last :: before => (assign v false (k' :: ks) last).map fun last =>
          put k (.tables (last :: before).reverse) es
    | some _ => none

/-- Adds assignments in order. -/
def assignAll (as : List Assignment) (es : Entries) : Option Entries :=
  as.foldlM (fun es a => assign a.value true a.path es) es

/-- Changes the table that a path of headers leads to; of several tables of one name it leads to
the last. -/
def descend (change : Entries → Option Entries) : List String → Entries → Option Entries
  | [], es => change es
  | k :: ks, es =>
    match es.lookup k with
    | none => (descend change ks []).map fun sub => put k (.table .path sub) es
    | some (.table origin sub) =>
      (descend change ks sub).map fun sub => put k (.table origin sub) es
    | some (.tables items) =>
      match items.reverse with
      | [] => none
      | last :: before => (descend change ks last).map fun last =>
          put k (.tables (last :: before).reverse) es
    | some _ => none

/-- Opens a table by its header and adds the assignments under it. -/
def openTable (k : String) (as : List Assignment) (es : Entries) : Option Entries :=
  match es.lookup k with
  | none => (assignAll as []).map fun sub => put k (.table .header sub) es
  | some (.table .path sub) => (assignAll as sub).map fun sub => put k (.table .header sub) es
  | some _ => none

/-- Opens one more table of a name and adds the assignments under it. -/
def openTables (k : String) (as : List Assignment) (es : Entries) : Option Entries :=
  match es.lookup k with
  | none => (assignAll as []).map fun sub => put k (.tables [sub]) es
  | some (.tables items) => (assignAll as []).map fun sub => put k (.tables (items ++ [sub])) es
  | some _ => none

end Entries

/-- A header with the assignments under it. -/
structure Part where
  /-- The path of the header but for its last key. -/
  parents : List String
  key : String
  /-- Whether the header stands in double brackets. -/
  isArray : Bool
  assignments : List Assignment

/-- A document: the assignments before the first header, and the parts. -/
structure Source where
  top : List Assignment
  parts : List Part

def Part.addTo (part : Part) (es : Entries) : Option Entries :=
  es.descend
    (if part.isArray then Entries.openTables part.key part.assignments
      else Entries.openTable part.key part.assignments)
    part.parents

/-- The tree of tables that a document stands for; keys given twice have none. -/
def Source.entries? (s : Source) : Option Entries := do
  s.parts.foldlM (fun es part => part.addTo es) (← Entries.assignAll s.top [])

end Toml

end ChunkLoading
