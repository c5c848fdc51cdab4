import ChunkLoading.Toml.Basic
import ChunkLoading.Toml.Token

/-!
# Reading TOML

Keys, values, headers and whole documents of TOML 1.0. Arrays and inline tables are nested and keys
are dotted fewer than eighty times. `read?` gives the tables of a document.
-/

namespace ChunkLoading.Toml

/-- A bound on the nesting of values and on the number of parts of a key. -/
def depthBound : Nat := 80

/-! ## Keys -/

def isBareKeyChar (c : Char) : Bool := c.isAlphanum || c == '-' || c == '_'

/-- Reads one part of a key. -/
def readSimpleKey? (s : List Char) : Option (String × List Char) :=
  match s with
  | '"' :: rest =>
    (readBasic? (rest.length + 1) rest).map fun (cs, r) => (String.ofList cs, r)
  | '\'' :: rest => (readLiteral? rest).map fun (cs, r) => (String.ofList cs, r)
  | s =>
    match s.takeWhile isBareKeyChar with
    | [] => none
    | cs => some (String.ofList cs, s.dropWhile isBareKeyChar)

/-- Reads at most the given number of parts of a key, with blanks around them. -/
def readKeyParts? : Nat → List Char → Option (List String × List Char)
  | 0, _ => none
  | n + 1, s =>
    match readSimpleKey? (skipBlanks s) with
    | none => none
    | some (k, rest) =>
      match skipBlanks rest with
      | '.' :: rest => (readKeyParts? n rest).map fun (ks, r) => (k :: ks, r)
      | rest => some ([k], rest)

/-- Reads a key split at its dots. -/
def readKey? (s : List Char) : Option (List String × List Char) :=
  readKeyParts? (depthBound - 1) s

/-! ## Values -/

/-- Reads a number or a date. -/
def readNumber? (s : List Char) : Option (Toml × List Char) :=
  ((readDateTime? s).map fun (t, r) => (.dateTime t, r)).or <|
    ((readFloat? s).map fun (t, r) => (.float t, r)).or <|
      (readInteger? s).map fun (n, r) => (.integer n, r)

mutual

/-- Reads a value; the first argument bounds the recursion, the second one the nesting. -/
def readValue? : Nat → Nat → List Char → Option (Toml × List Char)
  | 0, _, _ => none
  | fuel + 1, depth, s =>
    match s with
    | '"' :: _ | '\'' :: _ => (readString? s).map fun (cs, r) => (.string (String.ofList cs), r)
    | 't' :: 'r' :: 'u' :: 'e' :: rest => some (.boolean true, rest)
    | 'f' :: 'a' :: 'l' :: 's' :: 'e' :: rest => some (.boolean false, rest)
    | '[' :: rest =>
      match depth with
      | 0 => none
      | depth + 1 => (readItems? fuel depth (skipSpace rest)).map fun (vs, r) => (.array vs, r)
    | '{' :: rest =>
      match depth with
      | 0 => none
      | depth + 1 =>
        match skipBlanks rest with
        | '}' :: rest => some (.inlineTable [], rest)
        | rest => do
          let (as, r) ← readPairs? fuel depth rest
          some (.inlineTable (← Entries.assignAll as []), r)
    | s => readNumber? s

/-- Reads the items of an array and its closing bracket; a comma may stand before the bracket. -/
def readItems? : Nat → Nat → List Char → Option (List Toml × List Char)
  | 0, _, _ => none
  | fuel + 1, depth, s =>
    match s with
    | ']' :: rest => some ([], rest)
    | s =>
      match readValue? fuel depth s with
      | none => none
      | some (v, rest) =>
        match skipSpace rest with
        | ',' :: rest =>
          (readItems? fuel depth (skipSpace rest)).map fun (vs, r) => (v :: vs, r)
        | ']' :: rest => some ([v], rest)
        | _ => none

/-- Reads the assignments of an inline table and its closing brace. -/
def readPairs? : Nat → Nat → List Char → Option (List Assignment × List Char)
  | 0, _, _ => none
  | fuel + 1, depth, s =>
    match readAssignment? fuel depth s with
    | none => none
    | some (a, rest) =>
      match skipBlanks rest with
      | ',' :: rest => (readPairs? fuel depth rest).map fun (as, r) => (a :: as, r)
      | '}' :: rest => some ([a], rest)
      | _ => none

/-- Reads a key and its value. -/
def readAssignment? : Nat → Nat → List Char → Option (Assignment × List Char)
  | 0, _, _ => none
  | fuel + 1, depth, s =>
    match readKey? s with
    | none => none
    | some (path, rest) =>
      match rest with
      | '=' :: rest =>
        (readValue? fuel depth (skipBlanks rest)).map fun (v, r) => (⟨path, v⟩, r)
      | _ => none

end

/-! ## Documents -/

/-- What a line of a document can be, empty lines and comments apart. -/
inductive Statement where
  | assignment (a : Assignment)
  | header (isArray : Bool) (parents : List String) (key : String)

/-- Splits the last key off a path. -/
def splitLast? (path : List String) : Option (List String × String) :=
  path.getLast?.map (path.dropLast, ·)

/-- Reads a statement, which takes the rest of its last line. -/
def readStatement? (s : List Char) : Option (Statement × List Char) :=
  match s with
  | '[' :: '[' :: rest => do
    let (path, rest) ← readKey? rest
    let rest ← readChar? ']' rest
    let rest ← readChar? ']' rest
    let (parents, key) ← splitLast? path
    some (.header true parents key, ← readLineEnd? rest)
  | '[' :: rest => do
    let (path, rest) ← readKey? rest
    let rest ← readChar? ']' rest
    let (parents, key) ← splitLast? path
    some (.header false parents key, ← readLineEnd? rest)
  | s => do
    let (a, rest) ← readAssignment? (3 * s.length + 3) (depthBound - 1) s
    some (.assignment a, ← readLineEnd? rest)

/-- Reads at most the given number of statements, to the end of the text. -/
def readStatements? : Nat → List Char → Option (List Statement)
  | 0, _ => none
  | n + 1, s =>
    match skipSpace s with
    | [] => some []
    | '#' :: rest => if rest.all isVisible then some [] else none
    | s => do
      let (st, rest) ← readStatement? s
      (readStatements? n rest).map (st :: ·)

/-- Puts assignments under their headers. -/
def Source.ofStatements : List Statement → Source
  | [] => ⟨[], []⟩
  | .assignment a :: rest =>
    let s := ofStatements rest
    { s with top := a :: s.top }
  | .header isArray parents key :: rest =>
    let s := ofStatements rest
    ⟨[], ⟨parents, key, isArray, s.top⟩ :: s.parts⟩

/-- A byte order mark, which may stand before a document. -/
def byteOrderMark : Char := '\uFEFF'

/-- The tables of a document. -/
def read? (text : String) : Option Entries := do
  let s := match text.toList with
    | c :: rest => if c = byteOrderMark then rest else c :: rest
    | [] => []
  let statements ← readStatements? (s.length + 1) s
  (Source.ofStatements statements).entries?

end ChunkLoading.Toml
