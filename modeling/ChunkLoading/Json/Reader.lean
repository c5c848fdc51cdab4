import ChunkLoading.Json.Basic

/-!
# Reading JSON

A strict reader (RFC 8259): no text after the value, no raw control characters in strings, no
leading zeros, no comma before a closing bracket. Each function reads one thing from the front of
its input and gives back the rest. `read?` reads a whole text.
-/

namespace ChunkLoading.Json

def isBlank (c : Char) : Bool :=
  c == ' ' || c == '\n' || c == '\t' || c == '\r'

def skipBlanks (s : List Char) : List Char :=
  s.dropWhile isBlank

/-! ## Tokens -/

/-- Reads a string token up to its closing quote. -/
def readString? : List Char → Option (List Char × List Char)
  | [] => none
  | '"' :: rest => some ([], rest)
  | '\\' :: 'u' :: a :: b :: c :: d :: rest =>
    if (Numeral.readHex? [a, b, c, d]).isSome then
      (readString? rest).map fun (t, r) => ('\\' :: 'u' :: a :: b :: c :: d :: t, r)
    else none
  | '\\' :: e :: rest =>
    if (unescapeLetter? e).isSome then
      (readString? rest).map fun (t, r) => ('\\' :: e :: t, r)
    else none
  | c :: rest =>
    if c.toNat < 0x20 ∨ c = '\\' then none
    else (readString? rest).map fun (t, r) => (c :: t, r)

/-- Reads one or more digits. -/
def readDigits? (s : List Char) : Option (List Char × List Char) :=
  match s.takeWhile Char.isDigit with
  | [] => none
  | ds => some (ds, s.dropWhile Char.isDigit)

/-- Reads the whole part of a number: a zero alone, or digits that do not start with one. -/
def readWhole? (s : List Char) : Option (List Char × List Char) :=
  match s with
  | '0' :: rest => some (['0'], rest)
  | s => readDigits? s

/-- Reads the fraction of a number, if there is one. -/
def readFraction? (s : List Char) : Option (List Char × List Char) :=
  match s with
  | '.' :: rest => (readDigits? rest).map fun (ds, r) => ('.' :: ds, r)
  | s => some ([], s)

/-- Reads the exponent of a number, if there is one. -/
def readExponent? (s : List Char) : Option (List Char × List Char) :=
  match s with
  | e :: rest =>
    if e = 'e' ∨ e = 'E' then
      match rest with
      | sign :: rest' =>
        if sign = '+' ∨ sign = '-' then
          (readDigits? rest').map fun (ds, r) => (e :: sign :: ds, r)
        else (readDigits? rest).map fun (ds, r) => (e :: ds, r)
      | [] => none
    else some ([], s)
  | [] => some ([], [])

/-- Reads a number token without a sign. -/
def readUnsignedNumber? (s : List Char) : Option (List Char × List Char) := do
  let (whole, s) ← readWhole? s
  let (fraction, s) ← readFraction? s
  let (exponent, s) ← readExponent? s
  some (whole ++ fraction ++ exponent, s)

/-- Reads a number token. -/
def readNumber? (s : List Char) : Option (List Char × List Char) :=
  match s with
  | '-' :: rest => (readUnsignedNumber? rest).map fun (t, r) => ('-' :: t, r)
  | s => readUnsignedNumber? s

/-! ## Values -/

mutual

/-- Reads one value; the first argument bounds the depth of the recursion. -/
def readValue? : Nat → List Char → Option (Json × List Char)
  | 0, _ => none
  | fuel + 1, s =>
    match skipBlanks s with
    | 'n' :: 'u' :: 'l' :: 'l' :: rest => some (.null, rest)
    | 't' :: 'r' :: 'u' :: 'e' :: rest => some (.bool true, rest)
    | 'f' :: 'a' :: 'l' :: 's' :: 'e' :: rest => some (.bool false, rest)
    | '"' :: rest => (readString? rest).map fun (t, r) => (.string t, r)
    | '[' :: rest =>
      match skipBlanks rest with
      | ']' :: rest => some (.array [], rest)
      | rest => (readItems? fuel rest).map fun (vs, r) => (.array vs, r)
    | '{' :: rest =>
      match skipBlanks rest with
      | '}' :: rest => some (.object [], rest)
      | rest => (readMembers? fuel rest).map fun (ms, r) => (.object ms, r)
    | s => (readNumber? s).map fun (t, r) => (.number t, r)

/-- Reads the items of an array that is not empty, and its closing bracket. -/
def readItems? : Nat → List Char → Option (List Json × List Char)
  | 0, _ => none
  | fuel + 1, s =>
    match readValue? fuel s with
    | none => none
    | some (v, s) =>
      match skipBlanks s with
      | ',' :: rest => (readItems? fuel rest).map fun (vs, r) => (v :: vs, r)
      | ']' :: rest => some ([v], rest)
      | _ => none

/-- Reads the members of an object that is not empty, and its closing brace. -/
def readMembers? : Nat → List Char → Option (List (List Char × Json) × List Char)
  | 0, _ => none
  | fuel + 1, s =>
    match readMember? fuel s with
    | none => none
    | some (m, s) =>
      match skipBlanks s with
      | ',' :: rest => (readMembers? fuel rest).map fun (ms, r) => (m :: ms, r)
      | '}' :: rest => some ([m], rest)
      | _ => none

/-- Reads one member of an object. -/
def readMember? : Nat → List Char → Option ((List Char × Json) × List Char)
  | 0, _ => none
  | fuel + 1, s =>
    match skipBlanks s with
    | '"' :: rest =>
      match readString? rest with
      | none => none
      | some (k, rest) =>
        match skipBlanks rest with
        | ':' :: rest => (readValue? fuel rest).map fun (v, r) => ((k, v), r)
        | _ => none
    | _ => none

end

/-- Reads the value at the front of a text. Each level of the recursion but a few uses up a
character, so three times the length bounds its depth. -/
def readPrefix? (s : List Char) : Option (Json × List Char) :=
  readValue? (3 * s.length + 3) s

/-- Reads a text that holds one value and nothing else. -/
def read? (s : String) : Option Json := do
  let (v, rest) ← readPrefix? s.toList
  if skipBlanks rest = [] then some v else none

end ChunkLoading.Json
