import ChunkLoading.Text.Numeral

/-!
# Tokens of TOML

Blanks, comments, strings, numbers and dates of TOML 1.0. Each function reads one thing from the
front of its input and gives back the rest.
-/

namespace ChunkLoading.Toml

/-! ## Blanks, comments and ends of lines -/

def isBlank (c : Char) : Bool := c == ' ' || c == '\t'

/-- A character that can stand in a comment or between quotes: no control character but the tab. -/
def isVisible (c : Char) : Bool := c == '\t' || (0x20 ≤ c.toNat && c.toNat != 0x7f)

def skipBlanks (s : List Char) : List Char := s.dropWhile isBlank

/-- Reads the end of a line. -/
def readNewline? : List Char → Option (List Char)
  | '\n' :: rest => some rest
  | '\r' :: '\n' :: rest => some rest
  | _ => none

/-- Skips a comment up to the end of its line. -/
def skipComment : List Char → List Char
  | '#' :: rest => rest.dropWhile isVisible
  | s => s

/-- Reads what may follow on a line: blanks, a comment, and the end of the line or the text. -/
def readLineEnd? (s : List Char) : Option (List Char) :=
  match skipComment (skipBlanks s) with
  | [] => some []
  | s => readNewline? s

/-- Skips blanks, comments and ends of lines, at most the given number of times. -/
def skipSpaceUpTo : Nat → List Char → List Char
  | 0, s => s
  | n + 1, s =>
    let t := skipBlanks s
    match readNewline? (skipComment t) with
    | some rest => skipSpaceUpTo n rest
    | none => t

/-- Skips blanks, comments and ends of lines. -/
def skipSpace (s : List Char) : List Char := skipSpaceUpTo s.length s

/-! ## Strings -/

/-- The character with a number, if there is one. -/
def charOf? (n : Nat) : Option Char :=
  if n < 0xD800 ∨ (0xE000 ≤ n ∧ n < 0x110000) then some (Char.ofNat n) else none

/-- The character that a one-letter escape stands for. -/
def unescapeLetter? : Char → Option Char
  | 'b' => some '\x08'
  | 't' => some '\t'
  | 'n' => some '\n'
  | 'f' => some '\x0c'
  | 'r' => some '\r'
  | '"' => some '"'
  | '\\' => some '\\'
  | _ => none

/-- Reads an escape after its backslash. -/
def readEscape? : List Char → Option (Char × List Char)
  | 'u' :: a :: b :: c :: d :: rest => do
    some (← charOf? (← Numeral.readHex? [a, b, c, d]), rest)
  | 'U' :: a :: b :: c :: d :: e :: f :: g :: h :: rest => do
    some (← charOf? (← Numeral.readHex? [a, b, c, d, e, f, g, h]), rest)
  | e :: rest => (unescapeLetter? e).map (·, rest)
  | [] => none

/-- Reads a string on one line after its opening quote, at most the given number of characters. -/
def readBasic? : Nat → List Char → Option (List Char × List Char)
  | 0, _ => none
  | _, [] => none
  | _, '"' :: rest => some ([], rest)
  | n + 1, '\\' :: rest => do
    let (c, rest) ← readEscape? rest
    let (cs, rest) ← readBasic? n rest
    some (c :: cs, rest)
  | n + 1, c :: rest =>
    if isVisible c then (readBasic? n rest).map fun (cs, r) => (c :: cs, r) else none

/-- Reads a literal string on one line after its opening quote. -/
def readLiteral? (s : List Char) : Option (List Char × List Char) :=
  match s.span fun c => isVisible c && c != '\'' with
  | (cs, '\'' :: rest) => some (cs, rest)
  | _ => none

/-- The quotes at the end of a string of several lines: of three to five in a row the last three
close it. -/
def closingQuotes? (quote : Char) (s : List Char) : Option (List Char × List Char) :=
  let run := (s.takeWhile (· == quote)).length
  if run < 3 then none
  else
    let n := min run 5
    some (List.replicate (n - 3) quote, s.drop n)

/-- Skips blanks and ends of lines, at most the given number of times. -/
def skipBlankLines : Nat → List Char → List Char
  | 0, s => s
  | n + 1, s =>
    let t := skipBlanks s
    match readNewline? t with
    | some rest => skipBlankLines n rest
    | none => t

/-- Reads a string of several lines after its opening quotes. A backslash at the end of a line
skips to the next character that is not blank. -/
def readBasicLines? : Nat → List Char → Option (List Char × List Char)
  | 0, _ => none
  | n + 1, s =>
    match closingQuotes? '"' s with
    | some (cs, rest) => some (cs, rest)
    | none =>
      match s with
      | [] => none
      | '\\' :: rest =>
        match readNewline? (skipBlanks rest) with
        | some rest =>
          readBasicLines? n (skipBlankLines rest.length rest)
        | none => do
          let (c, rest) ← readEscape? rest
          let (cs, rest) ← readBasicLines? n rest
          some (c :: cs, rest)
      | c :: rest =>
        match readNewline? s with
        | some rest => (readBasicLines? n rest).map fun (cs, r) => ('\n' :: cs, r)
        | none =>
          if isVisible c then (readBasicLines? n rest).map fun (cs, r) => (c :: cs, r) else none

/-- Reads a literal string of several lines after its opening quotes. -/
def readLiteralLines? : Nat → List Char → Option (List Char × List Char)
  | 0, _ => none
  | n + 1, s =>
    match closingQuotes? '\'' s with
    | some (cs, rest) => some (cs, rest)
    | none =>
      match s with
      | [] => none
      | c :: rest =>
        match readNewline? s with
        | some rest => (readLiteralLines? n rest).map fun (cs, r) => ('\n' :: cs, r)
        | none =>
          if isVisible c then (readLiteralLines? n rest).map fun (cs, r) => (c :: cs, r) else none

/-- Skips the end of a line right after opening quotes. -/
def skipFirstNewline (s : List Char) : List Char := (readNewline? s).getD s

/-- Reads a string of any of the four kinds. -/
def readString? (s : List Char) : Option (List Char × List Char) :=
  match s with
  | '"' :: '"' :: '"' :: rest => readBasicLines? (rest.length + 1) (skipFirstNewline rest)
  | '\'' :: '\'' :: '\'' :: rest => readLiteralLines? (rest.length + 1) (skipFirstNewline rest)
  | '"' :: rest => readBasic? (rest.length + 1) rest
  | '\'' :: rest => readLiteral? rest
  | _ => none

/-! ## Numbers -/

/-- Reads one or more digits with single underscores between them, and drops the underscores. -/
def readDigits? (isDigit : Char → Bool) : List Char → Option (List Char × List Char)
  | [] => none
  | c :: '_' :: rest =>
    if isDigit c then (readDigits? isDigit rest).map fun (ds, r) => (c :: ds, r) else none
  | c :: rest =>
    if isDigit c then
      if rest.head?.any isDigit then
        (readDigits? isDigit rest).map fun (ds, r) => (c :: ds, r)
      else some ([c], rest)
    else none

/-- Reads a sign, if there is one. -/
def readSign : List Char → List Char × List Char
  | '+' :: rest => ([], rest)
  | '-' :: rest => (['-'], rest)
  | s => ([], s)

/-- Reads decimal digits that do not start with a zero, or a zero alone. -/
def readWhole? : List Char → Option (List Char × List Char)
  | '0' :: '_' :: _ => none
  | '0' :: rest => some (['0'], rest)
  | s => readDigits? Char.isDigit s

/-- The least integer that is kept, as a distance from zero. -/
def integerBound : Int := 9223372036854775808

/-- An integer that fits in 64 bits. -/
def integerOf? (n : Int) : Option Int :=
  if -integerBound ≤ n ∧ n < integerBound then some n else none

def isHexDigit (c : Char) : Bool := (Numeral.hexValue? c).isSome
def isOctalDigit (c : Char) : Bool := '0' ≤ c && c ≤ '7'
def isBinaryDigit (c : Char) : Bool := c == '0' || c == '1'

/-- The value of digits of a base. -/
def valueOf (base : Nat) (ds : List Char) : Nat :=
  ds.foldl (fun n c => base * n + (Numeral.hexValue? c).getD 0) 0

/-- Reads digits of a base as an integer. -/
def readBase? (base : Nat) (isDigit : Char → Bool) (s : List Char) : Option (Int × List Char) := do
  let (ds, rest) ← readDigits? isDigit s
  some (← integerOf? (valueOf base ds), rest)

/-- Reads an integer in decimal, or in another base after its mark. -/
def readInteger? (s : List Char) : Option (Int × List Char) :=
  match s with
  | '0' :: 'x' :: rest => readBase? 16 isHexDigit rest
  | '0' :: 'o' :: rest => readBase? 8 isOctalDigit rest
  | '0' :: 'b' :: rest => readBase? 2 isBinaryDigit rest
  | s => do
    let (sign, s) := readSign s
    let (ds, rest) ← readWhole? s
    let n : Int := Numeral.value ds
    some (← integerOf? (if sign = [] then n else -n), rest)

/-- Reads an exponent: its digits with their sign. -/
def readExponent? : List Char → Option (Int × List Char)
  | e :: rest =>
    if e = 'e' ∨ e = 'E' then do
      let (sign, rest) := readSign rest
      let (ds, rest) ← readDigits? Char.isDigit rest
      let n : Int := Numeral.value ds
      some (if sign = [] then n else -n, rest)
    else none
  | [] => none

/-- The least number that double precision takes for infinity: halfway between the greatest finite
number and the next power of two. -/
def infinityFrom : Nat := Nat.pow 2 1024 - Nat.pow 2 970

/-- Whether digits times a power of ten are too large for double precision. -/
def overflows (ds : List Char) (exponent : Int) : Bool :=
  let m := Numeral.value ds
  if m = 0 ∨ ds.length + exponent ≤ 308 then false
  else if 400 < exponent then true
  else infinityFrom * Nat.pow 10 (-exponent).toNat ≤ m * Nat.pow 10 exponent.toNat

/-- Reads a float that is written in digits: with a fraction, an exponent or both. A positive one
that is too large is refused. -/
def readDecimal? (s : List Char) : Option (List Char × List Char) := do
  let (sign, s) := readSign s
  let (whole, s) ← readWhole? s
  let fraction? : Option (List Char × List Char) := match s with
    | '.' :: rest => readDigits? Char.isDigit rest
    | _ => none
  let (fraction, s) := fraction?.getD ([], s)
  let exponent? := readExponent? s
  if fraction?.isNone && exponent?.isNone then none
  let (exponent, rest) := exponent?.getD (0, s)
  if sign = [] && overflows (whole ++ fraction) (exponent - fraction.length) then none
  some (sign ++ whole ++ '.' :: fraction, rest)

/-- Reads an infinity or the value that is not a number. -/
def readSpecial? (s : List Char) : Option (List Char × List Char) :=
  match readSign s with
  | (sign, 'i' :: 'n' :: 'f' :: rest) => some (sign ++ ['i', 'n', 'f'], rest)
  | (sign, 'n' :: 'a' :: 'n' :: rest) => some (sign ++ ['n', 'a', 'n'], rest)
  | _ => none

def readFloat? (s : List Char) : Option (List Char × List Char) :=
  (readDecimal? s).or (readSpecial? s)

/-! ## Dates and times -/

/-- Reads a number of exactly the given number of digits in a range. -/
def readField? (width low high : Nat) (s : List Char) : Option (Nat × List Char) :=
  let ds := s.take width
  let n := Numeral.value ds
  if ds.length = width ∧ ds.all Char.isDigit ∧ low ≤ n ∧ n ≤ high then some (n, s.drop width)
  else none

def readChar? (c : Char) : List Char → Option (List Char)
  | d :: rest => if d = c then some rest else none
  | [] => none

def isLeapYear (y : Nat) : Bool := y % 4 = 0 && (y % 100 != 0 || y % 400 = 0)

def daysOfMonth (y m : Nat) : Nat :=
  if m = 2 then (if isLeapYear y then 29 else 28)
  else if m = 4 ∨ m = 6 ∨ m = 9 ∨ m = 11 then 30
  else 31

/-- Reads a date and gives the rest. -/
def readDate? (s : List Char) : Option (List Char) := do
  let (y, s) ← readField? 4 0 9999 s
  let s ← readChar? '-' s
  let (m, s) ← readField? 2 1 12 s
  let s ← readChar? '-' s
  let (_, s) ← readField? 2 1 (daysOfMonth y m) s
  some s

/-- Reads a time of day and gives the rest. -/
def readTime? (s : List Char) : Option (List Char) := do
  let (_, s) ← readField? 2 0 23 s
  let s ← readChar? ':' s
  let (_, s) ← readField? 2 0 59 s
  let s ← readChar? ':' s
  let (_, s) ← readField? 2 0 60 s
  match s with
  | '.' :: rest =>
    match rest.takeWhile Char.isDigit with
    | [] => some s
    | _ => some (rest.dropWhile Char.isDigit)
  | s => some s

/-- Skips the distance from universal time, if it is given. -/
def skipOffset (s : List Char) : List Char :=
  match s with
  | 'Z' :: rest | 'z' :: rest => rest
  | sign :: rest =>
    if sign = '+' ∨ sign = '-' then
      let offset? : Option (List Char) := do
        let (_, r) ← readField? 2 0 23 rest
        let r ← readChar? ':' r
        let (_, r) ← readField? 2 0 59 r
        some r
      offset?.getD s
    else s
  | [] => []

/-- Skips the time after a date, if it is given. -/
def skipTimeAfterDate (s : List Char) : List Char :=
  match s with
  | c :: rest =>
    if c = 'T' ∨ c = 't' ∨ c = ' ' then ((readTime? rest).map skipOffset).getD s else s
  | [] => []

/-- Reads a date, a time or both. -/
def readDateTime? (s : List Char) : Option (List Char × List Char) :=
  let rest? := ((readDate? s).map skipTimeAfterDate).or (readTime? s)
  rest?.map fun rest => (s.take (s.length - rest.length), rest)

end ChunkLoading.Toml
