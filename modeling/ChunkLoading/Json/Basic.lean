import ChunkLoading.Text.Numeral

/-!
# JSON texts

A JSON text as it is written: numbers and strings keep their tokens, so that a token is only
judged where its value is asked for. A string token is what stands between the quotes, escapes
included. `render` writes a text without blanks.
-/

namespace ChunkLoading

inductive Json where
  | null
  | bool (b : Bool)
  | number (token : List Char)
  | string (token : List Char)
  | array (items : List Json)
  | object (members : List (List Char × Json))
  deriving Inhabited

namespace Json

/-! ## Strings -/

/-- The written form of one character: quotes, backslashes and control characters are escaped. -/
def escapeChar (c : Char) : List Char :=
  if c = '"' then ['\\', '"']
  else if c = '\\' then ['\\', '\\']
  else if c = '\x08' then ['\\', 'b']
  else if c = '\x0c' then ['\\', 'f']
  else if c = '\n' then ['\\', 'n']
  else if c = '\r' then ['\\', 'r']
  else if c = '\t' then ['\\', 't']
  else if c.toNat < 0x20 then
    ['\\', 'u', '0', '0', Numeral.hexDigit (c.toNat / 16), Numeral.hexDigit (c.toNat % 16)]
  else [c]

/-- The token of a string. -/
def escape (s : List Char) : List Char :=
  s.flatMap escapeChar

/-- The character that a one-letter escape stands for. -/
def unescapeLetter? : Char → Option Char
  | '"' => some '"'
  | '\\' => some '\\'
  | '/' => some '/'
  | 'b' => some '\x08'
  | 'f' => some '\x0c'
  | 'n' => some '\n'
  | 'r' => some '\r'
  | 't' => some '\t'
  | _ => none

/-- Whether a code unit is the first half of a surrogate pair. -/
def isHighSurrogate (u : Nat) : Bool := 0xD800 ≤ u && u < 0xDC00

/-- Whether a code unit is the second half of a surrogate pair. -/
def isLowSurrogate (u : Nat) : Bool := 0xDC00 ≤ u && u < 0xE000

/-- The characters of a string token; a surrogate without its partner has none. -/
def unescape? : List Char → Option (List Char)
  | [] => some []
  | '\\' :: 'u' :: a :: b :: c :: d :: rest => do
    let u ← Numeral.readHex? [a, b, c, d]
    if isHighSurrogate u then
      match rest with
      | '\\' :: 'u' :: e :: f :: g :: h :: rest' => do
        let l ← Numeral.readHex? [e, f, g, h]
        if isLowSurrogate l then
          let tail ← unescape? rest'
          some (Char.ofNat (0x10000 + (u - 0xD800) * 0x400 + (l - 0xDC00)) :: tail)
        else none
      | _ => none
    else if isLowSurrogate u then none
    else
      let tail ← unescape? rest
      some (Char.ofNat u :: tail)
  | '\\' :: e :: rest => do
    let c ← unescapeLetter? e
    let tail ← unescape? rest
    some (c :: tail)
  | c :: rest => do
    let tail ← unescape? rest
    some (c :: tail)

/-! ## Making values -/

def ofString (s : String) : Json := .string (escape s.toList)

def ofNat (n : Nat) : Json := .number (Numeral.digits n)

def ofInt (n : Int) : Json := .number (Numeral.signedDigits n)

def ofList {α : Type} (f : α → Json) (xs : List α) : Json := .array (xs.map f)

/-- An object from its members, keys given as plain text. -/
def ofMembers (ms : List (String × Json)) : Json :=
  .object (ms.map fun m => (escape m.1.toList, m.2))

/-! ## Compact text -/

mutual

/-- The compact text of a value. -/
def render : Json → List Char
  | .null => ['n', 'u', 'l', 'l']
  | .bool true => ['t', 'r', 'u', 'e']
  | .bool false => ['f', 'a', 'l', 's', 'e']
  | .number token => token
  | .string token => '"' :: (token ++ ['"'])
  | .array [] => ['[', ']']
  | .array (v :: vs) => '[' :: (render v ++ renderItems vs)
  | .object [] => ['{', '}']
  | .object (m :: ms) => '{' :: (renderMember m ++ renderMembers ms)

/-- The text of the items after the first, and the closing bracket. -/
def renderItems : List Json → List Char
  | [] => [']']
  | v :: vs => ',' :: (render v ++ renderItems vs)

/-- The text of one member of an object. -/
def renderMember : List Char × Json → List Char
  | (k, v) => '"' :: (k ++ '"' :: ':' :: render v)

/-- The text of the members after the first, and the closing brace. -/
def renderMembers : List (List Char × Json) → List Char
  | [] => ['}']
  | m :: ms => ',' :: (renderMember m ++ renderMembers ms)

end

/-- The compact text of a value as a string. -/
def text (v : Json) : String := String.ofList v.render

/-! ## Indented text -/

/-- A new line at the given depth, two blanks a level. -/
def newline (depth : Nat) : List Char := '\n' :: List.replicate (2 * depth) ' '

mutual

/-- The text of a value with each item and member on a line of its own. -/
def indent (depth : Nat) : Json → List Char
  | .array (v :: vs) =>
    '[' :: (newline (depth + 1) ++ indent (depth + 1) v ++ indentItems depth vs)
  | .object (m :: ms) =>
    '{' :: (newline (depth + 1) ++ indentMember (depth + 1) m ++ indentMembers depth ms)
  | .null => ['n', 'u', 'l', 'l']
  | .bool true => ['t', 'r', 'u', 'e']
  | .bool false => ['f', 'a', 'l', 's', 'e']
  | .number token => token
  | .string token => '"' :: (token ++ ['"'])
  | .array [] => ['[', ']']
  | .object [] => ['{', '}']

def indentItems (depth : Nat) : List Json → List Char
  | [] => newline depth ++ [']']
  | v :: vs => ',' :: (newline (depth + 1) ++ indent (depth + 1) v ++ indentItems depth vs)

def indentMember (depth : Nat) : List Char × Json → List Char
  | (k, v) => '"' :: (k ++ '"' :: ':' :: ' ' :: indent depth v)

def indentMembers (depth : Nat) : List (List Char × Json) → List Char
  | [] => newline depth ++ ['}']
  | m :: ms => ',' :: (newline (depth + 1) ++ indentMember (depth + 1) m ++ indentMembers depth ms)

end

end Json

end ChunkLoading
