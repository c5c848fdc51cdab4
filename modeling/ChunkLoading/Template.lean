import ChunkLoading.Json.Basic
import ChunkLoading.Text.WordChar
import ChunkLoading.Text.DecimalDigit

/-!
# Filename templates

A template is text with placeholders such as `[name]` or `[contenthash:8]`. It is rendered to a
string, each placeholder replaced by the front of its value, or compiled to an expression of
emitted code whose placeholders are looked up when it runs.
-/

namespace ChunkLoading

inductive Placeholder where
  | id
  | name
  | contentHash
  | fullHash
  | runtime
  deriving DecidableEq

namespace Placeholder

/-- The placeholder that a name between brackets means. -/
def ofName? : String → Option Placeholder
  | "id" => some .id
  | "name" => some .name
  | "contenthash" | "chunkhash" => some .contentHash
  | "fullhash" | "hash" => some .fullHash
  | "runtime" => some .runtime
  | _ => none

/-- The principal name of a placeholder. -/
def word : Placeholder → String
  | .id => "id"
  | .name => "name"
  | .contentHash => "contenthash"
  | .fullHash => "fullhash"
  | .runtime => "runtime"

end Placeholder

inductive TemplateError where
  | unknownPlaceholder (name template : String)
  | unresolved (placeholder : Placeholder) (template : String)
  deriving DecidableEq

def TemplateError.message : TemplateError → String
  | .unknownPlaceholder name template =>
    "unknown placeholder [" ++ name ++ "] in template '" ++ template ++ "'"
  | .unresolved p template =>
    "placeholder [" ++ p.word ++ "] cannot be resolved in template '" ++ template ++ "'"

/-- A part of a template: plain text, or a placeholder with a limit on its length. -/
inductive Segment where
  | literal (chars : List Char)
  | slot (placeholder : Placeholder) (limit : Option Nat)
  deriving DecidableEq

structure Template where
  source : String
  segments : List Segment
  deriving DecidableEq

namespace Template

/-! ## Finding placeholders -/

/-- The name and digits of a placeholder, as they are written. -/
structure Written where
  name : List Char
  digits : List Char

namespace Written

/-- The number of characters after the opening bracket, the closing one included. -/
def length (w : Written) : Nat :=
  w.name.length + (if w.digits = [] then 0 else w.digits.length + 1) + 1

/-- The limit counts only when its digits are ASCII and fit in 64 bits. -/
def limit? (w : Written) : Option Nat :=
  Numeral.readBelow? Numeral.bound64 w.digits

/-- The placeholder written after an opening bracket: a name of word characters, then perhaps a
colon and decimal digits, then a closing bracket. -/
def read? (s : List Char) : Option Written :=
  match s.takeWhile WordChar.isWord, s.dropWhile WordChar.isWord with
  | [], _ => none
  | name, ']' :: _ => some ⟨name, []⟩
  | name, ':' :: rest =>
    match rest.takeWhile DecimalDigit.isDecimal, rest.dropWhile DecimalDigit.isDecimal with
    | [], _ => none
    | digits, ']' :: _ => some ⟨name, digits⟩
    | _, _ => none
  | _, _ => none

end Written

/-- What stands at one place of a template. -/
inductive Mark where
  | char (c : Char)
  | slot (w : Written)

/-- The marks of a text, after skipping the given number of characters. -/
def marks : Nat → List Char → List Mark
  | _, [] => []
  | skip + 1, _ :: rest => marks skip rest
  | 0, c :: rest =>
    match if c = '[' then Written.read? rest else none with
    | some w => .slot w :: marks w.length rest
    | none => .char c :: marks 0 rest

/-- The segment of one mark, single characters as one-letter literals. -/
def segment? (source : String) : Mark → Except TemplateError Segment
  | .char c => .ok (.literal [c])
  | .slot w =>
    match Placeholder.ofName? (String.ofList w.name) with
    | some p => .ok (.slot p w.limit?)
    | none => .error (.unknownPlaceholder (String.ofList w.name) source)

/-- Puts a segment in front; two literals become one. -/
def cons : Segment → List Segment → List Segment
  | .literal s, .literal t :: rest => .literal (s ++ t) :: rest
  | seg, segs => seg :: segs

/-- Reads a template; the leftmost unknown placeholder is an error. -/
def parse (source : String) : Except TemplateError Template := do
  let segs ← (marks 0 source.toList).mapM (segment? source)
  return ⟨source, segs.foldr cons []⟩

/-! ## Using a template -/

/-- Whether the template uses a placeholder. -/
def uses (t : Template) (p : Placeholder) : Bool :=
  t.segments.any fun
    | .slot q _ => q == p
    | .literal _ => false

/-- The front of a value, up to a limit on the number of its characters. -/
def clip (limit : Option Nat) (value : List Char) : List Char :=
  match limit with
  | some n => value.take n
  | none => value

/-- Replaces each placeholder by the front of its value; the leftmost one without a value is an
error. -/
def render (t : Template) (value : Placeholder → Option String) : Except TemplateError String := do
  let parts ← t.segments.mapM fun
    | .literal s => .ok s
    | .slot p limit =>
      match value p with
      | some v => .ok (clip limit v.toList)
      | none => .error (.unresolved p t.source)
  return String.ofList parts.flatten

/-- An operand of the sum that a template compiles to. -/
inductive Operand where
  | literal (chars : List Char)
  | code (expr : String)
  | slice (expr : String) (limit : Nat)

def Operand.text : Operand → String
  | .literal s => (Json.string (Json.escape s)).text
  | .code e => e
  | .slice e n => "String(" ++ e ++ ").slice(0, " ++ String.ofList (Numeral.digits n) ++ ")"

/-- The operand of a placeholder whose value is computed by `expr`. -/
def Operand.ofLimit (expr : String) : Option Nat → Operand
  | some n => .slice expr n
  | none => .code expr

/-- The operands of the sum. It starts with a string literal, so that it is a string. -/
def operands (t : Template) (expr : Placeholder → Option String) :
    Except TemplateError (List Operand) := do
  let ops ← t.segments.mapM fun
    | .literal s => .ok (.literal s)
    | .slot p limit =>
      match expr p with
      | some e => .ok (.ofLimit e limit)
      | none => .error (.unresolved p t.source)
  match t.segments with
  | .literal _ :: _ => return ops
  | _ => return .literal [] :: ops

/-- The expression of emitted code that computes the rendered string. -/
def expression (t : Template) (expr : Placeholder → Option String) : Except TemplateError String :=
  return " + ".intercalate ((← t.operands expr).map Operand.text)

end Template

end ChunkLoading
