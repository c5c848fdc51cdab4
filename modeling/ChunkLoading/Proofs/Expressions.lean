import ChunkLoading.Proofs.Literals
import ChunkLoading.Proofs.Placeholders
import Mathlib.Data.List.Forall2

/-!
# What compiled templates compute

A template compiles to a sum of string literals, names and calls, of which it may take the first code units
only. `evaluate?` reads such an expression and computes its value, a list of UTF-16 code units. That value is
the text that the template renders, as far as no limit cuts characters short that take two code units
(`Template.computes_render`).
-/

namespace ChunkLoading

/-! ## Code units -/

/-- The UTF-16 code units of a character: one, or the two of a surrogate pair. -/
def unitsOf (c : Char) : List UInt16 :=
  if c.toNat < 0x10000 then [.ofNat c.toNat]
  else [.ofNat (0xD800 + (c.toNat - 0x10000) / 0x400), .ofNat (0xDC00 + (c.toNat - 0x10000) % 0x400)]

theorem unitsOf_ne_nil (c : Char) : unitsOf c ≠ [] := by
  unfold unitsOf
  split <;> exact List.cons_ne_nil _ _

/-- The UTF-16 code units of a text. -/
def units (s : List Char) : List UInt16 := s.flatMap unitsOf

@[simp] theorem units_nil : units [] = [] := rfl

@[simp] theorem units_append (s t : List Char) : units (s ++ t) = units s ++ units t := List.flatMap_append

theorem length_le_units (s : List Char) : s.length ≤ (units s).length := by
  induction s with
  | nil => simp
  | cons c s ih =>
    have some := List.length_pos_iff.mpr (unitsOf_ne_nil c)
    show s.length + 1 ≤ (unitsOf c ++ units s).length
    rw [List.length_append]
    omega

/-- If the first characters of a text take no more code units than there are characters to keep, they are
its first code units. -/
theorem take_units {s : List Char} {n : Nat} (fits : (units (s.take n)).length ≤ n) :
    (units s).take n = units (s.take n) := by
  have split : units s = units (s.take n) ++ units (s.drop n) := by
    rw [← units_append, List.take_append_drop]
  by_cases short : s.length ≤ n
  · rw [List.take_of_length_le short] at fits ⊢
    exact List.take_of_length_le fits
  · -- There are as many code units as characters.
    have long := length_le_units (s.take n)
    rw [List.length_take_of_le (by omega)] at long
    rw [split, List.take_append_of_le_length long, List.take_of_length_le fits]

/-- No character is a surrogate, so that code units tell characters apart. -/
theorem unitsOf_append_inj {c d : Char} {s t : List UInt16} (same : unitsOf c ++ s = unitsOf d ++ t) :
    c = d ∧ s = t := by
  have number (c : Char) : c.toNat < 0xD800 ∨ 0xDFFF < c.toNat ∧ c.toNat < 0x110000 := c.valid
  have value {m n : Nat} (same : UInt16.ofNat m = UInt16.ofNat n) : m % 65536 = n % 65536 := by
    have := congrArg UInt16.toNat same
    rwa [UInt16.toNat_ofNat', UInt16.toNat_ofNat'] at this
  -- Both characters have one unit or both two: a unit of a pair is no character.
  have numberC := number c
  have numberD := number d
  unfold unitsOf at same
  split at same <;> split at same
  · obtain ⟨first, rest⟩ := List.cons.inj same
    have := value first
    exact ⟨Char.toNat_inj.mp (by omega), rest⟩
  · obtain ⟨first, -⟩ := List.cons.inj same
    have := value first
    omega
  · obtain ⟨first, -⟩ := List.cons.inj same
    have := value first
    omega
  · obtain ⟨first, later⟩ := List.cons.inj same
    obtain ⟨second, rest⟩ := List.cons.inj later
    have high := value first
    have low := value second
    exact ⟨Char.toNat_inj.mp (by omega), rest⟩

/-- Different texts have different code units. -/
theorem units_inj {s t : List Char} (same : units s = units t) : s = t := by
  have some (c : Char) (us : List UInt16) : unitsOf c ++ us ≠ [] :=
    List.append_ne_nil_of_left_ne_nil (unitsOf_ne_nil c) us
  induction s generalizing t with
  | nil =>
    cases t with
    | nil => rfl
    | cons d t => exact absurd same.symm (some d (units t))
  | cons c s ih =>
    cases t with
    | nil => exact absurd same (some c (units s))
    | cons d t =>
      obtain ⟨rfl, rest⟩ := unitsOf_append_inj same
      rw [ih rest]

/-! ## Expressions -/

/-- The values of names and calls that an expression may use. -/
abbrev Scope := List (String × List UInt16)

namespace Expression

/-- Reads a string literal, or a name or call of the scope, and gives its value. -/
def readPrimary? (scope : Scope) : List Char → Option (List UInt16 × List Char)
  | '"' :: rest => do
    let (token, rest) ← Json.readString? rest
    return (units (← Json.unescape? token), rest)
  | s => scope.findSome? fun entry => (entry.1.toList.isPrefixOf? s).map (entry.2, ·)

/-- Reads a primary, or `String(primary).slice(0, n)`, which has the first `n` code units of its value. -/
def readOperand? (scope : Scope) (s : List Char) : Option (List UInt16 × List Char) :=
  match "String(".toList.isPrefixOf? s with
  | none => readPrimary? scope s
  | some rest => do
    let (value, rest) ← readPrimary? scope rest
    let rest ← ").slice(0, ".toList.isPrefixOf? rest
    let (digits, rest) ← Json.readDigits? rest
    let rest ← [')'].isPrefixOf? rest
    return (value.take (Numeral.value digits), rest)

/-- Evaluates a sum of operands; the first argument bounds their number. -/
def evaluateSum? (scope : Scope) : Nat → List Char → Option (List UInt16)
  | 0, _ => none
  | fuel + 1, s =>
    match readOperand? scope s with
    | none => none
    | some (value, []) => some value
    | some (value, rest) =>
      match " + ".toList.isPrefixOf? rest with
      | none => none
      | some rest => (evaluateSum? scope fuel rest).map (value ++ ·)

/-- The value of an expression that is a sum of texts. A text has fewer signs between operands than
characters. -/
def evaluate? (scope : Scope) (expr : String) : Option (List UInt16) :=
  evaluateSum? scope (expr.toList.length + 1) expr.toList

/-- An expression stands for a text in a scope, whatever follows it. -/
structure Denotes (scope : Scope) (expr value : String) : Prop where
  read : ∀ rest, readPrimary? scope (expr.toList ++ rest) = some (units value.toList, rest)
  unsliced : ∀ rest, "String(".toList.isPrefixOf? (expr.toList ++ rest) = none

/-- A string literal stands for its text in any scope. -/
theorem denotes_string (scope : Scope) (value : String) : Denotes scope (Literal.string value) value := by
  have form (rest : List Char) : (Literal.string value).toList ++ rest =
      '"' :: (Json.escape value.toList ++ '"' :: rest) := by
    simp [Literal.string, Json.ofString, Json.text, Json.render]
  constructor
  · intro rest
    rw [form, readPrimary?, Json.readString?_escape]
    simp [Json.unescape?_escape]
  · intro rest
    rw [form]
    rfl

/-- A name or call stands for the value that the scope has for it first. -/
theorem denotes_name (before : Scope) {after : Scope} {name value : String} (c : Char) {cs : List Char}
    (form : name.toList = c :: cs) (bare : c ≠ '"') (unsliced : c ≠ 'S')
    (apart : ∀ entry ∈ before, ∃ d ds, entry.1.toList = d :: ds ∧ d ≠ c) :
    Denotes (before ++ (name, units value.toList) :: after) name value := by
  constructor
  · intro rest
    have earlier : before.findSome? (fun entry =>
        (entry.1.toList.isPrefixOf? (name.toList ++ rest)).map (entry.2, ·)) = none := by
      rw [List.findSome?_eq_none_iff]
      intro entry member
      obtain ⟨d, ds, start, other⟩ := apart entry member
      simp [start, form, List.isPrefixOf?, other]
    have own : name.toList.isPrefixOf? (name.toList ++ rest) = some rest :=
      List.isPrefixOf?_eq_some_iff_append_eq.mpr rfl
    -- A name does not start like a literal, so that it is looked up.
    have read : readPrimary? (before ++ (name, units value.toList) :: after) (name.toList ++ rest) =
        (before ++ (name, units value.toList) :: after).findSome? fun entry =>
          (entry.1.toList.isPrefixOf? (name.toList ++ rest)).map (entry.2, ·) := by
      rw [form]
      unfold readPrimary?
      split
      · rename_i same
        exact absurd (List.cons.inj same).1 bare
      · rfl
    rw [read, List.findSome?_append, earlier, List.findSome?_cons, own]
    rfl
  · intro rest
    have start : "String(".toList = 'S' :: "tring(".toList := rfl
    rw [form, start, List.cons_append, List.isPrefixOf?]
    simp [Ne.symm unsliced]
variable {scope : Scope}

/-- An expression computes a text. -/
def Computes (scope : Scope) (expr s : String) : Prop := evaluate? scope expr = some (units s.toList)

instance (scope : Scope) (expr s : String) : Decidable (Computes scope expr s) :=
  inferInstanceAs (Decidable (_ = _))

/-- An expression computes one text only. -/
theorem Computes.unique {expr s t : String} (first : Computes scope expr s)
    (second : Computes scope expr t) : s = t :=
  String.toList_inj.mp (units_inj (Option.some.inj (first.symm.trans second)))

/-- The value of an operand whose expression stands for a text. -/
inductive HasValue (scope : Scope) : Template.Operand → List UInt16 → Prop
  | literal (chars : List Char) : HasValue scope (.literal chars) (units chars)
  | code {expr value : String} (denotes : Denotes scope expr value) :
      HasValue scope (.code expr) (units value.toList)
  | slice {expr value : String} (limit : Nat) (denotes : Denotes scope expr value) :
      HasValue scope (.slice expr limit) ((units value.toList).take limit)

/-- What an operand is written as is read as its value. -/
theorem HasValue.readOperand? {op : Template.Operand} {value : List UInt16} (has : HasValue scope op value)
    (rest : List Char) : readOperand? scope (op.text.toList ++ rest) = some (value, rest) := by
  have plain {expr value : String} (denotes : Denotes scope expr value) :
      Expression.readOperand? scope (expr.toList ++ rest) = some (units value.toList, rest) := by
    unfold Expression.readOperand?
    rw [denotes.unsliced]
    exact denotes.read rest
  cases has with
  | literal chars =>
    have text : (Template.Operand.literal chars).text = Literal.string (String.ofList chars) := by
      simp [Template.Operand.text, Literal.string, Json.ofString]
    rw [text, plain (denotes_string scope _), String.toList_ofList]
  | code denotes => exact plain denotes
  | @slice expr value limit denotes =>
    -- What is cut is read between the words of the call, then the limit by its digits.
    have form : (Template.Operand.slice expr limit).text.toList ++ rest = "String(".toList ++
        (expr.toList ++ (").slice(0, ".toList ++ (Numeral.digits limit ++ ([')'] ++ rest)))) := by
      simp [Template.Operand.text]
    have digits : Json.readDigits? (Numeral.digits limit ++ ([')'] ++ rest)) =
        some (Numeral.digits limit, [')'] ++ rest) := by
      refine Json.readDigits?_digits (fun _ => Json.isDigit_of_mem_digits) ?_
        (Json.endsNumber_cons (by decide))
      obtain ⟨c, cs, some, -⟩ := Json.digits_cons limit
      simp [some]
    have front (s t : List Char) : s.isPrefixOf? (s ++ t) = some t :=
      List.isPrefixOf?_eq_some_iff_append_eq.mpr rfl
    have limitValue : Numeral.value (Numeral.digits limit) = limit := Nat.ofDigitChars_ten_toDigits
    rw [form, Expression.readOperand?]
    simp only [front, denotes.read, digits, Option.bind_eq_bind, Option.bind_some, limitValue]
    rfl

/-- A sum of operands has the values of the operands one after the other. -/
theorem evaluateSum?_operands {ops : List Template.Operand} {values : List (List UInt16)}
    (each : List.Forall₂ (HasValue scope) ops values) (some : ops ≠ []) {fuel : Nat}
    (enough : ops.length ≤ fuel) :
    evaluateSum? scope fuel (" + ".intercalate (ops.map Template.Operand.text)).toList =
      .some values.flatten := by
  -- The induction is on the operands; each takes one unit of the fuel.
  induction each generalizing fuel with
  | nil => exact absurd rfl some
  | @cons op value ops values has later ih =>
    obtain ⟨fuel, rfl⟩ : ∃ m, fuel = m + 1 := ⟨fuel - 1, by simp at enough; omega⟩
    cases later with
    | nil =>
      have read := has.readOperand? []
      rw [List.append_nil] at read
      simp [evaluateSum?, read]
    | @cons next value' ops values has' later =>
      let tail := " + ".intercalate ((next :: ops).map Template.Operand.text)
      have form : (" + ".intercalate ((op :: next :: ops).map Template.Operand.text)).toList =
          op.text.toList ++ (' ' :: '+' :: ' ' :: tail.toList) := by
        rw [List.map_cons, List.map_cons, String.intercalate_cons_cons, ← List.map_cons]
        simp [tail]
      have sign : " + ".toList.isPrefixOf? (' ' :: '+' :: ' ' :: tail.toList) = .some tail.toList :=
        List.isPrefixOf?_eq_some_iff_append_eq.mpr rfl
      have others : evaluateSum? scope fuel tail.toList = .some (value' :: values).flatten :=
        ih (List.cons_ne_nil _ _) (Nat.le_of_succ_le_succ enough)
      rw [form, evaluateSum?, has.readOperand?]
      simp only [sign, others]
      rfl

/-- A compiled sum is evaluated to the values of its operands. -/
theorem evaluate?_operands {ops : List Template.Operand} {values : List (List UInt16)}
    (each : List.Forall₂ (HasValue scope) ops values) (some : ops ≠ []) :
    evaluate? scope (" + ".intercalate (ops.map Template.Operand.text)) = .some values.flatten := by
  refine evaluateSum?_operands each some ?_
  clear each some
  -- Signs stand between operands.
  induction ops with
  | nil => simp
  | cons op ops ih =>
    cases ops with
    | nil => simp
    | cons next ops =>
      rw [List.map_cons, List.map_cons, String.intercalate_cons_cons, ← List.map_cons]
      simp only [String.toList_append, List.length_append, List.length_cons] at ih ⊢
      have sign : " + ".toList.length = 3 := rfl
      omega

end Expression

/-! ## Templates -/

open Expression

namespace Segment

/-- What a segment is rendered to. -/
def part (value : Placeholder → Option String) : Segment → List Char
  | .literal chars => chars
  | .slot p limit => Template.clip limit ((value p).getD "").toList

/-- What a segment is compiled to. -/
def operand (expr : Placeholder → Option String) : Segment → Template.Operand
  | .literal chars => .literal chars
  | .slot p limit => .ofLimit ((expr p).getD "") limit

/-- What the operand of a segment computes: its limit counts code units. -/
def result (value : Placeholder → Option String) : Segment → List UInt16
  | .literal chars => units chars
  | .slot p none => units ((value p).getD "").toList
  | .slot p (some limit) => (units ((value p).getD "").toList).take limit

end Segment

namespace Template

variable {t : Template} {scope : Scope} {value expr : Placeholder → Option String}

theorem render_eq (given : ∀ p, t.uses p = true → (value p).isSome = true) :
    t.render value = .ok (String.ofList (t.segments.flatMap (Segment.part value))) := by
  unfold render
  rw [mapM_eq_ok _ (Segment.part value) ?_]
  · rfl
  · intro segment member
    cases segment with
    | literal chars => rfl
    | slot p limit =>
      obtain ⟨v, held⟩ := Option.isSome_iff_exists.mp (given p (uses_iff.mpr ⟨limit, member⟩))
      simp [Segment.part, held]

/-- The empty literal in front of a sum that would not start with a literal. -/
def front (t : Template) : List Operand :=
  match t.segments with
  | .literal _ :: _ => []
  | _ => [.literal []]

theorem operands_eq (given : ∀ p, t.uses p = true → (expr p).isSome = true) :
    t.operands expr = .ok (t.front ++ t.segments.map (Segment.operand expr)) := by
  unfold operands front
  rw [mapM_eq_ok _ (Segment.operand expr) ?_]
  · cases t.segments with
    | nil => rfl
    | cons segment segments => cases segment <;> rfl
  · intro segment member
    cases segment with
    | literal chars => rfl
    | slot p limit =>
      obtain ⟨e, held⟩ := Option.isSome_iff_exists.mp (given p (uses_iff.mpr ⟨limit, member⟩))
      simp [Segment.operand, held]

theorem expression_eq (given : ∀ p, t.uses p = true → (expr p).isSome = true) :
    t.expression expr =
      .ok (" + ".intercalate ((t.front ++ t.segments.map (Segment.operand expr)).map Operand.text)) := by
  unfold expression
  rw [operands_eq given]
  rfl

/-- **A template whose placeholders stand for texts compiles to an expression that computes the results of
its segments**, one after the other. -/
theorem evaluate?_expression (denotes : ∀ p, t.uses p = true →
      ∃ e v, expr p = some e ∧ value p = some v ∧ Denotes scope e v) :
    ∃ e, t.expression expr = .ok e ∧ evaluate? scope e = some (t.segments.flatMap (Segment.result value)) := by
  have given : ∀ p, t.uses p = true → (expr p).isSome = true := by
    intro p used
    obtain ⟨e, v, held, -⟩ := denotes p used
    simp [held]
  have slots : ∀ segment ∈ t.segments,
      HasValue scope (segment.operand expr) (segment.result value) := by
    intro segment member
    cases segment with
    | literal chars => exact .literal chars
    | slot p limit =>
      obtain ⟨e, v, heldE, heldV, stands⟩ := denotes p (uses_iff.mpr ⟨limit, member⟩)
      cases limit with
      | none => simpa [Segment.operand, Segment.result, Operand.ofLimit, heldE, heldV] using HasValue.code stands
      | some n =>
        simpa [Segment.operand, Segment.result, Operand.ofLimit, heldE, heldV] using HasValue.slice n stands
  have later : List.Forall₂ (HasValue scope) (t.segments.map (Segment.operand expr))
      (t.segments.map (Segment.result value)) := by
    rw [List.forall₂_map_left_iff, List.forall₂_map_right_iff, List.forall₂_same]
    exact slots
  -- The sum starts with a literal, of the template or an empty one.
  obtain ⟨values, all, some, empty⟩ : ∃ values,
      List.Forall₂ (HasValue scope) (t.front ++ t.segments.map (Segment.operand expr))
        (values ++ t.segments.map (Segment.result value)) ∧
      t.front ++ t.segments.map (Segment.operand expr) ≠ [] ∧ values.flatten = [] := by
    by_cases literal : t.front = []
    · rw [literal]
      refine ⟨[], later, ?_, rfl⟩
      intro none
      have : t.segments = [] := List.map_eq_nil_iff.mp none
      simp [front, this] at literal
    · have form : t.front = [.literal []] := by
        unfold front at literal ⊢
        split <;> simp_all
      rw [form]
      exact ⟨[[]], .cons (.literal []) later, List.cons_ne_nil _ _, rfl⟩
  refine ⟨_, expression_eq given, ?_⟩
  rw [evaluate?_operands all some, List.flatten_append, empty, List.nil_append, List.flatMap]

/-- Wherever a template cuts a value, the characters that it keeps take no more code units than its limit. -/
def Fits (t : Template) (value : Placeholder → Option String) : Prop :=
  ∀ p limit v, .slot p (some limit) ∈ t.segments → value p = some v →
    (units (v.toList.take limit)).length ≤ limit

/-- If no limit counts a character twice, then the results of the segments are the code units of the text
that is rendered. -/
theorem units_parts (given : ∀ p, t.uses p = true → (value p).isSome = true) (fits : t.Fits value) :
    t.segments.flatMap (Segment.result value) = units (t.segments.flatMap (Segment.part value)) := by
  have each : ∀ segment ∈ t.segments, segment.result value = units (segment.part value) := by
    intro segment member
    cases segment with
    | literal chars => rfl
    | slot p limit =>
      cases limit with
      | none => rfl
      | some n =>
        obtain ⟨v, held⟩ := Option.isSome_iff_exists.mp (given p (uses_iff.mpr ⟨_, member⟩))
        have cut := take_units (fits p n v member held)
        simpa [Segment.result, Segment.part, clip, held] using cut
  rw [units, List.flatMap_assoc]
  exact List.flatMap_congr each

/-- **A compiled template computes the text that is rendered**, where no limit cuts characters short that
take two code units. -/
theorem computes_render (denotes : ∀ p, t.uses p = true →
      ∃ e v, expr p = some e ∧ value p = some v ∧ Denotes scope e v) (fits : t.Fits value) :
    ∃ s e, t.render value = .ok s ∧ t.expression expr = .ok e ∧ Computes scope e s := by
  have given : ∀ p, t.uses p = true → (value p).isSome = true := by
    intro p used
    obtain ⟨e, v, -, held, -⟩ := denotes p used
    simp [held]
  obtain ⟨e, compiled, computed⟩ := evaluate?_expression denotes
  refine ⟨_, e, render_eq given, compiled, ?_⟩
  rw [Computes, computed, units_parts given fits, String.toList_ofList]

end Template

end ChunkLoading
