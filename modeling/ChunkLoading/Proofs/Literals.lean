import ChunkLoading.Emitted.Generation
import Mathlib.Tactic.SplitIfs

/-!
# Reading back what is written

A JSON text without blanks is read back whatever follows it, provided that its strings and keys are
escaped, its numbers are integers, and no number goes on with what follows (`Json.Written.readPrefix?_append`).
All literals of emitted code are such texts.
-/

namespace ChunkLoading

namespace Json

/-! ## Strings -/

/-- A character is written as an escape of one letter, as an escape by its number, or as it is. -/
theorem escapeChar_cases (c : Char) :
    (∃ e, escapeChar c = ['\\', e] ∧ e ≠ 'u' ∧ unescapeLetter? e = some c) ∨
    (c.toNat < 0x20 ∧ escapeChar c =
      ['\\', 'u', '0', '0', Numeral.hexDigit (c.toNat / 16), Numeral.hexDigit (c.toNat % 16)]) ∨
    (escapeChar c = [c] ∧ c ≠ '"' ∧ c ≠ '\\' ∧ ¬ c.toNat < 0x20) := by
  unfold escapeChar
  -- The tests are made in the order of the definition.
  split_ifs with quote backslash backspace formFeed newline carriage tab control
  · exact .inl ⟨_, rfl, by decide, by rw [quote]; rfl⟩
  · exact .inl ⟨_, rfl, by decide, by rw [backslash]; rfl⟩
  · exact .inl ⟨_, rfl, by decide, by rw [backspace]; rfl⟩
  · exact .inl ⟨_, rfl, by decide, by rw [formFeed]; rfl⟩
  · exact .inl ⟨_, rfl, by decide, by rw [newline]; rfl⟩
  · exact .inl ⟨_, rfl, by decide, by rw [carriage]; rfl⟩
  · exact .inl ⟨_, rfl, by decide, by rw [tab]; rfl⟩
  · exact .inr (.inl ⟨control, rfl⟩)
  · exact .inr (.inr ⟨rfl, quote, backslash, control⟩)

/-- The number of a control character is read back. -/
theorem readHex?_control : ∀ n < 0x20,
    Numeral.readHex? ['0', '0', Numeral.hexDigit (n / 16), Numeral.hexDigit (n % 16)] = some n := by
  decide

/-- A control character is not half of a pair. -/
theorem not_surrogate_of_control {n : Nat} (control : n < 0x20) :
    isHighSurrogate n = false ∧ isLowSurrogate n = false := by
  simp only [isHighSurrogate, isLowSurrogate, Bool.and_eq_false_iff, decide_eq_false_iff_not]
  omega

/-- An escaped character is read back, whatever follows it. -/
theorem unescape?_escapeChar {c : Char} {rest s : List Char} (tail : unescape? rest = some s) :
    unescape? (escapeChar c ++ rest) = some (c :: s) := by
  rcases escapeChar_cases c with ⟨e, form, notU, letter⟩ | ⟨control, form⟩ | ⟨form, -, notEscape, -⟩
  · rw [form]
    show unescape? ('\\' :: e :: rest) = _
    rw [unescape?, letter, tail]
    · rfl
    · intro a b c d after other
      exact absurd other notU
  · obtain ⟨high, low⟩ := not_surrogate_of_control control
    rw [form]
    show unescape? ('\\' :: 'u' :: '0' :: '0' :: _ :: _ :: rest) = _
    rw [unescape?, readHex?_control _ control]
    simp [high, low, tail]
  · rw [form]
    show unescape? (c :: rest) = _
    rw [unescape?, tail]
    · rfl
    · intro a b c' d after other
      exact absurd other notEscape
    · intro e after other
      exact absurd other notEscape

/-- An escaped text is read back. -/
theorem unescape?_escape (s : List Char) : unescape? (escape s) = some s := by
  induction s with
  | nil => rfl
  | cons c s ih =>
    show unescape? (escapeChar c ++ escape s) = _
    exact unescape?_escapeChar ih

/-- An escape does not end the string that it stands in. -/
theorem readString?_escapeChar {c : Char} {rest token after : List Char}
    (tail : readString? rest = some (token, after)) :
    readString? (escapeChar c ++ rest) = some (escapeChar c ++ token, after) := by
  rcases escapeChar_cases c with
    ⟨e, form, notU, letter⟩ | ⟨control, form⟩ | ⟨form, notQuote, notEscape, printable⟩
  · rw [form]
    show readString? ('\\' :: e :: rest) = _
    rw [readString?, letter, tail]
    · rfl
    · intro a b c d after other
      exact absurd other notU
  · rw [form]
    show readString? ('\\' :: 'u' :: '0' :: '0' :: _ :: _ :: rest) = _
    rw [readString?, readHex?_control _ control, tail]
    rfl
  · rw [form]
    show readString? (c :: rest) = _
    rw [readString?, if_neg (by simp [notEscape, printable]), tail]
    · rfl
    · exact notQuote
    · intro a b c' d after other
      exact absurd other notEscape
    · intro e after other
      exact absurd other notEscape

/-- An escaped text in quotes is read up to its closing quote. -/
theorem readString?_escape (s rest : List Char) :
    readString? (escape s ++ '"' :: rest) = some (escape s, rest) := by
  induction s with
  | nil => rfl
  | cons c s ih =>
    show readString? ((escapeChar c ++ escape s) ++ '"' :: rest) = some (escapeChar c ++ escape s, rest)
    rw [List.append_assoc]
    exact readString?_escapeChar ih

/-! ## Numbers -/

/-- A text with which no number goes on. -/
def EndsNumber (rest : List Char) : Prop :=
  ∀ c after, rest = c :: after → c.isDigit = false ∧ c ≠ '.' ∧ c ≠ 'e' ∧ c ≠ 'E'

/-- A numeral is made of digits. -/
theorem isDigit_of_mem_digits {n : Nat} {c : Char} (member : c ∈ Numeral.digits n) :
    c.isDigit = true := Nat.isDigit_of_mem_toDigits (by decide) (by decide) member

/-- Only the numeral of zero starts with a zero. -/
theorem digits_cons (n : Nat) :
    ∃ c cs, Numeral.digits n = c :: cs ∧ c.isDigit = true ∧ (c = '0' → n = 0) := by
  induction n using Nat.strongRecOn with
  | _ n ih =>
    by_cases short : n < 10
    · have form : Numeral.digits n = [Nat.digitChar n] := Nat.toDigits_of_lt_base short
      have zero : ∀ n < 10, Nat.digitChar n = '0' → n = 0 := by decide
      refine ⟨Nat.digitChar n, [], form, ?_, zero n short⟩
      exact isDigit_of_mem_digits (n := n) (by simp [form])
    · have form : Numeral.digits n = Numeral.digits (n / 10) ++ [Nat.digitChar (n % 10)] :=
        Nat.toDigits_of_base_le (by decide) (by omega)
      obtain ⟨c, cs, first, digit, zero⟩ := ih (n / 10) (by omega)
      refine ⟨c, cs ++ [Nat.digitChar (n % 10)], by rw [form, first]; rfl, digit, ?_⟩
      intro isZero
      have := zero isZero
      omega

/-- Digits are read until something else comes. -/
theorem readDigits?_digits {ds rest : List Char} (digits : ∀ c ∈ ds, c.isDigit = true)
    (nonempty : ds ≠ []) (stops : EndsNumber rest) : readDigits? (ds ++ rest) = some (ds, rest) := by
  have none : rest.takeWhile Char.isDigit = [] ∧ rest.dropWhile Char.isDigit = rest := by
    cases rest with
    | nil => exact ⟨rfl, rfl⟩
    | cons c after => simp [(stops c after rfl).1]
  have front : (ds ++ rest).takeWhile Char.isDigit = ds := by
    rw [List.takeWhile_append_of_pos digits, none.1, List.append_nil]
  have back : (ds ++ rest).dropWhile Char.isDigit = rest := by
    rw [List.dropWhile_append_of_pos digits, none.2]
  unfold readDigits?
  rw [front, back]
  cases ds with
  | nil => exact absurd rfl nonempty
  | cons c cs => rfl

/-- A numeral without sign is read until it cannot go on. -/
theorem readUnsignedNumber?_digits (n : Nat) {rest : List Char} (stops : EndsNumber rest) :
    readUnsignedNumber? (Numeral.digits n ++ rest) = some (Numeral.digits n, rest) := by
  have whole : readWhole? (Numeral.digits n ++ rest) = some (Numeral.digits n, rest) := by
    obtain ⟨c, cs, form, -, zero⟩ := digits_cons n
    by_cases isZero : c = '0'
    · rw [zero isZero]
      rfl
    · have digits := readDigits?_digits (fun _ => isDigit_of_mem_digits (n := n)) (by simp [form]) stops
      rw [form] at digits ⊢
      show readWhole? (c :: (cs ++ rest)) = _
      rw [readWhole?]
      · exact digits
      · intro after other
        exact absurd (List.cons.inj other).1 isZero
  have fraction : readFraction? rest = some ([], rest) := by
    unfold readFraction?
    split
    · exact absurd rfl (stops _ _ rfl).2.1
    · rfl
  have exponent : readExponent? rest = some ([], rest) := by
    cases rest with
    | nil => rfl
    | cons c after =>
      obtain ⟨-, -, small, capital⟩ := stops c after rfl
      simp [readExponent?, small, capital]
  unfold readUnsignedNumber?
  simp [whole, fraction, exponent]

/-- So is one that may have a sign. -/
theorem readNumber?_signedDigits (n : Int) {rest : List Char} (stops : EndsNumber rest) :
    readNumber? (Numeral.signedDigits n ++ rest) = some (Numeral.signedDigits n, rest) := by
  cases n with
  | ofNat n =>
    obtain ⟨c, cs, form, digit, -⟩ := digits_cons n
    show readNumber? (Numeral.digits n ++ rest) = some (Numeral.digits n, rest)
    have unsigned := readUnsignedNumber?_digits n stops
    rw [form] at unsigned ⊢
    show readNumber? (c :: (cs ++ rest)) = _
    rw [readNumber?]
    · exact unsigned
    · intro after other
      obtain ⟨rfl, -⟩ := List.cons.inj other
      cases digit
  | negSucc n =>
    show readNumber? ('-' :: (Numeral.digits (n + 1) ++ rest)) = _
    rw [readNumber?, readUnsignedNumber?_digits (n + 1) stops]
    rfl

/-! ## Values -/

/-- Values as programs write them: strings and keys are escaped, and numbers are integers. -/
inductive Written : Json → Prop
  | null : Written .null
  | bool (b : Bool) : Written (.bool b)
  | number (n : Int) : Written (ofInt n)
  | string (s : String) : Written (ofString s)
  | array {vs : List Json} (items : ∀ v ∈ vs, Written v) : Written (.array vs)
  | object {ms : List (List Char × Json)} (keys : ∀ m ∈ ms, ∃ k, m.1 = escape k)
      (values : ∀ m ∈ ms, Written m.2) : Written (.object ms)

/-- Numbers start with a digit or a minus. -/
theorem signedDigits_cons (n : Int) :
    ∃ c cs, Numeral.signedDigits n = c :: cs ∧ (c = '-' ∨ c.isDigit = true) := by
  cases n with
  | ofNat n =>
    obtain ⟨c, cs, form, digit, -⟩ := digits_cons n
    exact ⟨c, cs, form, .inr digit⟩
  | negSucc n => exact ⟨_, _, rfl, .inl rfl⟩

/-- A number does not start with a blank. -/
theorem not_blank_of_number {c : Char} (head : c = '-' ∨ c.isDigit = true) : isBlank c = false := by
  cases blank : isBlank c with
  | false => rfl
  | true =>
    simp only [isBlank, Bool.or_eq_true, beq_iff_eq] at blank
    rcases blank with ((rfl | rfl) | rfl) | rfl <;> exact absurd head (by decide)

/-- No value starts with a blank or a closing bracket. -/
theorem Written.render_cons {v : Json} (written : Written v) :
    ∃ c cs, v.render = c :: cs ∧ isBlank c = false ∧ c ≠ ']' := by
  cases written with
  | null => exact ⟨_, _, rfl, by decide, by decide⟩
  | bool b => cases b <;> exact ⟨_, _, rfl, by decide, by decide⟩
  | number n =>
    obtain ⟨c, cs, form, head⟩ := signedDigits_cons n
    refine ⟨c, cs, form, not_blank_of_number head, ?_⟩
    rintro rfl
    exact absurd head (by decide)
  | string s => exact ⟨_, _, rfl, by decide, by decide⟩
  | @array vs items => cases vs <;> exact ⟨_, _, rfl, by decide, by decide⟩
  | @object ms keys values => cases ms <;> exact ⟨_, _, rfl, by decide, by decide⟩

/-- Nothing is skipped in front of what is no blank. -/
theorem skipBlanks_cons {c : Char} {cs : List Char} (solid : isBlank c = false) :
    skipBlanks (c :: cs) = c :: cs := by
  simp [skipBlanks, solid]

/-- A number is the one value that may go on with what follows it. -/
def isNumber : Json → Bool
  | .number _ => true
  | _ => false

/-- A value is read back from the front of a text. -/
def Reads (v : Json) : Prop :=
  ∀ fuel rest, (v.isNumber = true → EndsNumber rest) → 3 * v.render.length ≤ fuel →
    readValue? fuel (v.render ++ rest) = some (v, rest)

theorem endsNumber_cons {c : Char} {after : List Char}
    (stop : c.isDigit = false ∧ c ≠ '.' ∧ c ≠ 'e' ∧ c ≠ 'E') : EndsNumber (c :: after) := by
  intro c' after' same
  obtain ⟨rfl, -⟩ := List.cons.inj same
  exact stop

/-- What starts with a digit or a minus is a number. -/
theorem readValue?_number {c : Char} {cs : List Char} (fuel : Nat) (head : c = '-' ∨ c.isDigit = true) :
    readValue? (fuel + 1) (c :: cs) = (readNumber? (c :: cs)).map fun (t, r) => (.number t, r) := by
  rw [readValue?, skipBlanks_cons (not_blank_of_number head)]
  split <;> first
    | rfl
    | -- The other values start otherwise.
      rename_i other
      obtain ⟨rfl, -⟩ := List.cons.inj other
      exact absurd head (by decide)

/-- Some of the bound is left for every value, since no text is empty. -/
theorem reads_of_succ {v : Json} (written : Written v)
    (step : ∀ fuel rest, (v.isNumber = true → EndsNumber rest) → 3 * v.render.length ≤ fuel + 1 →
      readValue? (fuel + 1) (v.render ++ rest) = some (v, rest)) : Reads v := by
  intro fuel rest stops enough
  cases fuel with
  | zero =>
    obtain ⟨c, cs, form, -⟩ := written.render_cons
    simp [form] at enough
  | succ fuel => exact step fuel rest stops enough

/-- A number is read back, if it cannot go on. -/
theorem reads_number (n : Int) : Reads (ofInt n) := by
  refine reads_of_succ (.number n) fun fuel rest stops _ => ?_
  obtain ⟨c, cs, form, head⟩ := signedDigits_cons n
  have number : readNumber? (c :: (cs ++ rest)) = some (c :: cs, rest) := by
    have number := readNumber?_signedDigits n (stops rfl)
    rw [form] at number
    exact number
  have value : ofInt n = .number (c :: cs) := by rw [ofInt, form]
  rw [value]
  show readValue? (fuel + 1) (c :: (cs ++ rest)) = _
  rw [readValue?_number fuel head, number]
  rfl

/-- Items are read one after the other, up to the bracket behind them. -/
theorem readItems?_render {v : Json} {vs : List Json} (all : ∀ w ∈ v :: vs, Reads w) (rest : List Char)
    {fuel : Nat} (enough : 3 * (v.render.length + (renderItems vs).length) ≤ fuel) :
    readItems? fuel (v.render ++ (renderItems vs ++ rest)) = some (v :: vs, rest) := by
  -- The induction is on the items behind the first one.
  induction vs generalizing v fuel with
  | nil =>
    cases fuel with
    | zero => simp [renderItems] at enough
    | succ fuel =>
      have first : readValue? fuel (v.render ++ (']' :: rest)) = some (v, ']' :: rest) :=
        all v List.mem_cons_self fuel _ (fun _ => endsNumber_cons (by decide))
          (by simp [renderItems] at enough; omega)
      show readItems? (fuel + 1) (v.render ++ (']' :: rest)) = _
      rw [readItems?, first]
      rfl
  | cons w vs ih =>
    cases fuel with
    | zero => simp [renderItems] at enough
    | succ fuel =>
      let after := w.render ++ (renderItems vs ++ rest)
      simp only [renderItems, List.length_cons, List.length_append] at enough
      have first : readValue? fuel (v.render ++ (',' :: after)) = some (v, ',' :: after) :=
        all v List.mem_cons_self fuel _ (fun _ => endsNumber_cons (by decide)) (by omega)
      have later : readItems? fuel after = some (w :: vs, rest) :=
        ih (fun w' member => all w' (List.mem_cons_of_mem _ member)) (by omega)
      have form : v.render ++ (renderItems (w :: vs) ++ rest) = v.render ++ (',' :: after) := by
        simp [renderItems, after]
      rw [form, readItems?, first]
      simp only [skipBlanks_cons (show isBlank ',' = false by decide), later]
      rfl

/-- A member is read back: its key, the colon and its value. -/
theorem readMember?_render {k : List Char} {v : Json} (key : ∃ s, k = escape s) (reads : Reads v)
    {rest : List Char} (stops : EndsNumber rest) {fuel : Nat} (enough : 3 * v.render.length < fuel) :
    readMember? fuel (renderMember (k, v) ++ rest) = some ((k, v), rest) := by
  obtain ⟨s, rfl⟩ := key
  cases fuel with
  | zero => omega
  | succ fuel =>
    have value : readValue? fuel (v.render ++ rest) = some (v, rest) :=
      reads fuel rest (fun _ => stops) (by omega)
    have form : renderMember (escape s, v) ++ rest =
        '"' :: (escape s ++ '"' :: ':' :: (v.render ++ rest)) := by
      simp [renderMember]
    rw [form, readMember?]
    simp only [skipBlanks_cons (show isBlank '"' = false by decide), readString?_escape,
      skipBlanks_cons (show isBlank ':' = false by decide), value]
    rfl

/-- Members are read one after the other, up to the brace behind them. -/
theorem readMembers?_render {m : List Char × Json} {ms : List (List Char × Json)}
    (keys : ∀ m' ∈ m :: ms, ∃ s, m'.1 = escape s) (all : ∀ m' ∈ m :: ms, Reads m'.2) (rest : List Char)
    {fuel : Nat} (enough : 3 * ((renderMember m).length + (renderMembers ms).length) ≤ fuel) :
    readMembers? fuel (renderMember m ++ (renderMembers ms ++ rest)) = some (m :: ms, rest) := by
  have shorter (m : List Char × Json) : m.2.render.length < (renderMember m).length := by
    obtain ⟨k, v⟩ := m
    simp [renderMember]
    omega
  -- The induction is on the members behind the first one.
  induction ms generalizing m fuel with
  | nil =>
    cases fuel with
    | zero => simp [renderMembers] at enough
    | succ fuel =>
      simp only [renderMembers, List.length_cons, List.length_nil] at enough
      have first : readMember? fuel (renderMember m ++ ('}' :: rest)) = some (m, '}' :: rest) :=
        readMember?_render (keys m List.mem_cons_self) (all m List.mem_cons_self)
          (endsNumber_cons (by decide)) (by have := shorter m; omega)
      show readMembers? (fuel + 1) (renderMember m ++ ('}' :: rest)) = _
      rw [readMembers?, first]
      rfl
  | cons n ms ih =>
    cases fuel with
    | zero => simp [renderMembers] at enough
    | succ fuel =>
      let after := renderMember n ++ (renderMembers ms ++ rest)
      simp only [renderMembers, List.length_cons, List.length_append] at enough
      have first : readMember? fuel (renderMember m ++ (',' :: after)) = some (m, ',' :: after) :=
        readMember?_render (keys m List.mem_cons_self) (all m List.mem_cons_self)
          (endsNumber_cons (by decide)) (by have := shorter m; omega)
      have later : readMembers? fuel after = some (n :: ms, rest) :=
        ih (fun m' member => keys m' (List.mem_cons_of_mem _ member))
          (fun m' member => all m' (List.mem_cons_of_mem _ member)) (by omega)
      have form : renderMember m ++ (renderMembers (n :: ms) ++ rest) =
          renderMember m ++ (',' :: after) := by
        simp [renderMembers, after]
      rw [form, readMembers?, first]
      simp only [skipBlanks_cons (show isBlank ',' = false by decide), later]
      rfl

/-- A bracket opens an array that is not empty, if it is not followed by the other bracket. -/
theorem readValue?_bracket {fuel : Nat} {c : Char} (cs : List Char) (solid : isBlank c = false)
    (notClosing : c ≠ ']') : readValue? (fuel + 1) ('[' :: c :: cs) =
      (readItems? fuel (c :: cs)).map fun read => (.array read.1, read.2) := by
  rw [readValue?, skipBlanks_cons (by decide)]
  simp only [skipBlanks_cons solid]
  split
  · rename_i other
    exact absurd (List.cons.inj other).1 notClosing
  · rfl

/-- A brace and a quote open an object that is not empty. -/
theorem readValue?_brace {fuel : Nat} (cs : List Char) : readValue? (fuel + 1) ('{' :: '"' :: cs) =
    (readMembers? fuel ('"' :: cs)).map fun read => (.object read.1, read.2) := by
  rw [readValue?, skipBlanks_cons (by decide)]
  simp only [skipBlanks_cons (show isBlank '"' = false by decide)]
  rfl

/-- **Round trip.** A written value is read back from the front of any text, provided that a number does
not go on with the text. -/
theorem Written.reads {v : Json} (written : Written v) : Reads v := by
  induction written with
  | null => exact reads_of_succ .null fun fuel rest _ _ => rfl
  | bool b =>
    refine reads_of_succ (.bool b) fun fuel rest _ _ => ?_
    cases b <;> rfl
  | number n => exact reads_number n
  | string s =>
    refine reads_of_succ (.string s) fun fuel rest _ _ => ?_
    have form : (ofString s).render ++ rest = '"' :: (escape s.toList ++ '"' :: rest) := by
      simp [ofString, render]
    rw [form, readValue?, skipBlanks_cons (by decide)]
    show (readString? (escape s.toList ++ '"' :: rest)).map _ = _
    rw [readString?_escape]
    rfl
  | @array vs items ih =>
    refine reads_of_succ (.array items) fun fuel rest _ enough => ?_
    cases vs with
    | nil => rfl
    | cons v vs =>
      simp only [render, List.length_cons, List.length_append] at enough
      have inner : readItems? fuel (v.render ++ (renderItems vs ++ rest)) = some (v :: vs, rest) :=
        readItems?_render ih rest (by omega)
      obtain ⟨c, cs, first, solid, notClosing⟩ := (items v List.mem_cons_self).render_cons
      rw [first] at inner
      have form : render (.array (v :: vs)) ++ rest = '[' :: c :: (cs ++ (renderItems vs ++ rest)) := by
        simp [render, first]
      rw [form, readValue?_bracket _ solid notClosing, ← List.cons_append, inner]
      rfl
  | @object ms keys values ih =>
    refine reads_of_succ (.object keys values) fun fuel rest _ enough => ?_
    cases ms with
    | nil => rfl
    | cons m ms =>
      simp only [render, List.length_cons, List.length_append] at enough
      have inner : readMembers? fuel (renderMember m ++ (renderMembers ms ++ rest)) =
          some (m :: ms, rest) := readMembers?_render keys ih rest (by omega)
      -- A member starts with its key.
      obtain ⟨cs, quoted⟩ : ∃ cs, renderMember m = '"' :: cs := by
        obtain ⟨k, v⟩ := m
        exact ⟨_, rfl⟩
      rw [quoted] at inner
      have form : render (.object (m :: ms)) ++ rest =
          '{' :: '"' :: (cs ++ (renderMembers ms ++ rest)) := by
        simp [render, quoted]
      rw [form, readValue?_brace, ← List.cons_append, inner]
      rfl

/-- A written value is read back, and what follows it is left. -/
theorem Written.readPrefix?_append {v : Json} (written : Written v) {rest : List Char}
    (stops : v.isNumber = true → EndsNumber rest) :
    readPrefix? (v.text.toList ++ rest) = some (v, rest) := by
  have long : 3 * v.render.length ≤ 3 * (v.render ++ rest).length + 3 := by simp; omega
  rw [text, String.toList_ofList]
  exact written.reads _ rest stops long

/-- A written value is read back from its text. -/
theorem Written.read?_text {v : Json} (written : Written v) : read? v.text = some v := by
  have whole : readPrefix? v.text.toList = some (v, []) := by
    have front : readPrefix? (v.text.toList ++ []) = some (v, []) :=
      written.readPrefix?_append fun _ => by simp [EndsNumber]
    rwa [List.append_nil] at front
  unfold read?
  rw [whole]
  rfl

theorem string?_ofString (s : String) : (ofString s).string? = some s := by
  simp [ofString, string?, unescape?_escape]

/-- The value of an integer token is the integer that it was made from. -/
theorem int?_ofInt (n : Int) : (ofInt n).int? = some n := by
  have value (n : Nat) : Numeral.value (Numeral.digits n) = n := Nat.ofDigitChars_ten_toDigits
  have digits (n : Nat) : (Numeral.digits n).all Char.isDigit = true :=
    List.all_eq_true.mpr fun _ => isDigit_of_mem_digits
  cases n with
  | ofNat n =>
    obtain ⟨c, cs, form, digit, -⟩ := digits_cons n
    have int : (number (Numeral.digits n)).int? = some (.ofNat n) := by
      have value := value n
      have digits := digits n
      rw [form] at value digits ⊢
      rw [int?, if_pos digits, value]
      · rfl
      · -- A digit is no minus.
        rintro ds other
        obtain ⟨rfl, -⟩ := List.cons.inj other
        cases digit
    exact int
  | negSucc n =>
    show (number ('-' :: Numeral.digits (n + 1))).int? = _
    rw [int?, value, if_pos ⟨digits _, Nat.succ_ne_zero n⟩]
    rfl

/-- Keys are read back from their escapes. -/
theorem plainKeys?_ofMembers (ms : List (String × Json)) :
    plainKeys? (ms.map fun m => (escape m.1.toList, m.2)) = some ms := by
  unfold plainKeys?
  induction ms with
  | nil => rfl
  | cons m ms ih => simp [unescape?_escape, ih]

/-- An object is written if the values of its members are. -/
theorem written_ofMembers {ms : List (String × Json)} (values : ∀ m ∈ ms, Written m.2) :
    Written (ofMembers ms) := by
  apply Written.object
  · intro m member
    obtain ⟨m', -, rfl⟩ := List.mem_map.mp member
    exact ⟨_, rfl⟩
  · intro m member
    obtain ⟨m', inside, rfl⟩ := List.mem_map.mp member
    exact values m' inside

/-! ## Lists and tables -/

variable {α : Type} {write : α → Json}

/-- A list of values is written well if its values are. -/
theorem written_ofList (written : ∀ x, (write x).Written) (xs : List α) :
    (ofList write xs).Written := by
  refine .array fun v member => ?_
  obtain ⟨x, -, rfl⟩ := List.mem_map.mp member
  exact written x

/-- A list of values is read back if its values are. -/
theorem list?_ofList {item : Json → Option α} (back : ∀ x, item (write x) = some x) (xs : List α) :
    list? item (ofList write xs) = some xs := by
  show (xs.map write).mapM item = some xs
  induction xs with
  | nil => rfl
  | cons x xs ih =>
    rw [List.map_cons, List.mapM_cons, back, ih]
    rfl

/-- A table, each value read by `value`. -/
def table? (value : Json → Option α) : Json → Option (List (String × α))
  | .object ms => do (← plainKeys? ms).mapM fun field => (value field.2).map (field.1, ·)
  | _ => none

/-- A table is written well if its values are. -/
theorem written_table (written : ∀ x, (write x).Written) (table : List (String × α)) :
    (ofMembers (table.map fun e => (e.1, write e.2))).Written := by
  refine written_ofMembers fun m member => ?_
  obtain ⟨e, -, rfl⟩ := List.mem_map.mp member
  exact written e.2

/-- A table is read back if its values are. -/
theorem table?_ofMembers {value : Json → Option α} (back : ∀ x, value (write x) = some x)
    (table : List (String × α)) :
    table? value (ofMembers (table.map fun e => (e.1, write e.2))) = some table := by
  show (plainKeys? ((table.map fun e => (e.1, write e.2)).map fun m => (escape m.1.toList, m.2)) >>=
    fun fields => fields.mapM fun field => (value field.2).map (field.1, ·)) = _
  rw [plainKeys?_ofMembers]
  show (table.map fun e => (e.1, write e.2)).mapM _ = some table
  induction table with
  | nil => rfl
  | cons e table ih =>
    rw [List.map_cons, List.mapM_cons, back, ih]
    rfl

end Json

/-! ## Literals of emitted code -/

theorem Id.written_toJson (id : Id) : id.toJson.Written := by
  cases id with
  | number n => exact .number (.ofNat n.toNat)
  | name s => exact .string s

/-- An id is read back, a number as a number and a name as a name. -/
theorem Id.ofJson?_toJson (id : Id) : ofJson? id.toJson = some id := by
  cases id with
  | number n =>
    have int : (Json.ofNat n.toNat).int? = some (.ofNat n.toNat) := Json.int?_ofInt n.toNat
    have bound : n.toNat < Numeral.bound64 := n.toNat_lt
    rw [Json.ofNat] at int
    simp only [toJson, Json.ofNat, ofJson?, int]
    rw [if_pos bound, UInt64.ofNat_toNat]
  | name s => exact congrArg (Option.map name) (Json.string?_ofString s)

namespace Literal

/-- Reads the literal of a string. -/
def readString? (literal : String) : Option String := (Json.read? literal).bind Json.string?

/-- Reads the literal of a table. -/
def readTable? {α : Type} (value : Json → Option α) (literal : String) : Option (List (String × α)) :=
  (Json.read? literal).bind (Json.table? value)

/-- Reads the literal of a table of strings. -/
def readStrings? (literal : String) : Option (List (String × String)) :=
  readTable? Json.string? literal

/-- Reads the literal of a table of lists of chunks. -/
def readIdLists? (literal : String) : Option (List (String × List ChunkId)) :=
  readTable? (Json.list? Id.ofJson?) literal

theorem readString?_string (s : String) : readString? (string s) = some s := by
  unfold readString? string
  rw [(Json.Written.string s).read?_text]
  exact Json.string?_ofString s

/-- A table is read back from its text. -/
theorem readTable?_ofMembers {α : Type} {write : α → Json} {value : Json → Option α}
    (written : ∀ a, (write a).Written) (back : ∀ a, value (write a) = some a)
    (table : List (String × α)) :
    readTable? value (Json.ofMembers (table.map fun e => (e.1, write e.2))).text = some table := by
  unfold readTable?
  rw [(Json.written_table written table).read?_text]
  exact Json.table?_ofMembers back table

theorem readStrings?_strings (table : List (String × String)) :
    readStrings? (strings table) = some table :=
  readTable?_ofMembers .string Json.string?_ofString table

/-- A table of lists of ids is read back from its text. -/
theorem readIdLists?_idLists (table : List (String × List ChunkId)) :
    readIdLists? (idLists table) = some table :=
  readTable?_ofMembers (Json.written_ofList Id.written_toJson) (Json.list?_ofList Id.ofJson?_toJson)
    table

end Literal

end ChunkLoading
