import ChunkLoading.Proofs.Expressions
import ChunkLoading.Proofs.Refusal

/-!
# Placeholders in the text of a template

A placeholder is an opening bracket, a name of word characters, perhaps a colon and decimal digits, and a
closing bracket. Wherever this stands in a text, and nowhere else, reading the text finds a placeholder; what
stands between placeholders is kept as it is (`Division`). Reading fails exactly if a name means no placeholder,
and reports the leftmost such name (`Template.parse_pattern`).
-/

namespace ChunkLoading

/-- The names that mean a placeholder. -/
def Placeholder.names : List String :=
  ["id", "name", "contenthash", "chunkhash", "fullhash", "hash", "runtime"]

theorem Placeholder.ofName?_eq_none {name : String} : ofName? name = none ↔ name ∉ names := by
  unfold ofName?
  split <;> simp_all [names]

namespace Template

/-! ## One placeholder -/

namespace Written

variable {v w : Written} {s : List Char}

/-- What is written after the opening bracket of a placeholder. -/
def inside (w : Written) : List Char :=
  w.name ++ ((if w.digits = [] then [] else ':' :: w.digits) ++ [']'])

/-- A placeholder as it is written. -/
def chars (w : Written) : List Char := '[' :: w.inside

/-- A placeholder has a name of word characters, and its digits are decimal digits. -/
structure Proper (w : Written) : Prop where
  named : w.name ≠ []
  word : ∀ c ∈ w.name, WordChar.isWord c = true
  decimal : ∀ c ∈ w.digits, DecimalDigit.isDecimal c = true

theorem length_inside : w.inside.length = w.length := by
  unfold inside length
  split
  · simp
  · simp
    omega

/-- A placeholder opens one bracket only. -/
theorem Proper.closed (proper : w.Proper) : ∀ c ∈ w.inside, c ≠ '[' := by
  rintro c member rfl
  have part : '[' ∈ w.name ∨ '[' ∈ w.digits := by
    unfold inside at member
    by_cases none : w.digits = [] <;> simp_all
  rcases part with name | digits
  · exact absurd (proper.word _ name) (by decide)
  · exact absurd (proper.decimal _ digits) (by decide)

/-- What is read after an opening bracket is a placeholder that stands there. -/
theorem of_read (read : read? s = some w) : w.Proper ∧ w.chars <+: '[' :: s := by
  unfold read? at read
  have whole := List.takeWhile_append_dropWhile (p := WordChar.isWord) (l := s)
  have word : ∀ c ∈ s.takeWhile WordChar.isWord, WordChar.isWord c = true :=
    List.all_eq_true.mp List.all_takeWhile
  split at read
  · cases read
  · next tail closed named =>
    obtain rfl : (⟨s.takeWhile WordChar.isWord, []⟩ : Written) = w := Option.some.inj read
    rw [closed] at whole
    refine ⟨⟨named, word, by simp⟩, tail, ?_⟩
    -- A name, and the closing bracket behind it.
    conv => rhs; rw [← whole]
    simp [chars, inside]
  · next rest colon named =>
    -- A name and a colon; digits have to follow, and then the closing bracket.
    have digits : ∀ c ∈ rest.takeWhile DecimalDigit.isDecimal, DecimalDigit.isDecimal c = true :=
      List.all_eq_true.mp List.all_takeWhile
    have later := List.takeWhile_append_dropWhile (p := DecimalDigit.isDecimal) (l := rest)
    split at read
    · cases read
    · next tail closed some =>
      obtain rfl : (⟨s.takeWhile WordChar.isWord, rest.takeWhile DecimalDigit.isDecimal⟩ : Written) = w :=
        Option.some.inj read
      rw [closed] at later
      rw [colon, ← later] at whole
      refine ⟨⟨named, word, digits⟩, tail, ?_⟩
      conv => rhs; rw [← whole]
      simp only [chars, inside, if_neg some, List.cons_append, List.append_assoc, List.nil_append]
    · cases read
  · cases read

/-- Each placeholder that stands after an opening bracket is read. -/
theorem read_of_proper (proper : w.Proper) (stands : w.chars <+: '[' :: s) : read? s = some w := by
  obtain ⟨tail, stands⟩ := stands
  obtain ⟨name, digits⟩ := w
  obtain ⟨named, word, decimal⟩ := proper
  dsimp only at named word decimal
  obtain ⟨first, name, rfl⟩ := List.exists_cons_of_ne_nil named
  cases digits with
  | nil =>
    -- Word characters end at the bracket, so all of the name is taken.
    have shape : first :: name ++ ']' :: tail = s := by simpa [chars, inside] using stands
    obtain ⟨before, after⟩ := span_of_all word (x := ']') (by decide) tail
    rw [shape] at before after
    unfold read?
    rw [before, after]
    rfl
  | cons digit digits =>
    -- They end at the colon, and the digits at the bracket.
    have shape : first :: name ++ ':' :: (digit :: digits ++ ']' :: tail) = s := by
      simpa [chars, inside] using stands
    obtain ⟨before, after⟩ := span_of_all word (x := ':') (by decide) (digit :: digits ++ ']' :: tail)
    obtain ⟨within, behind⟩ := span_of_all decimal (x := ']') (by decide) tail
    rw [shape] at before after
    unfold read?
    simp only [before, after, within, behind]

/-- **What is read after an opening bracket.** It is the placeholder that stands there. -/
theorem read_iff : read? s = some w ↔ w.Proper ∧ w.chars <+: '[' :: s :=
  ⟨of_read, fun ⟨proper, stands⟩ => read_of_proper proper stands⟩

end Written

/-! ## Where placeholders stand -/

variable {s : List Char} {v w : Written} {n : Nat}

/-- A placeholder stands in a text after its first `n` characters. -/
def StandsAt (s : List Char) (n : Nat) (w : Written) : Prop := w.Proper ∧ w.chars <+: s.drop n

theorem standsAt_succ {c : Char} : StandsAt (c :: s) (n + 1) w ↔ StandsAt s n w := Iff.rfl

/-- One placeholder stands at one place. -/
theorem StandsAt.unique (first : StandsAt s n v) (second : StandsAt s n w) : v = w := by
  obtain ⟨after, cut⟩ := first.2
  have opens : s.drop n = '[' :: (v.inside ++ after) := cut.symm
  have here : Written.read? (v.inside ++ after) = some v := Written.read_iff.mpr ⟨first.1, opens ▸ first.2⟩
  have there : Written.read? (v.inside ++ after) = some w := Written.read_iff.mpr ⟨second.1, opens ▸ second.2⟩
  exact Option.some.inj (here.symm.trans there)

/-- Behind a placeholder the places are those of the rest; none is inside it. -/
theorem standsAt_append (proper : w.Proper) :
    StandsAt (w.chars ++ s) n v ↔ n = 0 ∧ v = w ∨ ∃ m, n = w.chars.length + m ∧ StandsAt s m v := by
  have own : StandsAt (w.chars ++ s) 0 w := ⟨proper, List.prefix_append ..⟩
  constructor
  · intro stands
    cases n with
    | zero => exact .inl ⟨rfl, stands.unique own⟩
    | succ k =>
      have here : v.chars <+: (w.inside ++ s).drop k := stands.2
      rw [List.drop_append] at here
      cases rest : w.inside.drop k with
      | nil =>
        -- The place is past the placeholder.
        have past := List.drop_eq_nil_iff.mp rest
        rw [rest] at here
        refine .inr ⟨k - w.inside.length, ?_, stands.1, here⟩
        simp only [Written.chars, List.length_cons]
        omega
      | cons c cs =>
        -- A placeholder would open with a bracket.
        have member : c ∈ w.inside := List.mem_of_mem_drop (rest ▸ List.mem_cons_self)
        rw [rest] at here
        obtain ⟨after, here⟩ := here
        exact absurd (List.cons.inj here).1.symm (proper.closed c member)
  · rintro (⟨rfl, rfl⟩ | ⟨m, rfl, stands⟩)
    · exact own
    · refine ⟨stands.1, ?_⟩
      rw [List.drop_append, List.drop_eq_nil_of_le (by omega)]
      simpa using stands.2

/-! ## The marks of a text -/

/-- What stands at each place of a text: a placeholder, or else a character. -/
inductive Cut : List Char → List Mark → Prop
  | nil : Cut [] []
  | slot {w : Written} {s : List Char} {ms : List Mark} (proper : w.Proper) (rest : Cut s ms) :
      Cut (w.chars ++ s) (.slot w :: ms)
  | char {c : Char} {s : List Char} {ms : List Mark} (none : ∀ w, ¬ StandsAt (c :: s) 0 w)
      (rest : Cut s ms) : Cut (c :: s) (.char c :: ms)

/-- Skipping characters is reading what comes after them. -/
theorem marks_skip (n : Nat) (s : List Char) : marks n s = marks 0 (s.drop n) := by
  induction s generalizing n with
  | nil => simp [marks]
  | cons c s ih =>
    cases n with
    | zero => rfl
    | succ n => exact ih n

/-- The marks of a text say what stands at each of its places. -/
theorem cut_marks (s : List Char) : Cut s (marks 0 s) := by
  -- A placeholder is skipped as a whole, so the rest of the text is any shorter one.
  induction len : s.length using Nat.strongRecOn generalizing s with
  | ind len ih =>
    subst len
    cases s with
    | nil => exact .nil
    | cons c rest =>
      unfold marks
      split
      · next w read =>
        -- A placeholder is read, which stands here.
        obtain ⟨rfl, read⟩ : c = '[' ∧ Written.read? rest = some w := by simpa using read
        obtain ⟨proper, tail, stands⟩ := Written.of_read read
        obtain rfl : w.inside ++ tail = rest := (List.cons.inj stands).2
        rw [marks_skip, ← Written.length_inside, List.drop_left]
        refine .slot proper (ih _ ?_ tail rfl)
        simp only [List.length_cons, List.length_append]
        omega
      · next none =>
        -- Nothing is read, and whatever stood here would be.
        refine .char (fun w stands => ?_) (ih _ (by simp) rest rfl)
        obtain ⟨after, opens⟩ := stands.2
        obtain rfl : '[' = c := (List.cons.inj opens).1
        rw [if_pos rfl] at none
        have read := Written.read_of_proper stands.1 stands.2
        rw [none] at read
        cases read

/-! ## Pieces -/

/-- A piece of a text: a placeholder, or text between placeholders. -/
inductive Piece where
  | text (chars : List Char)
  | slot (w : Written)

namespace Piece

def chars : Piece → List Char
  | .text cs => cs
  | .slot w => w.chars

def isText : Piece → Bool
  | .text _ => true
  | .slot _ => false

/-- A character on its own, or a placeholder. -/
def ofMark : Mark → Piece
  | .char c => .text [c]
  | .slot w => .slot w

/-- Puts a piece in front; two texts become one. -/
def join : Piece → List Piece → List Piece
  | .text cs, .text ds :: rest => .text (cs ++ ds) :: rest
  | p, ps => p :: ps

end Piece

/-- A placeholder is one of the pieces, and those before it have `n` characters. -/
def StandsIn (pieces : List Piece) (n : Nat) (w : Written) : Prop :=
  ∃ before after, pieces = before ++ .slot w :: after ∧ (before.flatMap Piece.chars).length = n

variable {p : Piece} {ps qs : List Piece}

theorem standsIn_cons : StandsIn (p :: ps) n w ↔
    n = 0 ∧ p = .slot w ∨ ∃ m, n = p.chars.length + m ∧ StandsIn ps m w := by
  constructor
  · rintro ⟨before, after, same, rfl⟩
    cases before with
    | nil => exact .inl ⟨rfl, (List.cons.inj same).1⟩
    | cons q before =>
      obtain ⟨rfl, rest⟩ := List.cons.inj same
      refine .inr ⟨(before.flatMap Piece.chars).length, ?_, before, after, rest, rfl⟩
      rw [List.flatMap_cons, List.length_append]
  · rintro (⟨rfl, rfl⟩ | ⟨m, rfl, before, after, rfl, rfl⟩)
    · exact ⟨[], ps, rfl, rfl⟩
    · refine ⟨p :: before, after, rfl, ?_⟩
      rw [List.flatMap_cons, List.length_append]

/-- Joining two texts moves no placeholder. -/
theorem standsIn_join : StandsIn (p.join ps) n w ↔ StandsIn (p :: ps) n w := by
  unfold Piece.join
  split
  · next cs ds rest =>
    simp only [standsIn_cons, Piece.chars, List.length_append, reduceCtorEq, and_false, false_or]
    constructor
    · rintro ⟨m, rfl, stands⟩
      exact ⟨ds.length + m, by omega, m, rfl, stands⟩
    · rintro ⟨_, rfl, m, rfl, stands⟩
      exact ⟨m, by omega, stands⟩
  · rfl

/-- Joining two texts changes no character. -/
theorem chars_join : (p.join ps).flatMap Piece.chars = (p :: ps).flatMap Piece.chars := by
  unfold Piece.join
  split
  · simp [Piece.chars]
  · rfl

/-- The pieces of a text in their order: they are the whole text, the placeholders among them are those that
stand in it, no text is empty, and none comes next to another. -/
structure Division (s : List Char) (pieces : List Piece) : Prop where
  covers : pieces.flatMap Piece.chars = s
  placeholders : ∀ n w, StandsIn pieces n w ↔ StandsAt s n w
  filled : .text [] ∉ pieces
  apart : pieces.IsChain fun p q => p.isText = false ∨ q.isText = false

theorem Division.nil : Division [] [] where
  covers := rfl
  placeholders n w := by simp [StandsIn, StandsAt, Written.chars]
  filled := List.not_mem_nil
  apart := .nil

/-- A placeholder in front adds a piece. -/
theorem Division.slot (divided : Division s ps) (proper : w.Proper) :
    Division (w.chars ++ s) (.slot w :: ps) where
  covers := congrArg (w.chars ++ ·) divided.covers
  placeholders n v := by
    rw [standsIn_cons, standsAt_append proper]
    simp only [divided.placeholders, Piece.slot.injEq, eq_comm (a := w)]
    rfl
  filled := by simpa using divided.filled
  apart := by
    cases ps with
    | nil => exact .singleton _
    | cons q ps => exact List.isChain_cons_cons.mpr ⟨.inl rfl, divided.apart⟩

/-- A character in front belongs to the text that follows it, if text follows. -/
theorem Division.char {c : Char} (divided : Division s ps) (none : ∀ w, ¬ StandsAt (c :: s) 0 w) :
    Division (c :: s) ((Piece.text [c]).join ps) where
  covers := by
    rw [chars_join]
    exact congrArg (c :: ·) divided.covers
  placeholders n v := by
    rw [standsIn_join, standsIn_cons]
    simp only [divided.placeholders, reduceCtorEq, and_false, false_or]
    -- At the character itself nothing stands.
    cases n with
    | zero =>
      simp only [none, Piece.chars, List.length_singleton, iff_false]
      rintro ⟨m, same, -⟩
      omega
    | succ n => simp [standsAt_succ, Piece.chars, Nat.add_comm 1]
  filled := by
    have filled := divided.filled
    unfold Piece.join
    split <;> simp_all
  apart := by
    have apart := divided.apart
    cases ps with
    | nil => exact .singleton _
    | cons q rest =>
      -- Text in front of text is one text with it.
      cases q with
      | slot w => exact List.isChain_cons_cons.mpr ⟨.inr rfl, apart⟩
      | text ds =>
        cases rest with
        | nil => exact .singleton _
        | cons q rest => exact List.isChain_cons_cons.mpr (List.isChain_cons_cons.mp apart)

/-- The pieces of marks. -/
def pieces (ms : List Mark) : List Piece :=
  ms.foldr (fun m => (Piece.ofMark m).join) []

/-- The pieces that the marks are put together to divide the text. -/
theorem Cut.division {ms : List Mark} (cut : Cut s ms) : Division s (pieces ms) := by
  induction cut with
  | nil => exact .nil
  | slot proper rest ih => exact ih.slot proper
  | char none rest ih => exact ih.char none

/-! ## Segments -/

/-- The name of a placeholder means one. -/
def Written.Known (w : Written) : Prop := String.ofList w.name ∈ Placeholder.names

/-- A limit is the number that the digits of a placeholder write, if they are ASCII and it fits in 64 bits. -/
def Written.HasLimit (w : Written) (limit : Option Nat) : Prop :=
  ∀ n, limit = some n ↔
    w.digits ≠ [] ∧ (∀ c ∈ w.digits, c.isDigit = true) ∧ Numeral.value w.digits = n ∧ n < Numeral.bound64

/-- What is read as a limit is the number that the digits write. -/
theorem Written.hasLimit (w : Written) : w.HasLimit w.limit? := by
  intro n
  unfold limit? Numeral.readBelow?
  split
  · next read =>
    obtain ⟨some, ascii, below⟩ := read
    rw [Option.some.injEq]
    exact ⟨fun same => ⟨some, List.all_eq_true.mp ascii, same, same ▸ below⟩, fun whole => whole.2.2.1⟩
  · next none =>
    refine ⟨nofun, ?_⟩
    rintro ⟨some, ascii, rfl, below⟩
    exact absurd ⟨some, List.all_eq_true.mpr ascii, below⟩ none

/-- A segment says what a piece of the text means. -/
inductive Piece.Means : Piece → Segment → Prop
  | text (cs : List Char) : Means (.text cs) (.literal cs)
  | slot {w : Written} {p : Placeholder} {limit : Option Nat}
      (name : Placeholder.ofName? (String.ofList w.name) = some p) (limited : w.HasLimit limit) :
      Means (.slot w) (.slot p limit)

theorem segment_known {source : String} {q : Placeholder}
    (name : Placeholder.ofName? (String.ofList w.name) = some q) :
    segment? source (.slot w) = .ok (.slot q w.limit?) := by
  simp only [segment?, name]

theorem segment_unknown {source : String} (unknown : ¬ w.Known) :
    segment? source (.slot w) = .error (.unknownPlaceholder (String.ofList w.name) source) := by
  simp only [segment?, Placeholder.ofName?_eq_none.mpr unknown]

theorem Written.Known.meaning (known : w.Known) :
    ∃ q, Placeholder.ofName? (String.ofList w.name) = some q :=
  Option.ne_none_iff_exists'.mp fun none => Placeholder.ofName?_eq_none.mp none known

/-- A mark is read as what it means. -/
theorem means_of_segment {source : String} {m : Mark} {seg : Segment}
    (read : segment? source m = .ok seg) : (Piece.ofMark m).Means seg := by
  cases m with
  | char c =>
    obtain rfl : .literal [c] = seg := Except.ok.inj read
    exact .text [c]
  | slot w =>
    by_cases known : w.Known
    · obtain ⟨q, name⟩ := known.meaning
      rw [segment_known name] at read
      obtain rfl : .slot q w.limit? = seg := Except.ok.inj read
      exact .slot name w.hasLimit
    · rw [segment_unknown known] at read
      cases read

/-- Pieces are put together as segments are. -/
theorem means_join {seg : Segment} {segs : List Segment} (first : p.Means seg)
    (rest : List.Forall₂ Piece.Means ps segs) : List.Forall₂ Piece.Means (p.join ps) (cons seg segs) := by
  cases first with
  | slot name limited => exact .cons (.slot name limited) rest
  | text cs =>
    cases rest with
    | nil => exact .cons (.text cs) .nil
    | cons second rest =>
      cases second with
      | text ds => exact .cons (.text (cs ++ ds)) rest
      | slot name limited => exact .cons (.text cs) (.cons (.slot name limited) rest)

/-- Marks that are read one by one are read as the pieces that they make up. -/
theorem means_pieces {ms : List Mark} {segs : List Segment}
    (each : List.Forall₂ (fun m seg => (Piece.ofMark m).Means seg) ms segs) :
    List.Forall₂ Piece.Means (pieces ms) (segs.foldr cons []) := by
  induction each with
  | nil => exact .nil
  | cons first _ ih => exact means_join first ih

/-! ## The leftmost name that means nothing -/

/-- The placeholder that stands at `n` has a name that means nothing, and no placeholder before it has. -/
structure LeftmostUnknown (s : List Char) (n : Nat) (w : Written) : Prop where
  stands : StandsAt s n w
  unknown : ¬ w.Known
  before : ∀ m v, StandsAt s m v → m < n → v.Known

/-- There is one leftmost name that means nothing, if there is any. -/
theorem LeftmostUnknown.unique {m : Nat} (first : LeftmostUnknown s m v) (second : LeftmostUnknown s n w) :
    v = w := by
  obtain less | rfl | more := Nat.lt_trichotomy m n
  · exact absurd (second.before m v first.stands less) first.unknown
  · exact first.stands.unique second.stands
  · exact absurd (first.before n w second.stands more) second.unknown

/-- A placeholder that means something may stand in front of the leftmost one that does not. -/
theorem LeftmostUnknown.behind_slot (leftmost : LeftmostUnknown s n v) (proper : w.Proper)
    (known : w.Known) : LeftmostUnknown (w.chars ++ s) (w.chars.length + n) v where
  stands := (standsAt_append proper).mpr (.inr ⟨n, rfl, leftmost.stands⟩)
  unknown := leftmost.unknown
  before m u stands less := by
    rcases (standsAt_append proper).mp stands with ⟨-, rfl⟩ | ⟨k, rfl, later⟩
    · exact known
    · exact leftmost.before k u later (by omega)

/-- So may a character at which no placeholder stands. -/
theorem LeftmostUnknown.behind_char {c : Char} (leftmost : LeftmostUnknown s n v)
    (none : ∀ w, ¬ StandsAt (c :: s) 0 w) : LeftmostUnknown (c :: s) (n + 1) v where
  stands := standsAt_succ.mpr leftmost.stands
  unknown := leftmost.unknown
  before m u stands less := by
    cases m with
    | zero => exact absurd stands (none u)
    | succ k => exact leftmost.before k u (standsAt_succ.mp stands) (by omega)

/-- Marks are read unless a name means nothing; then the leftmost such name is the error. -/
theorem Cut.read {ms : List Mark} (cut : Cut s ms) (source : String) :
    (∃ segs, ms.mapM (segment? source) = .ok segs ∧ ∀ n w, StandsAt s n w → w.Known) ∨
      ∃ n w, LeftmostUnknown s n w ∧
        ms.mapM (segment? source) = .error (.unknownPlaceholder (String.ofList w.name) source) := by
  induction cut with
  | nil => exact .inl ⟨[], rfl, fun n w stands => by simp [StandsAt, Written.chars] at stands⟩
  | @slot w s ms proper rest ih =>
    by_cases known : w.Known
    · -- This one means something, so the rest decides.
      obtain ⟨q, name⟩ := known.meaning
      rw [List.mapM_cons, segment_known name]
      rcases ih with ⟨segs, read, all⟩ | ⟨n, v, leftmost, failed⟩
      · refine .inl ⟨_, by rw [read]; rfl, fun n v stands => ?_⟩
        rcases (standsAt_append proper).mp stands with ⟨-, rfl⟩ | ⟨m, -, stands⟩
        · exact known
        · exact all m v stands
      · exact .inr ⟨_, v, leftmost.behind_slot proper known, by rw [failed]; rfl⟩
    · -- This one is the leftmost.
      refine .inr ⟨0, w, ⟨(standsAt_append proper).mpr (.inl ⟨rfl, rfl⟩), known, nofun⟩, ?_⟩
      rw [List.mapM_cons, segment_unknown known]
      rfl
  | @char c s ms none rest ih =>
    rw [List.mapM_cons, show segment? source (.char c) = .ok (.literal [c]) from rfl]
    rcases ih with ⟨segs, read, all⟩ | ⟨n, v, leftmost, failed⟩
    · refine .inl ⟨_, by rw [read]; rfl, fun n v stands => ?_⟩
      cases n with
      | zero => exact absurd stands (none v)
      | succ m => exact all m v (standsAt_succ.mp stands)
    · exact .inr ⟨_, v, leftmost.behind_char none, by rw [failed]; rfl⟩

/-! ## Reading a template -/

/-- A text is read unless a name means nothing; then the leftmost such name is the error. -/
theorem parse_or (source : String) :
    (∃ t, parse source = .ok t ∧ ∀ n w, StandsAt source.toList n w → w.Known) ∨
      ∃ n w, LeftmostUnknown source.toList n w ∧
        parse source = .error (.unknownPlaceholder (String.ofList w.name) source) := by
  unfold parse
  rcases (cut_marks source.toList).read source with ⟨segs, read, all⟩ | ⟨n, w, leftmost, failed⟩
  · exact .inl ⟨_, by rw [read]; rfl, all⟩
  · exact .inr ⟨n, w, leftmost, by rw [failed]; rfl⟩

/-- The error of a text that is not read names the leftmost name that means nothing. -/
theorem parse_error_iff {source : String} {e : TemplateError} : parse source = .error e ↔
    ∃ n w, LeftmostUnknown source.toList n w ∧
      e = .unknownPlaceholder (String.ofList w.name) source := by
  constructor
  · intro failed
    rcases parse_or source with ⟨t, read, -⟩ | ⟨n, w, leftmost, error⟩
    · rw [failed] at read
      cases read
    · rw [failed] at error
      exact ⟨n, w, leftmost, Except.error.inj error⟩
  · rintro ⟨n, w, leftmost, rfl⟩
    rcases parse_or source with ⟨t, -, all⟩ | ⟨m, v, other, error⟩
    · exact absurd (all n w leftmost.stands) leftmost.unknown
    · rw [error, other.unique leftmost]

variable {source : String} {t : Template}

/-- The segments of a template are what the pieces of its text mean. -/
theorem division_of_parse (read : parse source = .ok t) :
    ∃ ps, Division source.toList ps ∧ List.Forall₂ Piece.Means ps t.segments := by
  unfold parse at read
  obtain ⟨segs, all, made⟩ := bind_ok.mp read
  obtain rfl := Except.ok.inj made
  refine ⟨_, (cut_marks source.toList).division, means_pieces ?_⟩
  exact (mapM_ok_iff.mp all).imp fun _ _ => means_of_segment

/-! ## Using a template -/

variable {value : Placeholder → Option String}

/-- All placeholders have values, or one of them is the leftmost that has none. -/
theorem given_or (t : Template) (value : Placeholder → Option String) :
    (∀ p, t.uses p = true → (value p).isSome = true) ∨
      ∃ p, t.placeholders.find? (fun q => !(value q).isSome) = some p := by
  cases first : t.placeholders.find? (fun q => !(value q).isSome) with
  | some p => exact .inr ⟨p, rfl⟩
  | none =>
    refine .inl fun p used => ?_
    simpa [Option.isSome_iff_ne_none] using List.find?_eq_none.mp first p (mem_placeholders.mpr used)

/-- A template is filled in if each of its placeholders has a value. -/
theorem render_ok_iff {text : String} : t.render value = .ok text ↔
    (∀ p, t.uses p = true → (value p).isSome = true) ∧
      text = String.ofList (t.segments.flatMap (Segment.part value)) := by
  rcases given_or t value with given | ⟨p, first⟩
  · rw [render_eq given, Except.ok.injEq]
    exact ⟨fun same => ⟨given, same.symm⟩, fun same => same.2.symm⟩
  · refine ⟨fun made => ?_, fun given => ?_⟩
    · rw [render_error first] at made
      cases made
    · have made := render_eq given.1
      rw [render_error first] at made
      cases made

/-- The error of a template that is not filled in names the leftmost placeholder without a value. -/
theorem render_error_iff {e : TemplateError} : t.render value = .error e ↔
    ∃ p, t.placeholders.find? (fun q => !(value q).isSome) = some p ∧ e = .unresolved p t.source := by
  constructor
  · intro failed
    rcases given_or t value with given | ⟨p, first⟩
    · rw [render_eq given] at failed
      cases failed
    · rw [render_error first] at failed
      exact ⟨p, first, (Except.error.inj failed).symm⟩
  · rintro ⟨p, first, rfl⟩
    exact render_error first

/-- **What a template is read as.** Take any text. At most one placeholder stands at each place of it. Reading
fails exactly if some placeholder that stands in it has a name that means none, and the error names the leftmost
of these. Otherwise the segments say, in their order, what the pieces of a division of the text mean: the pieces
are the whole text, the placeholders among them are exactly those that stand in it, each at its place, no text
between them is empty or next to another, and a placeholder has a limit exactly if its digits are ASCII and
write a number of 64 bits. Rendering keeps the text and puts the front of each placeholder's value in its
place; it fails exactly if a placeholder has no value, and the error names the leftmost of these. -/
theorem parse_pattern (source : String) :
    (∀ n v w, StandsAt source.toList n v → StandsAt source.toList n w → v = w) ∧
    ((∃ e, parse source = .error e) ↔ ∃ n w, StandsAt source.toList n w ∧ ¬ w.Known) ∧
    (∀ e, parse source = .error e ↔ ∃ n w, LeftmostUnknown source.toList n w ∧
      e = .unknownPlaceholder (String.ofList w.name) source) ∧
    ∀ t, parse source = .ok t →
      (∃ ps, Division source.toList ps ∧ List.Forall₂ Piece.Means ps t.segments) ∧
      ∀ value,
        (∀ text, t.render value = .ok text ↔
          (∀ p, t.uses p = true → (value p).isSome = true) ∧
            text = String.ofList (t.segments.flatMap (Segment.part value))) ∧
        ∀ e, t.render value = .error e ↔
          ∃ p, t.placeholders.find? (fun q => !(value q).isSome) = some p ∧ e = .unresolved p source := by
  refine ⟨fun n v w => StandsAt.unique, ?_, fun e => parse_error_iff, fun t read => ⟨division_of_parse read,
    fun value => ⟨fun text => render_ok_iff, fun e => ?_⟩⟩⟩
  · constructor
    · rintro ⟨e, failed⟩
      obtain ⟨n, w, leftmost, -⟩ := parse_error_iff.mp failed
      exact ⟨n, w, leftmost.stands, leftmost.unknown⟩
    · -- Some name means nothing, so there is a leftmost one.
      rintro ⟨n, w, stands, unknown⟩
      rcases parse_or source with ⟨-, -, all⟩ | ⟨-, v, -, failed⟩
      · exact absurd (all n w stands) unknown
      · exact ⟨_, failed⟩
  · rw [← source_of_parse read]
    exact render_error_iff

/-- A bracket that opens no placeholder is text, and a placeholder may stand right behind it; of two names that
mean nothing the first is reported. -/
theorem pattern_nested : (∃ t ps, parse "[a[id:08]]" = .ok t ∧ Division "[a[id:08]]".toList ps ∧
      List.Forall₂ Piece.Means ps [.literal ['[', 'a'], .slot .id (some 8), .literal [']']] ∧
      t.render (fun _ => some "lazy-chunk") = .ok "[alazy-chu]") ∧
    ∃ n w, LeftmostUnknown "[id].[banana].[x]".toList n w ∧ w.name = "banana".toList := by
  constructor
  · have read : parse "[a[id:08]]" =
        .ok ⟨"[a[id:08]]", [.literal ['[', 'a'], .slot .id (some 8), .literal [']']]⟩ := by decide +kernel
    obtain ⟨-, -, -, ok⟩ := parse_pattern "[a[id:08]]"
    obtain ⟨⟨ps, divided, means⟩, render⟩ := ok _ read
    exact ⟨_, ps, read, divided, means, ((render _).1 _).mpr ⟨fun _ _ => rfl, by decide +kernel⟩⟩
  · obtain ⟨-, -, failed, -⟩ := parse_pattern "[id].[banana].[x]"
    obtain ⟨n, w, leftmost, same⟩ :=
      (failed (.unknownPlaceholder "banana" "[id].[banana].[x]")).mp (by decide +kernel)
    have name : "banana" = String.ofList w.name := (TemplateError.unknownPlaceholder.inj same).1
    exact ⟨n, w, leftmost, by rw [name, String.toList_ofList]⟩

end Template

end ChunkLoading
