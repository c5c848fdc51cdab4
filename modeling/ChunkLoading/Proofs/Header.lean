import ChunkLoading.Proofs.Addresses
import ChunkLoading.Proofs.Literals
import Mathlib.Data.List.TakeWhile

/-!
# The header of emitted code

Emitted code is made of lines: the header comment, and then those of its sections. The header names the
chunk by its literal and the build by its hash. A literal keeps the line and paragraph separators of a
text, and the hash is written as it is, so that the header is one line only if neither has what ends a
line of a program (`firstLine_eq_headerLine_iff`).
-/

namespace ChunkLoading

/-! ## Lines -/

@[simp] theorem unlines_nil : unlines [] = "" := by simp [unlines]

@[simp] theorem unlines_cons (l : String) (ls : List String) :
    unlines (l :: ls) = l ++ "\n" ++ unlines ls := by simp [unlines]

@[simp] theorem unlines_append (ls ms : List String) : unlines (ls ++ ms) = unlines ls ++ unlines ms := by
  simp [unlines]

/-- Texts of lines with blank lines between them. -/
theorem unlines_intercalate (parts : List (List String)) :
    "\n".intercalate (parts.map unlines) = unlines ([""].intercalate parts) := by
  induction parts with
  | nil => simp
  | cons part parts ih =>
    cases parts with
    | nil => simp
    | cons next rest =>
      rw [List.map_cons, List.map_cons, String.intercalate_cons_cons, ← List.map_cons, ih,
        List.intercalate_cons_cons, unlines_append, unlines_append]
      simp [String.append_assoc]

namespace Graph

variable {config : Config} {g : Graph} {asked c : ChunkId}

/-- The lines of a runtime's sections, with blank lines between them, and its last line. -/
def sectionLines (ss : List Section) : List String :=
  [""].intercalate (ss.map Section.lines) ++ ["\x7d)();"]

/-- A runtime's text has the header and the line that opens it before the lines of its sections. -/
theorem runtimeText_eq (ss : List Section) :
    g.runtimeText c ss = unlines (g.headerLine c :: "(() => \x7b" :: sectionLines ss) := by
  have texts : ss.map Section.text = (ss.map Section.lines).map unlines := by
    rw [List.map_map]
    rfl
  rw [runtimeText, texts, unlines_intercalate, ← unlines_append, ← unlines_append, sectionLines]
  simp only [List.cons_append, List.nil_append]

/-- The lines of a section stand together in those of its runtime. -/
theorem infix_sectionLines {ss : List Section} {s : Section} (member : s ∈ ss) : s.lines <:+: sectionLines ss :=
  (infix_intercalate (List.mem_map_of_mem member)).trans (List.prefix_append _ _).isInfix

theorem line_mem_sectionLines {ss : List Section} {s : Section} {line : String} (member : s ∈ ss)
    (inside : line ∈ s.lines) : line ∈ sectionLines ss :=
  (infix_sectionLines member).subset inside

/-- Code that is not empty has a header, and then the lines of its sections. -/
theorem code_iff_merger {r : GeneratedRuntime} (emitted : g.generate config asked = .ok r) :
    r.code ≠ "" ↔ (g.featuresOf config r.chunk).merger = true := by
  constructor
  · intro nonempty
    -- Without a merger nothing is emitted.
    by_contra bare
    have code := (isRuntimeOf_of_generate emitted).2.code
    rw [if_neg bare] at code
    exact nonempty code
  · intro merger empty
    obtain ⟨ss, -, code⟩ := sections_of_generate emitted merger
    rw [code, runtimeText_eq, unlines_cons] at empty
    -- With one there is at least the line end behind the header.
    have header := (String.append_eq_empty_iff.mp (String.append_eq_empty_iff.mp empty).1).2
    exact absurd header (by decide)

end Graph

/-! ## What ends a line of a program -/

/-- The line and paragraph separators. -/
def isSeparator (c : Char) : Bool := c == '\u2028' || c == '\u2029'

/-- Whether a character ends a line of a program, and with it a comment that goes to the end of a line. -/
def endsLine (c : Char) : Bool := c == '\n' || c == '\r' || isSeparator c

/-- A program up to the end of its first line. -/
def firstLine (code : String) : List Char := code.toList.takeWhile (!endsLine ·)

/-- A text has nothing that ends a line. -/
def OneLine (s : List Char) : Prop := ∀ c ∈ s, endsLine c = false

theorem oneLine_iff_all {s : List Char} : OneLine s ↔ s.all (!endsLine ·) = true := by
  simp [OneLine]

@[simp] theorem oneLine_append {s t : List Char} : OneLine (s ++ t) ↔ OneLine s ∧ OneLine t := by
  simp [OneLine, or_imp, forall_and]

theorem oneLine_toList (s t : String) :
    OneLine (s ++ t).toList ↔ OneLine s.toList ∧ OneLine t.toList := by
  rw [String.toList_append, oneLine_append]

/-- A first line is all of what is put before a line end up to what ends a line there. -/
theorem firstLine_append (line rest : String) : firstLine (line ++ "\n" ++ rest) = firstLine line := by
  have code : (line ++ "\n" ++ rest).toList = line.toList ++ '\n' :: rest.toList := by simp
  unfold firstLine
  rw [code]
  induction line.toList with
  | nil => rfl
  | cons c cs ih =>
    rw [List.cons_append, List.takeWhile_cons, List.takeWhile_cons, ih]

/-- A text is its own first line if nothing in it ends a line. -/
theorem firstLine_eq_iff {line : String} : firstLine line = line.toList ↔ OneLine line.toList := by
  unfold firstLine
  constructor
  · intro whole c member
    rw [← whole] at member
    simpa using List.all_eq_true.mp List.all_takeWhile c member
  · intro oneLine
    exact List.takeWhile_eq_self_iff.mpr (by simpa [OneLine] using oneLine)

/-- The one-letter escapes and what they stand for. -/
theorem endsLine_unescapeLetter {e c : Char} (letter : Json.unescapeLetter? e = some c) :
    endsLine e = false ∧ isSeparator c = false := by
  unfold Json.unescapeLetter? at letter
  split at letter <;> cases letter <;> decide

/-- Hexadecimal digits end no line. -/
theorem endsLine_hexDigit : ∀ n < 16, endsLine (Numeral.hexDigit n) = false := by decide

/-- An escaped character ends no line, unless it is a separator, which is not escaped. -/
theorem oneLine_escapeChar (c : Char) : OneLine (Json.escapeChar c) ↔ isSeparator c = false := by
  rcases Json.escapeChar_cases c with ⟨e, form, -, letter⟩ | ⟨control, form⟩ | ⟨form, -, -, printable⟩
  · -- An escape of one letter, as for a line end.
    obtain ⟨goesOn, plain⟩ := endsLine_unescapeLetter letter
    rw [form]
    simp [OneLine, goesOn, plain, show endsLine '\\' = false by decide]
  · -- An escape by the number of a control character.
    have high := endsLine_hexDigit (c.toNat / 16) (by omega)
    have low := endsLine_hexDigit (c.toNat % 16) (by omega)
    have plain : isSeparator c = false := by
      simp only [isSeparator, Bool.or_eq_false_iff, beq_eq_false_iff_ne]
      constructor <;> rintro rfl <;> exact absurd control (by decide)
    rw [form]
    simp [OneLine, high, low, plain, show endsLine '\\' = false by decide,
      show endsLine 'u' = false by decide, show endsLine '0' = false by decide]
  · -- All others stand for themselves, and a line end is none of them.
    have other : c ≠ '\n' ∧ c ≠ '\r' := by
      constructor <;> rintro rfl <;> exact printable (by decide)
    rw [form]
    simp [OneLine, endsLine, other]

/-- An escaped text has nothing that ends a line, except that separators are not escaped. -/
theorem oneLine_escape (s : List Char) :
    OneLine (Json.escape s) ↔ ∀ c ∈ s, isSeparator c = false := by
  induction s with
  | nil => simp [OneLine, Json.escape]
  | cons c s ih =>
    show OneLine (Json.escapeChar c ++ Json.escape s) ↔ _
    rw [oneLine_append, oneLine_escapeChar, ih, List.forall_mem_cons]

theorem endsLine_of_isDigit {c : Char} (digit : c.isDigit = true) : endsLine c = false := by
  simp only [endsLine, isSeparator, Bool.or_eq_false_iff, beq_eq_false_iff_ne]
  refine ⟨⟨?_, ?_⟩, ?_, ?_⟩ <;> rintro rfl <;> cases digit

/-- Decimal digits end no line. -/
theorem oneLine_digits (n : Nat) : OneLine (Numeral.digits n) := by
  intro c member
  exact endsLine_of_isDigit (Json.isDigit_of_mem_digits member)

/-- A fingerprint is made of hexadecimal digits. -/
theorem oneLine_fingerprint (message : List UInt8) : OneLine (Sha256.fingerprint message).toList := by
  intro c member
  rw [Sha256.fingerprint, String.toList_ofList] at member
  obtain ⟨byte, -, digit⟩ := List.mem_flatMap.mp member
  have bound : byte.toNat < 256 := byte.toNat_lt
  simp only [Sha256.hexByte, List.mem_cons, List.not_mem_nil, or_false] at digit
  rcases digit with rfl | rfl
  · exact endsLine_hexDigit _ (by omega)
  · exact endsLine_hexDigit _ (by omega)

/-- The literal of an id has its separators and no other character that ends a line. -/
theorem Id.oneLine_literal (id : Id) :
    OneLine id.literal.toList ↔ ∀ c ∈ id.text.toList, isSeparator c = false := by
  cases id with
  | number n =>
    have literal : (Id.number n).literal.toList = Numeral.digits n.toNat := by
      simp [Id.literal, Id.toJson, Json.ofNat, Json.text, Json.render]
    have text : (Id.number n).text.toList = Numeral.digits n.toNat := by simp [Id.text]
    have digits := oneLine_digits n.toNat
    rw [literal, text]
    refine ⟨fun _ c member => ?_, fun _ => digits⟩
    have goesOn := digits c member
    simp only [endsLine, Bool.or_eq_false_iff] at goesOn
    exact goesOn.2
  | name s =>
    have literal : (Id.name s).literal.toList = ['"'] ++ (Json.escape s.toList ++ ['"']) := by
      simp [Id.literal, Id.toJson, Json.ofString, Json.text, Json.render]
    have quote : OneLine ['"'] := by simp [OneLine, show endsLine '"' = false by decide]
    rw [literal, oneLine_append, oneLine_append, oneLine_escape]
    exact ⟨fun all => all.2.1, fun plain => ⟨quote, plain, quote⟩⟩

/-! ## The header comment -/

namespace Graph

variable {config : Config} {g : Graph} {asked c : ChunkId}

/-- The hash of a build is made of hexadecimal digits, if it is not given. -/
theorem oneLine_fullHash :
    OneLine g.fullHash.toList ↔ ∀ hash, g.hash = some hash → OneLine hash.toList := by
  unfold fullHash
  cases given : g.hash with
  | none => simp [Sha256.fingerprintText, oneLine_fingerprint]
  | some hash => simp

/-- The header ends no line before its own end if neither the id nor a given hash does. -/
theorem oneLine_headerLine : OneLine (g.headerLine c).toList ↔
    (∀ ch ∈ c.text.toList, isSeparator ch = false) ∧
      ∀ hash, g.hash = some hash → OneLine hash.toList := by
  rw [← oneLine_fullHash, ← Id.oneLine_literal]
  have before : OneLine "// chunkwise runtime for chunk ".toList := oneLine_iff_all.mpr (by decide)
  have between : OneLine " (build ".toList := oneLine_iff_all.mpr (by decide)
  have after : OneLine ")".toList := oneLine_iff_all.mpr (by decide)
  unfold headerLine
  simp only [oneLine_toList, before, between, after, true_and, and_true]

/-- Code that is not empty has the header, and then the line that opens it. -/
theorem lines_of_generate {r : GeneratedRuntime} (emitted : g.generate config asked = .ok r)
    (nonempty : r.code ≠ "") :
    ∃ lines, r.code = unlines (g.headerLine r.chunk :: "(() => \x7b" :: lines) := by
  have merger := (code_iff_merger emitted).mp nonempty
  obtain ⟨ss, -, code⟩ := sections_of_generate emitted merger
  exact ⟨sectionLines ss, by rw [code, runtimeText_eq]⟩

/-- The first of several lines is followed by a line end. -/
theorem firstLine_unlines (line : String) (lines : List String) :
    firstLine (unlines (line :: lines)) = firstLine line := by
  rw [unlines_cons]
  exact firstLine_append _ _

/-- **Where the header ends.** Take a runtime that is emitted for a chunk of any graph, and is not empty.
Its code has the header comment, the line that opens it, and then further lines. The comment goes as far
as the header does without anything that ends a line. So it is the whole header exactly if the chunk's id
has no line or paragraph separator, and the build's hash, if it is given, has nothing that ends a line;
otherwise the rest of the header stands as code. -/
theorem firstLine_eq_headerLine_iff {r : GeneratedRuntime}
    (emitted : g.generate config asked = .ok r) (nonempty : r.code ≠ "") :
    (∃ lines, r.code = unlines (g.headerLine r.chunk :: "(() => \x7b" :: lines)) ∧
      firstLine r.code = firstLine (g.headerLine r.chunk) ∧
      (firstLine r.code = (g.headerLine r.chunk).toList ↔
        (∀ c ∈ r.chunk.text.toList, isSeparator c = false) ∧
          ∀ hash, g.hash = some hash → OneLine hash.toList) := by
  obtain ⟨lines, code⟩ := lines_of_generate emitted nonempty
  have first : firstLine r.code = firstLine (g.headerLine r.chunk) := by
    rw [code]
    exact firstLine_unlines _ _
  refine ⟨⟨lines, code⟩, first, ?_⟩
  rw [first, firstLine_eq_iff]
  exact oneLine_headerLine

end Graph

/-! ## Builds whose header is code -/

/-- A build of the given hash with a chunk of the given id, whose group may be loaded again. -/
def headedBuild (hash id : String) : Graph where
  hash := some hash
  chunks := [⟨.name id, none, [], none⟩]
  groups := [⟨"g", .entry, [.name id], ["g"], none, none, none⟩]
  blocks := []

theorem headedBuild_valid (hash id : String) : (headedBuild hash id).Valid where
  texts := by simp [headedBuild]
  groupIds := by simp [headedBuild]
  chunks := by simp [headedBuild]
  children := by simp [headedBuild]
  targets := by simp [headedBuild]

/-- What is emitted for a chunk that needs loading code is not empty. -/
theorem emitted_of_needs {config : Config} {g : Graph} {asked : ChunkId}
    (ok : (g.generate config asked).isOk = true) (own : g.resolve? asked.text = some asked)
    (needs : (g.requirementsOf asked).chunkLoadingCode = true) :
    ∃ r, g.generate config asked = .ok r ∧ r.chunk = asked ∧ r.code ≠ "" := by
  obtain ⟨r, emitted⟩ := isOk_iff.mp ok
  have chunk : r.chunk = asked :=
    (Option.some.inj (own.symm.trans (Graph.resolve_of_generate emitted))).symm
  refine ⟨r, emitted, chunk, (Graph.code_iff_merger emitted).mpr ?_⟩
  rw [chunk]
  simp [Graph.featuresOf, Features.of, Requirements.isEmpty, needs]

/-- Of a build whose hash has two lines, the second line is emitted as code. So is what follows a line
separator in the id of a chunk. -/
theorem header_split :
    Config.read "[project]\nname=\"my-app\"" = .ok .standard ∧
    ((headedBuild "0\nalert(1);//" "main").Valid ∧
      ∃ r lines, (headedBuild "0\nalert(1);//" "main").generate .standard (.name "main") = .ok r ∧
        r.code = unlines ("// chunkwise runtime for chunk \"main\" (build 0" :: "alert(1);//)" ::
          "(() => \x7b" :: lines)) ∧
    (headedBuild "0" "a\u2028alert(1);//").Valid ∧
      ∃ r, (headedBuild "0" "a\u2028alert(1);//").generate .standard (.name "a\u2028alert(1);//") =
          .ok r ∧
        r.code ≠ "" ∧ firstLine r.code = "// chunkwise runtime for chunk \"a".toList := by
  refine ⟨standard_read, ⟨headedBuild_valid .., ?_⟩, headedBuild_valid .., ?_⟩
  · -- The hash is given as it is, and the line end in it ends the comment.
    obtain ⟨r, emitted, chunk, nonempty⟩ : ∃ r,
        (headedBuild "0\nalert(1);//" "main").generate .standard (.name "main") = .ok r ∧
          r.chunk = .name "main" ∧ r.code ≠ "" :=
      emitted_of_needs (by decide +kernel) (by decide) (by decide)
    obtain ⟨lines, code⟩ := Graph.lines_of_generate emitted nonempty
    have header : (headedBuild "0\nalert(1);//" "main").headerLine (.name "main") =
        "// chunkwise runtime for chunk \"main\" (build 0" ++ "\n" ++ "alert(1);//)" := by
      decide
    refine ⟨r, lines, emitted, ?_⟩
    rw [code, chunk, header, unlines_cons, unlines_cons _ ("alert(1);//)" :: _),
      unlines_cons "alert(1);//)"]
    simp only [String.append_assoc]
  · -- The id is escaped, but its separator is not.
    obtain ⟨r, emitted, chunk, nonempty⟩ : ∃ r,
        (headedBuild "0" "a\u2028alert(1);//").generate .standard (.name "a\u2028alert(1);//") = .ok r ∧
          r.chunk = .name "a\u2028alert(1);//" ∧ r.code ≠ "" :=
      emitted_of_needs (by decide +kernel) (by decide) (by decide)
    obtain ⟨lines, code⟩ := Graph.lines_of_generate emitted nonempty
    refine ⟨r, emitted, nonempty, ?_⟩
    rw [code, chunk, Graph.firstLine_unlines]
    decide

theorem firstLine_eq_headerLine_main :
    ∃ r, (headedBuild "0" "main").generate .standard (.name "main") = .ok r ∧ r.code ≠ "" ∧
      firstLine r.code = "// chunkwise runtime for chunk \"main\" (build 0)".toList := by
  obtain ⟨r, emitted, chunk, nonempty⟩ : ∃ r,
      (headedBuild "0" "main").generate .standard (.name "main") = .ok r ∧
        r.chunk = .name "main" ∧ r.code ≠ "" :=
    emitted_of_needs (by decide +kernel) (by decide) (by decide)
  obtain ⟨-, -, header⟩ := Graph.firstLine_eq_headerLine_iff emitted nonempty
  refine ⟨r, emitted, nonempty, ?_⟩
  rw [header.mpr, chunk]
  · decide
  · rw [chunk]
    have plain : (Id.name "main").text.toList.all (!isSeparator ·) = true := by decide
    refine ⟨fun c member => by simpa using List.all_eq_true.mp plain c member, fun hash given => ?_⟩
    obtain rfl := Option.some.inj given
    exact oneLine_iff_all.mpr (by decide)

end ChunkLoading
