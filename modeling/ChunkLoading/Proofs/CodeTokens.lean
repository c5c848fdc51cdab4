import ChunkLoading.Proofs.Expressions
import ChunkLoading.Proofs.Quotation
import ChunkLoading.Text.Identifier

/-!
# Names in lines of code

A line of emitted code is cut into tokens: names with what is selected from them, comparison and assignment
signs, and brackets. What stands in string literals and comments is no token. `Helper` lists the names by which
the sections of a runtime use each other. Data that is written into a line, be it a literal or the expression
of an address, has no helpers but those that it is made with, and closes the brackets that it opens (`Yields`).
-/

namespace ChunkLoading

/-! ## Helpers -/

/-- What one section of a runtime gives to others. -/
inductive Helper where
  | handlers
  | loadScript
  | filename
  | publicPath
  | resourceOptions
  | installedChunks
  | hint
  | prefetchHints
  | preloadHints
  | preloadTable
  | deferEntries
  | hash
  | chunkAddress
  | manifestAddress
  | deliverChunk
  deriving DecidableEq

namespace Helper

def all : List Helper :=
  [handlers, loadScript, filename, publicPath, resourceOptions, installedChunks, hint, prefetchHints,
    preloadHints, preloadTable, deferEntries, hash, chunkAddress, manifestAddress, deliverChunk]

/-- The name of a helper in code. -/
def name : Helper → String
  | handlers => "__chunkwise_require__.f"
  | loadScript => "__chunkwise_require__.l"
  | filename => "__chunkwise_require__.u"
  | publicPath => "__chunkwise_require__.p"
  | resourceOptions => "resourceOptions"
  | installedChunks => "installedChunks"
  | hint => "hint"
  | prefetchHints => "__chunkwise_require__.F"
  | preloadHints => "__chunkwise_require__.H"
  | preloadTable => "chunkPreloads"
  | deferEntries => "__chunkwise_require__.O"
  | hash => "__chunkwise_require__.h"
  | chunkAddress => "__chunkwise_require__.hu"
  | manifestAddress => "__chunkwise_require__.hmrF"
  | deliverChunk => "deliverChunk"

/-- The characters of the name of a member of the function that runs modules. -/
def member (name : List Char) : List Char :=
  ['_', '_', 'c', 'h', 'u', 'n', 'k', 'w', 'i', 's', 'e', '_', 'r', 'e', 'q', 'u', 'i', 'r', 'e', '_', '_',
    '.'] ++ name

/-- The characters of a helper's name, written out so that lines are read without decoding it each time. -/
def path : Helper → List Char
  | handlers => member ['f']
  | loadScript => member ['l']
  | filename => member ['u']
  | publicPath => member ['p']
  | resourceOptions => ['r', 'e', 's', 'o', 'u', 'r', 'c', 'e', 'O', 'p', 't', 'i', 'o', 'n', 's']
  | installedChunks => ['i', 'n', 's', 't', 'a', 'l', 'l', 'e', 'd', 'C', 'h', 'u', 'n', 'k', 's']
  | hint => ['h', 'i', 'n', 't']
  | prefetchHints => member ['F']
  | preloadHints => member ['H']
  | preloadTable => ['c', 'h', 'u', 'n', 'k', 'P', 'r', 'e', 'l', 'o', 'a', 'd', 's']
  | deferEntries => member ['O']
  | hash => member ['h']
  | chunkAddress => member ['h', 'u']
  | manifestAddress => member ['h', 'm', 'r', 'F']
  | deliverChunk => ['d', 'e', 'l', 'i', 'v', 'e', 'r', 'C', 'h', 'u', 'n', 'k']

/-- The two tables agree. -/
theorem toList_name (h : Helper) : h.name.toList = h.path := by
  cases h <;> exact toList_of_chars rfl

/-- Whether a name is the given one, or selects something from it. -/
def selects : List Char → List Char → Bool
  | [], [] => true
  | [], c :: _ => c == '.'
  | _ :: _, [] => false
  | p :: ps, c :: cs => p == c && selects ps cs

/-- A name selects something from another one if it goes on behind it with a dot. -/
theorem selects_iff {p w : List Char} : selects p w = true ↔ w = p ∨ ∃ rest, w = p ++ '.' :: rest := by
  induction p generalizing w with
  | nil => cases w <;> simp [selects]
  | cons a p ih => cases w <;> simp [selects, ih, and_or_left, eq_comm (a := a)]

/-- The helper that has a name, or from which the name selects something. -/
def named? (w : List Char) : Option Helper := all.find? fun h => selects h.path w

end Helper

namespace Code

/-! ## Tokens -/

inductive Token where
  /-- A name and what is selected from it. -/
  | word (path : List Char)
  /-- A sign of assignment or comparison. -/
  | sign (cs : List Char)
  | opening
  | closing
  deriving DecidableEq

/-- The helper that a token refers to; the dots before a spread name do not count. -/
def Token.helper? : Token → Option Helper
  | .word w => Helper.named? (w.dropWhile (· == '.'))
  | _ => none

/-- What has been read up to some place of a line; characters of names and signs are kept in reverse. -/
inductive Mode where
  | code
  | word (soFar : List Char)
  | sign (soFar : List Char)
  | string
  | escape
  | slash
  | comment
  deriving DecidableEq

/-- The token that ends where the line does. -/
def Mode.pending : Mode → List Token
  | .word w => [.word w.reverse]
  | .sign s => [.sign s.reverse]
  | _ => []

def isPathStart (c : Char) : Bool := Identifier.isStart c || c == '.'

def isPathPart (c : Char) : Bool := Identifier.isPart c || c == '.'

def isSign (c : Char) : Bool := c == '=' || c == '!' || c == '<' || c == '>'

/-- Reads a character outside of names, signs, strings and comments. -/
def start (c : Char) : List Token × Mode :=
  if isPathStart c then ([], .word [c])
  else if isSign c then ([], .sign [c])
  else if c = '"' then ([], .string)
  else if c = '/' then ([], .slash)
  else if c = '(' ∨ c = '[' ∨ c = '{' then ([.opening], .code)
  else if c = ')' ∨ c = ']' ∨ c = '}' then ([.closing], .code)
  else ([], .code)

/-- Reads a character; the tokens are those that end before it or with it. -/
def next : Mode → Char → List Token × Mode
  | .code, c => start c
  | .word w, c =>
    if isPathPart c then ([], .word (c :: w)) else (.word w.reverse :: (start c).1, (start c).2)
  | .sign s, c => if isSign c then ([], .sign (c :: s)) else (.sign s.reverse :: (start c).1, (start c).2)
  | .string, c => ([], if c = '"' then .code else if c = '\\' then .escape else .string)
  | .escape, _ => ([], .string)
  | .slash, c => if c = '/' then ([], .comment) else start c
  | .comment, _ => ([], .comment)

/-- Reads characters. -/
def run : Mode → List Char → List Token × Mode
  | m, [] => ([], m)
  | m, c :: cs => ((next m c).1 ++ (run (next m c).2 cs).1, (run (next m c).2 cs).2)

/-- The tokens of the rest of a line. -/
def scan (m : Mode) (s : List Char) : List Token := (run m s).1 ++ (run m s).2.pending

/-- A line may be read in two parts: the second is read in the mode in which the first ends. -/
theorem run_append (m : Mode) (s t : List Char) :
    run m (s ++ t) = ((run m s).1 ++ (run (run m s).2 t).1, (run (run m s).2 t).2) := by
  induction s generalizing m with
  | nil => rfl
  | cons c s ih =>
    rw [List.cons_append]
    simp only [run, ih, List.append_assoc]

/-- So the tokens of a line are those of its parts, apart from one that is cut in two. -/
theorem scan_append (m : Mode) (s t : List Char) : scan m (s ++ t) = (run m s).1 ++ scan (run m s).2 t := by
  simp only [scan, run_append, List.append_assoc]

theorem scan_cons (m : Mode) (c : Char) (cs : List Char) :
    scan m (c :: cs) = (next m c).1 ++ scan (next m c).2 cs := by
  simp only [scan, run, List.append_assoc]

/-! ## Where names end -/

/-- With this text no name goes on. -/
def Breaks (rest : List Char) : Prop := ∀ c ∈ rest.head?, isPathPart c = false

theorem breaks_nil : Breaks [] := nofun

theorem breaks_cons {c : Char} {rest : List Char} : Breaks (c :: rest) ↔ isPathPart c = false := by
  simp [Breaks]

/-- Outside of strings and comments, or at the end of a name. -/
def Mode.isSettled : Mode → Bool
  | .code => true
  | .word _ => true
  | _ => false

/-- A token that is pending ends where no name goes on. -/
theorem scan_settled {m : Mode} {rest : List Char} (settled : m.isSettled = true) (breaks : Breaks rest) :
    scan m rest = m.pending ++ scan .code rest := by
  cases m with
  | code => rfl
  | word w =>
    cases rest with
    | nil => rfl
    | cons c rest => simp [scan, run, next, breaks_cons.mp breaks, Mode.pending]
  | sign _ | string | escape | slash | comment => cases settled

/-! ## Brackets and helpers of a part of a line -/

/-- How many more brackets are opened than closed. -/
def surplus (ts : List Token) : Int := ts.count .opening - ts.count .closing

/-- Brackets are counted part by part. -/
@[simp] theorem surplus_append (ts us : List Token) : surplus (ts ++ us) = surplus ts + surplus us := by
  simp only [surplus, List.count_append]
  omega

/-- Tokens that refer to no other helpers than the given ones. -/
def Within (allowed : List Helper) (ts : List Token) : Prop := ∀ t ∈ ts, ∀ h ∈ t.helper?, h ∈ allowed

instance (allowed : List Helper) (ts : List Token) : Decidable (Within allowed ts) :=
  inferInstanceAs (Decidable (∀ t ∈ ts, ∀ h ∈ t.helper?, h ∈ allowed))

/-- Tokens are within the allowed helpers if those that they refer to are. -/
theorem within_iff {allowed : List Helper} {ts : List Token} :
    Within allowed ts ↔ ts.filterMap Token.helper? ⊆ allowed := by
  simp only [Within, List.subset_def, List.mem_filterMap, Option.mem_def]
  exact ⟨fun all h ⟨t, member, refers⟩ => all t member h refers,
    fun all t member h refers => all ⟨t, member, refers⟩⟩

theorem within_append {allowed : List Helper} {ts us : List Token} :
    Within allowed (ts ++ us) ↔ Within allowed ts ∧ Within allowed us := List.forall_mem_append

theorem Within.mono {allowed allowed' : List Helper} {ts : List Token} (within : Within allowed ts)
    (more : allowed ⊆ allowed') : Within allowed' ts :=
  fun t member h refers => more (within t member h refers)

/-- What is read as a part of a line, if no name goes on behind it: it refers to no other helpers than the
given ones, and leaves `net` brackets open. -/
def Yields (allowed : List Helper) (net : Int) (s : List Char) : Prop :=
  ∃ ts, (∀ rest, Breaks rest → scan .code (s ++ rest) = ts ++ scan .code rest) ∧
    Within allowed ts ∧ surplus ts = net

namespace Yields

variable {allowed : List Helper} {j k : Int} {s t : List Char}

/-- A text whose tokens are known. -/
theorem of_run (settled : (run .code s).2.isSettled = true) (within : Within allowed (scan .code s))
    (net : surplus (scan .code s) = k) : Yields allowed k s := by
  refine ⟨scan .code s, fun rest breaks => ?_, within, net⟩
  rw [scan_append, scan_settled settled breaks, ← List.append_assoc]
  rfl

/-- A text behind one that ends outside of names and has no helpers. -/
theorem lead (ready : (run .code s).2 = .code) (plain : Within [] (run .code s).1)
    (net : surplus (run .code s).1 = j) (second : Yields allowed k t) : Yields allowed (j + k) (s ++ t) := by
  obtain ⟨us, read, inside, rfl⟩ := second
  have within : Within allowed (run .code s).1 := plain.mono (List.nil_subset _)
  refine ⟨(run .code s).1 ++ us, fun rest breaks => ?_, within_append.mpr ⟨within, inside⟩, ?_⟩
  · rw [List.append_assoc, scan_append, ready, read rest breaks, List.append_assoc]
  · rw [surplus_append, net]

/-- A text with which the names of another one end. -/
theorem append (first : Yields allowed j s) (second : Yields allowed k t)
    (ends : t.head?.any (!isPathPart ·) = true) : Yields allowed (j + k) (s ++ t) := by
  obtain ⟨ts, read, inside, rfl⟩ := first
  obtain ⟨us, later, behind, rfl⟩ := second
  refine ⟨ts ++ us, fun rest breaks => ?_, within_append.mpr ⟨inside, behind⟩, surplus_append ts us⟩
  have stops : Breaks (t ++ rest) := by
    cases t with
    | nil => cases ends
    | cons c t => simpa [breaks_cons] using ends
  rw [List.append_assoc, read _ stops, later rest breaks, List.append_assoc]

theorem mono {allowed' : List Helper} (yields : Yields allowed k s) (more : allowed ⊆ allowed') :
    Yields allowed' k s := by
  obtain ⟨ts, read, inside, net⟩ := yields
  exact ⟨ts, read, inside.mono more, net⟩

end Yields

/-! ## Literals -/

/-- Characters that are no part of any token. -/
theorem run_skipped {s : List Char} (skipped : ∀ c ∈ s, start c = ([], .code)) :
    run .code s = ([], .code) := by
  induction s with
  | nil => rfl
  | cons c s ih =>
    rw [List.forall_mem_cons] at skipped
    simp only [run, next, skipped.1, ih skipped.2, List.append_nil]

theorem start_digit {c : Char} (digit : c.isDigit = true) : start c = ([], .code) := by
  have decimal : ∀ n < 58, 48 ≤ n → start (Char.ofNat n) = ([], .code) := by decide
  simp only [Char.isDigit, Bool.and_eq_true, decide_eq_true_eq] at digit
  have low : 48 ≤ c.toNat := digit.1
  have high : c.toNat ≤ 57 := digit.2
  rw [← Char.ofNat_toNat c]
  exact decimal c.toNat (by omega) low

/-- A numeral has no tokens. -/
theorem run_signedDigits (n : Int) : run .code (Numeral.signedDigits n) = ([], .code) := by
  have digits (n : Nat) : ∀ c ∈ Numeral.digits n, start c = ([], .code) :=
    fun c member => start_digit (Json.isDigit_of_mem_digits member)
  refine run_skipped ?_
  cases n with
  | ofNat n => exact digits n
  | negSucc n => exact List.forall_mem_cons.mpr ⟨by decide, digits (n + 1)⟩

/-- An escaped character does not end a string. -/
theorem run_escapeChar (c : Char) : run .string (Json.escapeChar c) = ([], .string) := by
  rcases Json.escapeChar_cases c with ⟨e, form, -⟩ | ⟨control, form⟩ | ⟨form, quote, backslash, -⟩
  · rw [form]
    rfl
  · have digit : ∀ n < 16, next .string (Numeral.hexDigit n) = ([], .string) := by decide
    rw [form]
    show run .string [_, _] = _
    simp only [run, digit (c.toNat / 16) (by omega), digit (c.toNat % 16) (by omega), List.append_nil]
  · rw [form]
    simp [run, next, quote, backslash]

/-- Escaped text does not end the string literal that it stands in. -/
theorem run_escape (s : List Char) : run .string (Json.escape s) = ([], .string) := by
  induction s with
  | nil => rfl
  | cons c s ih =>
    show run .string (Json.escapeChar c ++ Json.escape s) = _
    rw [run_append, run_escapeChar, ih, List.append_nil]

/-- A string literal is no token. -/
theorem run_string (s : List Char) : run .code ('"' :: (Json.escape s ++ ['"'])) = ([], .code) := by
  show run .string (Json.escape s ++ ['"']) = _
  rw [run_append, run_escape]
  rfl

/-- The literal of an id has no tokens. -/
theorem run_id (id : Id) : run .code id.toJson.render = ([], .code) := by
  cases id with
  | number n => exact run_signedDigits (.ofNat n.toNat)
  | name s => exact run_string s.toList

theorem run_literal (id : Id) : run .code id.literal.toList = ([], .code) := by
  rw [Id.literal, Json.text, String.toList_ofList]
  exact run_id id

/-- Ids in a list have no tokens but the bracket that ends the list. -/
theorem run_items (ids : List Id) : run .code (Json.renderItems (ids.map Id.toJson)) = ([.closing], .code) := by
  induction ids with
  | nil => rfl
  | cons id ids ih =>
    show run .code ([','] ++ (id.toJson.render ++ Json.renderItems (ids.map Id.toJson))) = _
    rw [run_append, show run .code [','] = ([], .code) from rfl, run_append, run_id, ih]
    rfl

/-- Of a list of ids the brackets are left. -/
theorem run_ids (ids : List Id) : run .code (Literal.ids ids).toList = ([.opening, .closing], .code) := by
  rw [Literal.ids, Json.text, String.toList_ofList]
  cases ids with
  | nil => rfl
  | cons id ids =>
    show run .code (['['] ++ (id.toJson.render ++ Json.renderItems (ids.map Id.toJson))) = _
    rw [run_append, show run .code ['['] = ([.opening], .code) from rfl, run_append, run_id, run_items]
    rfl

namespace Yields

variable {allowed : List Helper} {k : Int} {s t : List Char}

/-- Data without tokens refers to no helper. -/
theorem of_silent (silent : run .code s = ([], .code)) : Yields allowed 0 s := by
  refine of_run ?_ ?_ ?_ <;> simp [scan, silent, Mode.isSettled, Mode.pending, Within, surplus]

theorem lead_silent (silent : run .code s = ([], .code)) (second : Yields allowed k t) :
    Yields allowed k (s ++ t) := by
  have both : Yields allowed (0 + k) (s ++ t) :=
    lead (by rw [silent]) (by simp [silent, Within]) (by simp [silent, surplus]) second
  rwa [Int.zero_add] at both

/-- A bracket that opens in front of other data leaves one more to be closed. -/
theorem lead_opening {c : Char} (opens : start c = ([.opening], .code)) (second : Yields allowed k t) :
    Yields allowed (1 + k) (c :: t) := by
  have read : run .code [c] = ([.opening], .code) := by simp [run, next, opens]
  exact lead (s := [c]) (by rw [read]) (by simp [read, Within, Token.helper?]) (by simp [read, surplus]) second

/-- A bracket that closes what was opened. -/
theorem closing {c : Char} (closes : start c = ([.closing], .code)) : Yields allowed (-1) [c] := by
  have read : run .code [c] = ([.closing], .code) := by simp [run, next, closes]
  refine of_run ?_ ?_ ?_ <;>
    simp [scan, read, Mode.isSettled, Mode.pending, Within, surplus, Token.helper?]

/-- A part of a list, and the rest of the list behind it. -/
theorem comma (part : Yields allowed 0 s) (rest : Yields allowed (-1) t)
    (ends : t.head?.any (!isPathPart ·) = true) : Yields allowed (-1) (',' :: (s ++ t)) :=
  lead_silent (s := [',']) (by decide) (part.append rest ends)

/-- The items of an array, and the bracket behind them. -/
theorem items {vs : List Json} (each : ∀ v ∈ vs, Yields allowed 0 v.render) :
    Yields allowed (-1) (Json.renderItems vs) := by
  induction vs with
  | nil => exact closing (by decide)
  | cons v vs ih =>
    rw [List.forall_mem_cons] at each
    exact comma each.1 (ih each.2) (by cases vs <;> rfl)

/-- A member of an object: its key is a string, and its value may be anything. -/
theorem member {m : List Char × Json} (key : ∃ k, m.1 = Json.escape k) (value : Yields allowed 0 m.2.render) :
    Yields allowed 0 (Json.renderMember m) := by
  obtain ⟨name, v⟩ := m
  obtain ⟨k, rfl⟩ : ∃ k, name = Json.escape k := key
  have form : Json.renderMember (Json.escape k, v) =
      '"' :: (Json.escape k ++ ['"']) ++ ([':'] ++ v.render) := by
    simp [Json.renderMember]
  rw [form]
  exact lead_silent (run_string k) (lead_silent (by decide) value)

/-- The members of an object, and the bracket behind them. -/
theorem members {ms : List (List Char × Json)} (each : ∀ m ∈ ms, Yields allowed 0 (Json.renderMember m)) :
    Yields allowed (-1) (Json.renderMembers ms) := by
  induction ms with
  | nil => exact closing (by decide)
  | cons m ms ih =>
    rw [List.forall_mem_cons] at each
    exact comma each.1 (ih each.2) (by cases ms <;> rfl)

/-- A value as programs write them refers to no helper and closes its brackets. -/
theorem json {v : Json} (written : v.Written) : Yields allowed 0 v.render := by
  -- An array and an object open a bracket, and their parts are followed by the one that closes it.
  induction written with
  | null =>
    -- A word of JSON is no helper's name.
    have plain : Yields [] 0 Json.null.render := of_run (by decide) (by decide +kernel) (by decide)
    exact plain.mono (List.nil_subset allowed)
  | bool b =>
    have plain : Yields [] 0 (Json.bool b).render := by
      cases b <;> exact of_run (by decide) (by decide +kernel) (by decide)
    exact plain.mono (List.nil_subset allowed)
  | number n => exact of_silent (run_signedDigits n)
  | string s => exact of_silent (run_string s.toList)
  | @array vs _ each =>
    cases vs with
    | nil => exact lead_opening (by decide) (closing (by decide))
    | cons v vs =>
      rw [List.forall_mem_cons] at each
      exact lead_opening (by decide) (each.1.append (items each.2) (by cases vs <;> rfl))
  | @object ms keys values each =>
    have parts : ∀ m ∈ ms, Yields allowed 0 (Json.renderMember m) :=
      fun m inside => member (keys m inside) (each m inside)
    cases ms with
    | nil => exact lead_opening (by decide) (closing (by decide))
    | cons m ms =>
      rw [List.forall_mem_cons] at parts
      exact lead_opening (by decide) (parts.1.append (members parts.2) (by cases ms <;> rfl))

/-! ## The data of a runtime -/

/-- Data that is written as JSON refers to no helper. -/
theorem literal {v : Json} (written : v.Written) : Yields allowed 0 v.text.toList := by
  rw [Json.text, String.toList_ofList]
  exact json written

theorem string (s : String) : Yields allowed 0 (Literal.string s).toList := literal (.string s)

theorem strings (table : List (String × String)) : Yields allowed 0 (Literal.strings table).toList :=
  literal (Json.written_table .string table)

theorem idLists (table : List (String × List ChunkId)) : Yields allowed 0 (Literal.idLists table).toList :=
  literal (Json.written_table (Json.written_ofList Id.written_toJson) table)

theorem entries (es : List DeferredEntry) : Yields allowed 0 (Literal.entries es).toList :=
  literal (Json.written_ofList DeferredEntry.written_toJson es)

theorem resources (settings : ResourceSettings) : Yields allowed 0 (Literal.resources settings).toList := by
  rw [settings.literal_eq]
  exact literal settings.written_members

/-- An operand of an expression refers to what its code refers to. -/
theorem operand {op : Template.Operand} (code : ∀ e, (op = .code e ∨ ∃ n, op = .slice e n) →
    Yields allowed 0 e.toList) : Yields allowed 0 op.text.toList := by
  cases op with
  | literal chars =>
    rw [Template.Operand.text, Json.text, String.toList_ofList]
    exact of_silent (run_string chars)
  | code e => exact code e (.inl rfl)
  | slice e n =>
    have limit : Yields allowed (-1) (Numeral.digits n ++ [')']) :=
      lead_silent (run_signedDigits (.ofNat n)) (closing (by decide))
    have front : ("String(" : String).toList = ['S', 't', 'r', 'i', 'n', 'g', '('] := toList_of_chars rfl
    have cut : (").slice(0, " : String).toList = [')', '.', 's', 'l', 'i', 'c', 'e', '(', '0', ',', ' '] :=
      toList_of_chars rfl
    have back : (")" : String).toList = [')'] := toList_of_chars rfl
    simp only [Template.Operand.text, String.toList_append, front, cut, back, String.toList_ofList,
      List.append_assoc]
    have behind := lead (by decide +kernel) (by decide +kernel) (by decide +kernel) limit
      (s := [')', '.', 's', 'l', 'i', 'c', 'e', '(', '0', ',', ' ']) (j := 0)
    exact lead (by decide +kernel) (by decide +kernel) (by decide +kernel)
      ((code e (.inr ⟨n, rfl⟩)).append behind rfl) (j := 1)

/-- A sum of operands refers to what they refer to. -/
theorem sum {texts : List String} (each : ∀ text ∈ texts, Yields allowed 0 text.toList) :
    Yields allowed 0 (" + ".intercalate texts).toList := by
  induction texts with
  | nil => exact of_silent rfl
  | cons text texts ih =>
    rw [List.forall_mem_cons] at each
    cases texts with
    | nil => simpa using each.1
    | cons next texts =>
      have sign : (" + " : String).toList = [' ', '+', ' '] := toList_of_chars rfl
      rw [String.intercalate_cons_cons, String.toList_append, String.toList_append, sign, List.append_assoc]
      exact each.1.append (lead_silent (by decide) (ih each.2)) rfl

/-- The expression of a template refers to what the code for its placeholders refers to. -/
theorem expression {t : Template} {expr : Placeholder → Option String} {e : String}
    (made : t.expression expr = .ok e) (code : ∀ p e, expr p = some e → Yields allowed 0 e.toList) :
    Yields allowed 0 e.toList := by
  have given : ∀ p, t.uses p = true → (expr p).isSome = true :=
    (Template.isOk_expression expr).mp (by rw [made]; rfl)
  rw [Template.expression_eq given] at made
  obtain rfl := Except.ok.inj made
  refine sum fun text member => ?_
  obtain ⟨op, inside, rfl⟩ := List.mem_map.mp member
  refine operand fun e kind => ?_
  rcases List.mem_append.mp inside with front | slot
  · -- What stands in front of the segments is a literal.
    have none : op = .literal [] := by
      unfold Template.front at front
      split at front <;> simp_all
    subst none
    rcases kind with kind | ⟨n, kind⟩ <;> cases kind
  · obtain ⟨segment, listed, rfl⟩ := List.mem_map.mp slot
    cases segment with
    | literal chars => rcases kind with kind | ⟨n, kind⟩ <;> cases kind
    | slot p limit =>
      obtain ⟨e', held⟩ := Option.isSome_iff_exists.mp (given p (Template.uses_iff.mpr ⟨limit, listed⟩))
      obtain rfl : e' = e := by
        cases limit <;> rcases kind with kind | ⟨n, kind⟩ <;>
          simp_all [Segment.operand, Template.Operand.ofLimit]
      exact code p e' held

end Yields

end Code

end ChunkLoading
