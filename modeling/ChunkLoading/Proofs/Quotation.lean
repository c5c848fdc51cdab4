import ChunkLoading.Proofs.Preloads
import ChunkLoading.Proofs.Records

/-!
# Data in emitted code

All data stands in emitted code as literals: JSON texts without control characters. Whatever stands behind
the literal of a string, reading one value gives the string and leaves what stands behind
(`Literal.read_string_append`). The same holds of the tables and lists in a runtime's code, so that each
is read back from the code as what it was made from (`Graph.data_read_back`).
-/

namespace ChunkLoading

/-! ## Literals without control characters -/

/-- A text has no control characters. -/
def Printable (s : List Char) : Prop := ∀ c ∈ s, ¬ c.toNat < 0x20

@[simp] theorem printable_nil : Printable [] := by simp [Printable]

@[simp] theorem printable_append {s t : List Char} :
    Printable (s ++ t) ↔ Printable s ∧ Printable t := by
  simp [Printable, or_imp, forall_and]

@[simp] theorem printable_cons {c : Char} {s : List Char} :
    Printable (c :: s) ↔ ¬ c.toNat < 0x20 ∧ Printable s := by
  simp [Printable]

namespace Json

/-- An escape is made of printable characters, and a character that needs none is printable itself. -/
theorem printable_escapeChar (c : Char) : Printable (escapeChar c) := by
  rcases escapeChar_cases c with ⟨e, form, -, letter⟩ | ⟨control, form⟩ | ⟨form, -, -, printable⟩
  · have visible : ¬ e.toNat < 0x20 := by
      unfold unescapeLetter? at letter
      split at letter <;> cases letter <;> decide
    rw [form]
    simp [visible]
  · have digit : ∀ n < 16, ¬ (Numeral.hexDigit n).toNat < 0x20 := by decide
    rw [form]
    simp [digit (c.toNat / 16) (by omega), digit (c.toNat % 16) (by omega)]
  · rw [form]
    simpa using printable

/-- So an escaped text has no control characters, whatever is in the text. -/
theorem printable_escape (s : List Char) : Printable (escape s) := by
  intro c member
  obtain ⟨d, -, inside⟩ := List.mem_flatMap.mp member
  exact printable_escapeChar d c inside

/-- A numeral has only digits, and perhaps a sign. -/
theorem printable_signedDigits (n : Int) : Printable (Numeral.signedDigits n) := by
  have printable (n : Nat) : Printable (Numeral.digits n) := by
    intro c member
    have digit := isDigit_of_mem_digits member
    simp only [Char.isDigit, Bool.and_eq_true, decide_eq_true_eq, ge_iff_le] at digit
    have low : 48 ≤ c.toNat := digit.1
    omega
  cases n with
  | ofNat n => exact printable n
  | negSucc n => exact printable_cons.mpr ⟨by decide, printable (n + 1)⟩

theorem printable_renderItems {vs : List Json} (items : ∀ v ∈ vs, Printable v.render) :
    Printable (renderItems vs) := by
  induction vs with
  | nil => simp [renderItems]
  | cons v vs ih =>
    rw [List.forall_mem_cons] at items
    simp [renderItems, items.1, ih items.2]

/-- A member is its key in quotes, and its value. -/
theorem printable_renderMember {m : List Char × Json} (key : Printable m.1)
    (value : Printable m.2.render) : Printable (renderMember m) := by
  obtain ⟨k, v⟩ := m
  simp [renderMember, show Printable k from key, show Printable v.render from value]

theorem printable_renderMembers {ms : List (List Char × Json)}
    (members : ∀ m ∈ ms, Printable (renderMember m)) : Printable (renderMembers ms) := by
  induction ms with
  | nil => simp [renderMembers]
  | cons m ms ih =>
    rw [List.forall_mem_cons] at members
    simp [renderMembers, members.1, ih members.2]

/-- Written JSON has no control characters, so that it stands in one line. -/
theorem Written.printable {v : Json} (written : Written v) : Printable v.render := by
  induction written with
  | null => simp [render]
  | bool b => cases b <;> simp [render]
  | number n => exact printable_signedDigits n
  | string s => simp [ofString, render, printable_escape]
  | @array vs items ih =>
    cases vs with
    | nil => simp [render]
    | cons v vs =>
      rw [List.forall_mem_cons] at ih
      simp [render, ih.1, printable_renderItems ih.2]
  | @object ms keys values ih =>
    have members : ∀ m ∈ ms, Printable (renderMember m) := by
      intro m member
      obtain ⟨k, key⟩ := keys m member
      exact printable_renderMember (key ▸ printable_escape k) (ih m member)
    cases ms with
    | nil => simp [render]
    | cons m ms =>
      rw [List.forall_mem_cons] at members
      simp [render, members.1, printable_renderMembers members.2]

end Json

namespace Literal

/-- Reading one value from the literal of a string, whatever stands behind it, gives the string and leaves
what stands behind. -/
theorem read_string_append (s : String) (rest : List Char) :
    Printable (string s).toList ∧ ∃ v, Json.readPrefix? ((string s).toList ++ rest) = some (v, rest) ∧
      v.string? = some s := by
  have written := Json.Written.string s
  have front : Json.readPrefix? ((string s).toList ++ rest) = some (.ofString s, rest) :=
    written.readPrefix?_append fun number => nomatch number
  refine ⟨?_, _, front, Json.string?_ofString s⟩
  rw [string, Json.text, String.toList_ofList]
  exact written.printable

end Literal

/-! ## Literals in code -/

/-- A line stands in a code, behind others. -/
def HasLine (code line : String) : Prop := ∃ before after, code = before ++ "\n" ++ line ++ "\n" ++ after

/-- Some lines stand in a code one after the other, behind others. -/
def HasLines (code : String) (ls : List String) : Prop := ∃ before after, code = before ++ "\n" ++ unlines ls ++ after

/-- Lines that stand together in a list stand together in its text, if there is a line before them. -/
theorem hasLines_unlines {ls lines : List String} (stands : ls <:+: lines) (first : String) :
    HasLines (unlines (first :: lines)) ls := by
  obtain ⟨before, after, rfl⟩ := stands
  -- The line before them is the last one of `first :: before`.
  obtain ⟨init, last, form⟩ : ∃ init last, first :: before = init ++ [last] :=
    ⟨_, _, (List.dropLast_append_getLast (List.cons_ne_nil first before)).symm⟩
  refine ⟨unlines init ++ last, unlines after, ?_⟩
  have split : first :: (before ++ ls ++ after) = init ++ [last] ++ (ls ++ after) := by rw [← form]; simp
  rw [split]
  simp [String.append_assoc]

/-- Lines that stand together among them stand together in the code. -/
theorem HasLines.part {code : String} {ls ms : List String} (has : HasLines code ls) (inside : ms <:+: ls) :
    HasLines code ms := by
  obtain ⟨before, after, rfl⟩ := has
  obtain ⟨front, back, rfl⟩ := inside
  obtain rfl | ⟨init, last, rfl⟩ := List.eq_nil_or_concat front
  · exact ⟨before, unlines back ++ after, by simp [String.append_assoc]⟩
  · exact ⟨before ++ "\n" ++ unlines init ++ last, unlines back ++ after, by simp [String.append_assoc]⟩

/-- Each of the lines stands in the code. -/
theorem HasLines.line {code line : String} {ls : List String} (has : HasLines code ls) (member : line ∈ ls) :
    HasLine code line := by
  obtain ⟨before, after, form⟩ := has.part ((List.singleton_infix_iff line ls).mpr member)
  exact ⟨before, after, by rw [form]; simp [String.append_assoc]⟩

/-- The lines of a section stand together in the text of its runtime. -/
theorem Graph.hasLines_of_section {g : Graph} {c : ChunkId} {ss : List Section} {s : Section}
    (inside : s ∈ ss) : HasLines (g.runtimeText c ss) s.lines := by
  rw [runtimeText_eq]
  exact hasLines_unlines ((infix_sectionLines inside).trans (List.suffix_cons _ _).isInfix) _

/-- Each line of a section stands in the text of its runtime. -/
theorem Graph.hasLine_of_section {g : Graph} {c : ChunkId} {ss : List Section} {s : Section}
    {line : String} (inside : s ∈ ss) (member : line ∈ s.lines) : HasLine (g.runtimeText c ss) line :=
  (hasLines_of_section inside).line member

/-- A line of a code has a literal without control characters between the given words, from which data is
read back: reading one value where the literal starts gives the data, and leaves the code behind it. -/
def Quotes {α : Type} (code lead trail : String) (read : Json → Option α) (x : α) : Prop :=
  ∃ before literal after v, code = before ++ "\n" ++ lead ++ literal ++ trail ++ "\n" ++ after ∧
    Printable literal.toList ∧
    Json.readPrefix? (literal ++ (trail ++ "\n" ++ after)).toList =
      some (v, (trail ++ "\n" ++ after).toList) ∧
    read v = some x

/-- A literal that stands in a line of a code is read back, if it cannot go on with the rest of the line. -/
theorem quotes_of_line {α : Type} {read : Json → Option α} {x : α} {v : Json} {code lead trail : String}
    (line : HasLine code (lead ++ v.text ++ trail)) (written : v.Written)
    (stops : v.isNumber = true → ∀ after, Json.EndsNumber (trail ++ after).toList)
    (back : read v = some x) : Quotes code lead trail read x := by
  obtain ⟨before, after, form⟩ := line
  refine ⟨before, v.text, after, v, ?_, ?_, ?_, back⟩
  · rw [form]
    simp only [String.append_assoc]
  · rw [Json.text, String.toList_ofList]
    exact written.printable
  · rw [String.toList_append, String.append_assoc]
    exact written.readPrefix?_append fun number => stops number _

/-! ## Resource options and entries -/

/-- A field that may be left out is read back if its value is written as one that can be read. -/
theorem Fields.optional?_of_lookup {α : Type} {fs : Fields Json} {name : String} {write : α → Json}
    {read : Json → Option α} {x : Option α} (found : fs.lookup name = x.map write)
    (back : ∀ x, read (write x) = some x) : fs.optional? name read = some x := by
  unfold optional? withDefault?
  rw [found]
  cases x with
  | none => rfl
  | some x => exact congrArg (Option.map some) (back x)

namespace ResourceSettings

variable (s : ResourceSettings)

/-- The attributes of injected scripts: where they are shared, their time limit and their type. -/
def attributes : Option String × Int × Option String := (s.crossOrigin, s.timeoutMillis, s.resourceType)

/-- The members of written attributes. -/
def members : List (String × Json) :=
  Json.optionalMember "crossOrigin" .ofString s.crossOrigin ++ [("timeout", .ofNat s.timeoutMillis)]
    ++ Json.optionalMember "type" .ofString s.resourceType

def attributesOfJson? (v : Json) : Option (Option String × Int × Option String) := do
  let fs ← v.fields? ["crossOrigin", "timeout", "type"]
  return (← fs.optional? "crossOrigin" Json.string?, ← fs.required? "timeout" Json.int?,
    ← fs.optional? "type" Json.string?)

/-- The attributes are written as an object of those that are there. -/
theorem literal_eq : Literal.resources s = (Json.ofMembers s.members).text := by
  unfold Literal.resources members
  cases s.crossOrigin <;> cases s.resourceType <;> rfl

theorem written_members : (Json.ofMembers s.members).Written := by
  refine Json.written_ofMembers ?_
  simp only [members, List.forall_mem_append, List.forall_mem_singleton]
  exact ⟨⟨Json.written_optionalMember .string _, .number s.timeoutMillis⟩,
    Json.written_optionalMember .string _⟩

/-- The attributes are read back from their members. -/
theorem attributesOfJson?_members : attributesOfJson? (.ofMembers s.members) = some s.attributes := by
  have declared : (s.members.map (·.1)).Sublist ["crossOrigin", "timeout", "type"] := by
    simp only [members, List.map_append]
    exact ((Json.keys_optionalMember s.crossOrigin).append (List.Sublist.refl ["timeout"])).append
      (Json.keys_optionalMember s.resourceType)
  have crossOrigin : s.members.lookup "crossOrigin" = s.crossOrigin.map .ofString := by
    simp [members, List.lookup_append, List.lookup_cons, Json.lookup_optionalMember]
  have timeout : s.members.lookup "timeout" = some (.ofInt s.timeoutMillis) := by
    simp only [members, List.lookup_append, List.lookup_cons, Json.lookup_optionalMember]
    rfl
  have type : s.members.lookup "type" = s.resourceType.map .ofString := by
    simp [members, List.lookup_append, List.lookup_cons, Json.lookup_optionalMember]
  unfold attributesOfJson?
  rw [Json.fields?_ofMembers declared (by decide)]
  simp only [Option.bind_eq_bind, Option.bind_some,
    Fields.optional?_of_lookup crossOrigin Json.string?_ofString,
    Fields.required?_of_lookup timeout Json.int?_ofInt,
    Fields.optional?_of_lookup type Json.string?_ofString]
  rfl

end ResourceSettings

namespace DeferredEntry

def toJson (e : DeferredEntry) : Json := .array [e.entry.toJson, Json.ofList Id.toJson e.chunks]

def ofJson? : Json → Option DeferredEntry
  | .array [entry, chunks] => do return ⟨← Id.ofJson? entry, ← Json.list? Id.ofJson? chunks⟩
  | _ => none

theorem written_toJson (e : DeferredEntry) : e.toJson.Written := by
  refine .array ?_
  simp only [List.forall_mem_cons]
  exact ⟨e.entry.written_toJson, Json.written_ofList Id.written_toJson e.chunks, by simp⟩

/-- An entry is read back with all its chunks. -/
theorem ofJson?_toJson (e : DeferredEntry) : ofJson? e.toJson = some e := by
  simp [toJson, ofJson?, Id.ofJson?_toJson, Json.list?_ofList Id.ofJson?_toJson]

end DeferredEntry

namespace Graph

variable {config : Config} {g : Graph} {asked c : ChunkId}

/-! ## The data of a runtime -/

/-- A runtime with updates has the section that they are made from. -/
theorem update_of_sections {f : Features} {ss : List Section} (made : g.sections config c f = .ok ss)
    (hot : f.hot = true) : ∃ s, g.updateSettings config c = .ok s ∧ .hotUpdate s ∈ ss := by
  have updated (rest : Option UpdateSettings → List Section)
      (given : (some <$> g.updateSettings config c >>= fun update => pure (rest update)) = .ok ss) :
      ∃ s, g.updateSettings config c = .ok s ∧ rest (some s) = ss := by
    obtain ⟨update, given, same⟩ := bind_ok.mp given
    cases settings : g.updateSettings config c with
    | error e =>
      rw [settings] at given
      cases given
    | ok s =>
      rw [settings] at given
      obtain rfl := Except.ok.inj given
      exact ⟨s, rfl, Except.ok.inj same⟩
  unfold sections at made
  simp only [hot] at made
  split at made
  all_goals
    obtain ⟨names, -, made⟩ := bind_ok.mp made
    obtain ⟨s, settings, rfl⟩ := updated _ made
    exact ⟨s, settings, by simp⟩

/-- A section for updates has the hash of the build. -/
theorem hash_of_updateSettings {s : UpdateSettings} (made : g.updateSettings config c = .ok s) :
    s.hash = g.fullHash := by
  obtain ⟨_, _, made⟩ := bind_ok.mp made
  obtain ⟨_, _, made⟩ := bind_ok.mp made
  obtain ⟨_, _, made⟩ := bind_ok.mp made
  obtain ⟨_, _, made⟩ := bind_ok.mp made
  rw [← Except.ok.inj made]

/-- Where the data of a chunk's runtime stands in its code, and what is read back there. -/
structure ReadsBack (g : Graph) (config : Config) (c : ChunkId) (code : String) : Prop where
  publicPath : (g.featuresOf config c).scriptLoader = true ∨ (g.featuresOf config c).filenames = true →
    Quotes code "  __chunkwise_require__.p = " ";" Json.string? config.output.publicPath
  resources : (g.featuresOf config c).scriptLoader = true ∨ (g.featuresOf config c).filenames = true →
    Quotes code "  var resourceOptions = " ";" ResourceSettings.attributesOfJson?
      (config.loading.crossOrigin, config.loading.timeoutMillis, config.loading.resourceType)
  /-- The map has a filename for each chunk of the graph that may be loaded later, by its text. -/
  filenames : (g.featuresOf config c).filenames = true → ∃ names,
    Quotes code "  var chunkFilenames = " ";" (Json.table? Json.string?) names ∧
    g.emittedFilenames config c = .ok names ∧ (names.map (·.1)).Nodup ∧
    (∀ key name, (key, name) ∈ names → ∃ x ∈ g.asyncChunks c, x.text = key ∧ g.IsFilename config x name) ∧
    ∀ x ∈ g.asyncChunks c, x ∈ g.chunks.map (·.id) → x.text ∈ names.map (·.1)
  /-- The table has the preload children of the chunk and of those that it may load, by their texts. -/
  preloads : (g.featuresOf config c).preload = true → ∃ table,
    Quotes code "  var chunkPreloads = " ";" (Json.table? (Json.list? Id.ofJson?)) table ∧
    (table.map (·.1)).Nodup ∧
    (∀ key cs, (key, cs) ∈ table →
      ∃ x ∈ c :: g.asyncChunks c, x.text = key ∧ cs = g.childChunks x .preload) ∧
    ∀ x ∈ c :: g.asyncChunks c, x ∈ g.chunks.map (·.id) → g.childChunks x .preload ≠ [] →
      x.text ∈ table.map (·.1)
  /-- Entries that are deferred stand in one list, the others each in a line. -/
  entries : (g.featuresOf config c).deferral = true → g.entriesOf c ≠ [] →
    Quotes code "  __chunkwise_require__.O(" ");" (Json.list? DeferredEntry.ofJson?) (g.entriesOf c)
  modules : (g.featuresOf config c).deferral = false → ∀ e ∈ g.entriesOf c,
    Quotes code "  __chunkwise_require__(" ");" Id.ofJson? e.entry
  prefetches : (g.featuresOf config c).prefetch = true →
    Quotes code "  " ".forEach(__chunkwise_require__.F.j);" (Json.list? Id.ofJson?)
      (g.childChunks c .prefetch)
  hash : (g.featuresOf config c).hot = true →
    Quotes code "  var currentHash = " ";" Json.string? g.fullHash

/-- The sections of a runtime quote its data. -/
theorem readsBack_of_sections {ss : List Section}
    (made : g.sections config c (g.featuresOf config c) = .ok ss) :
    g.ReadsBack config c (g.runtimeText c ss) := by
  obtain ⟨names, update, given, form⟩ := sections_ok made
  have resources (needed : (g.featuresOf config c).scriptLoader = true ∨
      (g.featuresOf config c).filenames = true) : .resources config.resourceSettings ∈ ss := by
    simp [form, needed]
  have called (call : StartupCall) (member : call ∈ g.startupCalls c (g.featuresOf config c)) :
      ∃ s ∈ ss, call.line ∈ s.lines :=
    ⟨.startup (g.startupCalls c (g.featuresOf config c)), by simp [form], List.mem_map_of_mem member⟩
  -- One goal for each datum: the line that has it stands in the code, and its literal is one that is read back.
  constructor
  · intro needed
    exact quotes_of_line (hasLine_of_section (resources needed) List.mem_cons_self) (.string _) (nomatch ·)
      (Json.string?_ofString _)
  · intro needed
    have line : "  var resourceOptions = " ++ (Json.ofMembers config.resourceSettings.members).text ++ ";" ∈
        config.resourceSettings.lines := by
      rw [← ResourceSettings.literal_eq]
      exact List.mem_append_right _ List.mem_cons_self
    exact quotes_of_line (hasLine_of_section (resources needed) line)
      config.resourceSettings.written_members (nomatch ·) config.resourceSettings.attributesOfJson?_members
  · intro needed
    have mapped : .filenames names ∈ ss := by simp [form, needed]
    refine ⟨names, ?_, given needed, emittedFilenames_entries (given needed)⟩
    exact quotes_of_line (hasLine_of_section mapped List.mem_cons_self)
      (Json.written_table .string names) (nomatch ·) (Json.table?_ofMembers Json.string?_ofString names)
  · intro needed
    have hinted : .hints (g.featuresOf config c).prefetch (some (g.emittedPreloads c)) ∈ ss := by
      simp [form, needed]
    refine ⟨g.emittedPreloads c, ?_, emittedPreloads_entries⟩
    exact quotes_of_line (hasLine_of_section hinted (List.mem_append_right _ List.mem_cons_self))
      (Json.written_table (Json.written_ofList Id.written_toJson) _) (nomatch ·)
      (Json.table?_ofMembers (Json.list?_ofList Id.ofJson?_toJson) _)
  · intro deferral some
    obtain ⟨s, inside, line⟩ := called (.deferEntries (g.entriesOf c)) (by
      simp [startupCalls, deferral, some])
    exact quotes_of_line (hasLine_of_section inside line)
      (Json.written_ofList DeferredEntry.written_toJson _) (nomatch ·)
      (Json.list?_ofList DeferredEntry.ofJson?_toJson _)
  · intro deferral e member
    obtain ⟨s, inside, line⟩ := called (.runEntry e.entry) (by
      simp only [startupCalls, deferral]
      exact List.mem_append_left _ (List.mem_map_of_mem member))
    -- A number does not go on with the bracket behind it.
    exact quotes_of_line (hasLine_of_section inside line) e.entry.written_toJson
      (fun _ after => by
        rw [String.toList_append]
        exact Json.endsNumber_cons (by decide))
      e.entry.ofJson?_toJson
  · intro prefetch
    obtain ⟨s, inside, line⟩ := called (.prefetch (g.childChunks c .prefetch)) (by
      simp [startupCalls, prefetch])
    exact quotes_of_line (hasLine_of_section inside line) (Json.written_ofList Id.written_toJson _)
      (nomatch ·) (Json.list?_ofList Id.ofJson?_toJson _)
  · intro hot
    obtain ⟨s, settings, inside⟩ := update_of_sections made hot
    rw [← hash_of_updateSettings settings]
    exact quotes_of_line (hasLine_of_section inside List.mem_cons_self) (.string _) (nomatch ·)
      (Json.string?_ofString _)

/-- **Literals decode back.** Take any text, and any text behind its literal. The literal has no control
characters; reading one value gives the text, and leaves exactly what stands behind. The literal of a named
id is that of its name. Likewise in the code of every runtime that is emitted, unless it is empty: where
the public path, the attributes of resources, the filename map, the preload table, the entries, the
prefetched chunks and the hash of the build stand, each is read back as what it was made from, with
numbers and names kept apart, and with the texts of chunk ids for the keys of the tables. -/
theorem data_read_back :
    (∀ s rest, Printable (Literal.string s).toList ∧
      ∃ v, Json.readPrefix? ((Literal.string s).toList ++ rest) = some (v, rest) ∧ v.string? = some s) ∧
    (∀ s, (Id.name s).literal = Literal.string s) ∧
    ∀ g config asked r, Graph.generate g config asked = .ok r → r.code ≠ "" →
      g.ReadsBack config r.chunk r.code := by
  refine ⟨Literal.read_string_append, fun s => rfl, ?_⟩
  intro g config asked r emitted nonempty
  have merger := (code_iff_merger emitted).mp nonempty
  obtain ⟨ss, made, code⟩ := sections_of_generate emitted merger
  rw [code]
  exact readsBack_of_sections made

end Graph

/-- A build whose chunks have to be escaped: the first one prefetches a number and its numeral in quotes. -/
def quotedBuild : Graph where
  hash := some "0"
  chunks := [⟨.name "a\"\n", none, [], none⟩, ⟨.number 7, none, [], none⟩, ⟨.name "\"7\"", none, [], none⟩]
  groups := [⟨"g", .entry, [.name "a\"\n"], ["h"], none, none, none⟩,
    ⟨"h", .async, [.number 7, .name "\"7\""], [], none, some 0, none⟩]
  blocks := []

/-- The public path and the prefetched chunks of that build are read back from its code. -/
theorem data_read_back_quoted : ∃ r,
    quotedBuild.generate .standard (.name "a\"\n") = .ok r ∧ r.code ≠ "" ∧
      Quotes r.code "  __chunkwise_require__.p = " ";" Json.string? "/" ∧
      Quotes r.code "  " ".forEach(__chunkwise_require__.F.j);" (Json.list? Id.ofJson?)
        [.number 7, .name "\"7\""] := by
  obtain ⟨r, emitted, chunk, nonempty⟩ : ∃ r,
      quotedBuild.generate .standard (.name "a\"\n") = .ok r ∧ r.chunk = .name "a\"\n" ∧ r.code ≠ "" :=
    emitted_of_needs (by decide +kernel) (by decide) (by decide)
  obtain ⟨-, -, code⟩ := Graph.data_read_back
  have back := code quotedBuild .standard _ r emitted nonempty
  have children : quotedBuild.childChunks r.chunk .prefetch = [.number 7, .name "\"7\""] := by
    rw [chunk]
    decide +kernel
  have prefetch : (quotedBuild.featuresOf .standard r.chunk).prefetch = true := by
    rw [chunk]
    decide +kernel
  have filenames : (quotedBuild.featuresOf .standard r.chunk).filenames = true := by
    rw [chunk]
    decide +kernel
  refine ⟨r, emitted, nonempty, back.publicPath (.inr filenames), ?_⟩
  rw [← children]
  exact back.prefetches prefetch

end ChunkLoading
