import ChunkLoading.Page.HotUpdate
import ChunkLoading.Proofs.Expressions
import ChunkLoading.Proofs.Quotation

/-!
# Addresses of updates

A bootstrap renders the addresses of an update from templates. The code of an emitted runtime has two
functions that compute them, by expressions that the same templates compile to, and puts the public path
in front where it fetches. Both sides have the same path for a chunk with a name, whatever updates the
bootstrap has gone through (`update_addresses_agree`).
-/

namespace ChunkLoading

open Expression

/-! ## Bootstraps -/

namespace Bootstrap

variable {config : Config} {b : Bootstrap}

/-- A bootstrap addresses updates as a configuration says. -/
structure Serves (b : Bootstrap) (config : Config) : Prop where
  publicPath : b.publicPath = config.output.publicPath
  runtimeName : b.runtimeName = config.hot.runtime
  chunkTemplate : Template.parse config.hot.chunkAddress = .ok b.chunkTemplate
  manifestTemplate : Template.parse config.hot.entryAddress = .ok b.manifestTemplate

/-- What one call makes of a bootstrap. -/
inductive Step : Bootstrap → Bootstrap → Prop
  | noteLoaded (b : Bootstrap) (cs : List ChunkId) : Step b (b.noteLoaded cs)
  | apply {b b' : Bootstrap} {m : Manifest} {addresses : List String}
      (applied : b.apply m = .ok (addresses, b')) : Step b b'
  | receive (b : Bootstrap) (c : ChunkId) (modules : List (ModuleId × FactoryId)) :
      Step b (b.receive c modules)
  | finish {b b' : Bootstrap} {u : PendingUpdate} {next : String}
      (finished : b.finish? next = some (u, b')) : Step b b'

/-- The bootstraps of a configuration: new ones, perhaps in front of another extension, and what calls make
of them. -/
inductive InUse (config : Config) : Bootstrap → Prop
  | new {b : Bootstrap} {hash : String} (made : ofConfig config hash = .ok b)
      (previous : Option ExtensionId) : InUse config { b with previous := previous }
  | step {b b' : Bootstrap} (used : InUse config b) (step : Step b b') : InUse config b'

theorem serves_ofConfig {hash : String} (made : ofConfig config hash = .ok b) : b.Serves config := by
  obtain ⟨t, chunk, made⟩ := bind_ok.mp made
  obtain ⟨t', manifest, made⟩ := bind_ok.mp made
  obtain rfl := Except.ok.inj made
  exact ⟨rfl, rfl, chunk, manifest⟩

/-- No call changes what a bootstrap takes from its configuration. -/
theorem Step.serves {b' : Bootstrap} (step : Step b b') (serves : b.Serves config) :
    b'.Serves config := by
  obtain ⟨path, name, chunk, manifest⟩ := serves
  cases step with
  | noteLoaded cs => exact ⟨path, name, chunk, manifest⟩
  | apply applied =>
    obtain ⟨addresses, -, applied⟩ := bind_ok.mp applied
    obtain ⟨-, rfl⟩ := Prod.mk.inj (Except.ok.inj applied)
    exact ⟨path, name, chunk, manifest⟩
  | receive c modules =>
    unfold Bootstrap.receive
    split
    · exact ⟨path, name, chunk, manifest⟩
    · exact ⟨path, name, chunk, manifest⟩
  | finish finished =>
    unfold finish? at finished
    split at finished
    · cases finished
    · split at finished
      · obtain ⟨-, rfl⟩ := Prod.mk.inj (Option.some.inj finished)
        exact ⟨path, name, chunk, manifest⟩
      · cases finished

theorem InUse.serves (used : InUse config b) : b.Serves config := by
  induction used with
  | new made previous =>
    obtain ⟨path, name, chunk, manifest⟩ := serves_ofConfig made
    exact ⟨path, name, chunk, manifest⟩
  | step _ step ih => exact step.serves ih

/-- What the placeholders in the address of an updated chunk stand for. -/
def chunkValue (b : Bootstrap) (id : String) : Placeholder → Option String
  | .id => some id
  | .fullHash => some b.currentHash
  | .runtime => some b.runtimeName
  | _ => none

/-- What the placeholders in the address of an update manifest stand for. -/
def manifestValue (b : Bootstrap) : Placeholder → Option String
  | .fullHash => some b.currentHash
  | .runtime => some b.runtimeName
  | _ => none

theorem chunkAddress_of_render {c : ChunkId} {path : String}
    (rendered : b.chunkTemplate.render (b.chunkValue c.text) = .ok path) :
    b.chunkAddress c = .ok (b.publicPath ++ path) := by
  show (b.chunkTemplate.render (b.chunkValue c.text) >>= fun path => pure (b.publicPath ++ path)) = _
  rw [rendered]
  rfl

theorem manifestAddress_of_render {path : String}
    (rendered : b.manifestTemplate.render b.manifestValue = .ok path) :
    b.manifestAddress = .ok (b.publicPath ++ path) := by
  show (b.manifestTemplate.render b.manifestValue >>= fun path => pure (b.publicPath ++ path)) = _
  rw [rendered]
  rfl

/-- The names that the function for chunks may use, with their values: its argument, and the hash of the
current build. -/
def chunkScope (b : Bootstrap) (id : String) : Scope :=
  [("chunkId", units id.toList), ("__chunkwise_require__.h()", units b.currentHash.toList)]

/-- The function for the manifest has no argument. -/
def manifestScope (b : Bootstrap) : Scope := [("__chunkwise_require__.h()", units b.currentHash.toList)]

end Bootstrap

/-! ## Emitted functions -/

/-- The expressions of placeholders in the address of an updated chunk. -/
def Placeholder.chunkExpr (runtime : String) : Placeholder → Option String
  | .id => some "chunkId"
  | .fullHash => some "__chunkwise_require__.h()"
  | .runtime => some (Literal.string runtime)
  | _ => none

/-- The expressions of placeholders in the address of an update manifest. -/
def Placeholder.manifestExpr (runtime : String) : Placeholder → Option String
  | .fullHash => some "__chunkwise_require__.h()"
  | .runtime => some (Literal.string runtime)
  | _ => none

/-- A code has functions that compute the paths of updated chunks and of the manifest by the given
expressions, and puts the public path in front of both where it fetches. -/
structure FetchesUpdates (code publicPath chunkPath manifestPath : String) : Prop where
  publicPath : HasLine code ("  __chunkwise_require__.p = " ++ Literal.string publicPath ++ ";")
  hash : HasLine code "  __chunkwise_require__.h = () => currentHash;"
  chunk : HasLine code ("  __chunkwise_require__.hu = (chunkId) => " ++ chunkPath ++ ";")
  manifest : HasLine code ("  __chunkwise_require__.hmrF = () => " ++ manifestPath ++ ";")
  chunkFetched :
    HasLine code "              __chunkwise_require__.p + __chunkwise_require__.hu(chunkId),"
  manifestFetched : HasLine code
    "    return fetch(__chunkwise_require__.p + __chunkwise_require__.hmrF()).then((response) => \x7b"

namespace Graph

variable {config : Config} {g : Graph} {asked c : ChunkId}

theorem addresses_of_updateSettings {s : UpdateSettings} (made : g.updateSettings config c = .ok s) :
    (∃ t, Template.parse config.hot.chunkAddress = .ok t ∧
      t.expression (Placeholder.chunkExpr config.hot.runtime) = .ok s.chunkAddress) ∧
    ∃ t, Template.parse config.hot.entryAddress = .ok t ∧
      t.expression (Placeholder.manifestExpr config.hot.runtime) = .ok s.manifestAddress := by
  obtain ⟨t, read, made⟩ := bind_ok.mp made
  obtain ⟨chunk, compiled, made⟩ := bind_ok.mp made
  obtain ⟨t', read', made⟩ := bind_ok.mp made
  obtain ⟨manifest, compiled', made⟩ := bind_ok.mp made
  obtain rfl := Except.ok.inj made
  exact ⟨⟨t, read, compiled⟩, t', read', compiled'⟩

/-- A runtime with updates fetches them, by the expressions that its settings have. -/
theorem fetchesUpdates_of_generate {r : GeneratedRuntime} (emitted : g.generate config asked = .ok r)
    (hot : (g.featuresOf config r.chunk).hot = true) :
    ∃ s, g.updateSettings config r.chunk = .ok s ∧
      FetchesUpdates r.code config.output.publicPath s.chunkAddress s.manifestAddress := by
  -- A chunk with updates needs loading code, so that its runtime is not empty and has the public path.
  have needs : (g.requirementsOf r.chunk).chunkLoadingCode = true := by
    simp only [featuresOf, Features.of, Bool.and_eq_true] at hot
    exact hot.2
  have merger : (g.featuresOf config r.chunk).merger = true := by
    simp [featuresOf, Features.of, Requirements.isEmpty, needs]
  have loader : (g.featuresOf config r.chunk).scriptLoader = true := by
    simp only [featuresOf, Features.of] at hot ⊢
    simp [hot]
  obtain ⟨ss, made, code⟩ := sections_of_generate emitted merger
  obtain ⟨names, update, -, form⟩ := sections_ok made
  obtain ⟨s, settings, inside⟩ := update_of_sections made hot
  have resources : .resources config.resourceSettings ∈ ss := by simp [form, loader]
  refine ⟨s, settings, ?_⟩
  rw [code]
  have line {line : String} (member : line ∈ s.lines) : HasLine (g.runtimeText r.chunk ss) line :=
    hasLine_of_section inside member
  exact {
    publicPath := hasLine_of_section resources List.mem_cons_self
    hash := line (by simp [UpdateSettings.lines])
    chunk := line (by simp [UpdateSettings.lines])
    manifest := line (by simp [UpdateSettings.lines])
    chunkFetched := line (by simp [UpdateSettings.lines, FixedCode.hotUpdate])
    manifestFetched := line (by simp [UpdateSettings.lines, FixedCode.hotUpdate]) }

end Graph

/-! ## Both sides -/

variable {config : Config} {b : Bootstrap}

/-- In the function for chunks, expressions stand for what placeholders do. -/
theorem denotes_chunkExpr (id : String) {p : Placeholder} {e : String}
    (known : p.chunkExpr b.runtimeName = some e) :
    ∃ v, b.chunkValue id p = some v ∧ Denotes (b.chunkScope id) e v := by
  cases p with
  | id =>
    obtain rfl := Option.some.inj known
    exact ⟨id, rfl, denotes_name [] 'c' rfl (by decide) (by decide) (by simp)⟩
  | fullHash =>
    obtain rfl := Option.some.inj known
    refine ⟨b.currentHash, rfl, ?_⟩
    exact denotes_name [("chunkId", units id.toList)] '_' rfl (by decide) (by decide) (by simp)
  | runtime =>
    obtain rfl := Option.some.inj known
    exact ⟨b.runtimeName, rfl, denotes_string _ _⟩
  | name => cases known
  | contentHash => cases known

/-- In the function for the manifest, expressions stand for what placeholders do. -/
theorem denotes_manifestExpr {p : Placeholder} {e : String}
    (known : p.manifestExpr b.runtimeName = some e) :
    ∃ v, b.manifestValue p = some v ∧ Denotes b.manifestScope e v := by
  cases p with
  | fullHash =>
    obtain rfl := Option.some.inj known
    exact ⟨b.currentHash, rfl, denotes_name [] '_' rfl (by decide) (by decide) (by simp)⟩
  | runtime =>
    obtain rfl := Option.some.inj known
    exact ⟨b.runtimeName, rfl, denotes_string _ _⟩
  | id => cases known
  | name => cases known
  | contentHash => cases known

/-- A template that compiles to an expression, whose expressions stand for values, renders the text that the
expression computes. -/
theorem Template.computes_of_compiled {t : Template} {scope : Scope}
    {value expr : Placeholder → Option String} {compiled : String} (made : t.expression expr = .ok compiled)
    (denotes : ∀ p e, expr p = some e → ∃ v, value p = some v ∧ Denotes scope e v) (fits : t.Fits value) :
    ∃ s, t.render value = .ok s ∧ Computes scope compiled s := by
  have used : ∀ p, t.uses p = true → ∃ e v, expr p = some e ∧ value p = some v ∧ Denotes scope e v := by
    -- What compiles has an expression for each placeholder that it uses.
    intro p used
    obtain ⟨e, known⟩ :=
      Option.isSome_iff_exists.mp ((Template.isOk_expression expr).mp (isOk_iff.mpr ⟨_, made⟩) p used)
    obtain ⟨v, held, stands⟩ := denotes p e known
    exact ⟨e, v, known, held, stands⟩
  obtain ⟨s, e, rendered, same, computes⟩ := t.computes_render used fits
  obtain rfl := Except.ok.inj (made.symm.trans same)
  exact ⟨s, rendered, computes⟩

/-- Both sides of an update have the same paths: a bootstrap of a configuration fetches, behind the public
path, what the expressions of a runtime compute for its current build. -/
theorem paths_agree {g : Graph} {c : ChunkId} {s : UpdateSettings} (made : g.updateSettings config c = .ok s)
    (used : b.InUse config) :
    (∀ id, b.chunkTemplate.Fits (b.chunkValue id) → ∃ path,
      b.chunkAddress (.name id) = .ok (config.output.publicPath ++ path) ∧
        Computes (b.chunkScope id) s.chunkAddress path) ∧
    (b.manifestTemplate.Fits b.manifestValue → ∃ path,
      b.manifestAddress = .ok (config.output.publicPath ++ path) ∧
        Computes b.manifestScope s.manifestAddress path) := by
  -- Both sides have the templates of the configuration, and the name of its runtime.
  have serves := used.serves
  obtain ⟨⟨t, read, chunk⟩, t', read', manifest⟩ := Graph.addresses_of_updateSettings made
  obtain rfl := Except.ok.inj (serves.chunkTemplate.symm.trans read)
  obtain rfl := Except.ok.inj (serves.manifestTemplate.symm.trans read')
  rw [← serves.runtimeName] at chunk manifest
  rw [← serves.publicPath]
  constructor
  · intro id fits
    obtain ⟨path, rendered, computes⟩ :=
      Template.computes_of_compiled chunk (fun p e known => denotes_chunkExpr id known) fits
    exact ⟨path, Bootstrap.chunkAddress_of_render rendered, computes⟩
  · intro fits
    obtain ⟨path, rendered, computes⟩ :=
      Template.computes_of_compiled manifest (fun p e known => denotes_manifestExpr known) fits
    exact ⟨path, Bootstrap.manifestAddress_of_render rendered, computes⟩

/-- **Rendered and compiled templates agree**, as far as no limit cuts characters short that take two code
units. Take a template and texts for the placeholders that it uses, where the characters that a limit keeps
take no more code units than the limit. Then the expression that it compiles to, with the literals of the
texts, computes the text that it renders. Likewise a runtime that is emitted with updates: for each
bootstrap of its configuration and each chunk with a name, the address is the public path, which the code
puts in front where it fetches, and behind it the path that the function of the code computes for that
name and the current build. Likewise for the manifest. -/
theorem update_addresses_agree :
    (∀ (t : Template) (value : Placeholder → Option String),
      (∀ p, t.uses p = true → (value p).isSome = true) → t.Fits value → ∃ s e,
        t.render value = .ok s ∧ t.expression (fun p => (value p).map Literal.string) = .ok e ∧
          Computes [] e s) ∧
    ∀ g config asked r, Graph.generate g config asked = .ok r →
      (g.featuresOf config r.chunk).hot = true → ∃ chunkPath manifestPath,
        FetchesUpdates r.code config.output.publicPath chunkPath manifestPath ∧
        (∀ hash, ∃ b, Bootstrap.ofConfig config hash = .ok b ∧ b.currentHash = hash) ∧
        ∀ b, Bootstrap.InUse config b →
          (∀ id, b.chunkTemplate.Fits (b.chunkValue id) → ∃ path,
            b.chunkAddress (.name id) = .ok (config.output.publicPath ++ path) ∧
              Computes (b.chunkScope id) chunkPath path) ∧
          (b.manifestTemplate.Fits b.manifestValue → ∃ path,
            b.manifestAddress = .ok (config.output.publicPath ++ path) ∧
              Computes b.manifestScope manifestPath path) := by
  constructor
  · intro t value given fits
    -- A value that is given is written as a literal, which denotes it.
    refine t.computes_render (fun p used => ?_) fits
    obtain ⟨v, held⟩ := Option.isSome_iff_exists.mp (given p used)
    exact ⟨Literal.string v, v, by rw [held]; rfl, held, denotes_string _ v⟩
  · intro g config asked r emitted hot
    obtain ⟨s, settings, fetches⟩ := Graph.fetchesUpdates_of_generate emitted hot
    refine ⟨s.chunkAddress, s.manifestAddress, fetches, ?_, fun b used => paths_agree settings used⟩
    intro hash
    -- Both templates were read when the runtime was emitted, so a bootstrap can be made.
    obtain ⟨⟨t, read, -⟩, t', read', -⟩ := Graph.addresses_of_updateSettings settings
    unfold Bootstrap.ofConfig
    rw [read, read']
    exact ⟨_, rfl, rfl⟩

/-- The standard addresses of updates have no limits. -/
theorem fits_updated {hash id : String} (new : Bootstrap.ofConfig updated hash = .ok b) :
    b.chunkTemplate.Fits (b.chunkValue id) := by
  have read : Template.parse updated.hot.chunkAddress = .ok ⟨"[id].[fullhash].hot-update.js",
      [.slot .id none, .literal ['.'], .slot .fullHash none, .literal ".hot-update.js".toList]⟩ := by
    decide +kernel
  have template := Except.ok.inj ((Bootstrap.serves_ofConfig new).chunkTemplate.symm.trans read)
  intro p limit v member
  simp [template] at member

theorem emitted_updated : ∃ r, splitBuild.generate updated (.name "main") = .ok r ∧
    (splitBuild.featuresOf updated r.chunk).hot = true := by
  obtain ⟨r, emitted, chunk, -⟩ : ∃ r, splitBuild.generate updated (.name "main") = .ok r ∧
      r.chunk = .name "main" ∧ r.code ≠ "" :=
    emitted_of_needs (by decide +kernel) (by decide) (by decide)
  refine ⟨r, emitted, ?_⟩
  rw [chunk]
  decide

theorem update_addresses_agree_split :
    (∃ e, Template.expression ⟨"[name:2].js", [.slot .name (some 2), .literal ".js".toList]⟩
        (fun _ => some (Literal.string "aé😀")) = .ok e ∧ Computes [] e "aé.js") ∧
    ∃ r chunkPath manifestPath b path, splitBuild.generate updated (.name "main") = .ok r ∧
      FetchesUpdates r.code "/" chunkPath manifestPath ∧ Bootstrap.ofConfig updated "0123" = .ok b ∧
      b.chunkAddress (.name "main") = .ok ("/" ++ path) ∧
      Computes (b.chunkScope "main") chunkPath path := by
  obtain ⟨templates, runtimes⟩ := update_addresses_agree
  constructor
  · let t : Template := ⟨"[name:2].js", [.slot .name (some 2), .literal ".js".toList]⟩
    let value (_ : Placeholder) : Option String := some "aé😀"
    -- Each of the two characters that are kept is one code unit.
    have fits : t.Fits value := by
      intro p limit v member held
      obtain rfl := Option.some.inj held
      simp only [t, List.mem_cons, Segment.slot.injEq, Option.some.injEq, reduceCtorEq, List.not_mem_nil,
        or_self, or_false] at member
      obtain ⟨-, rfl⟩ := member
      decide
    obtain ⟨s, e, rendered, compiled, computes⟩ := templates t value (fun _ _ => rfl) fits
    have expected : t.render value = .ok "aé.js" := by decide
    obtain rfl := Except.ok.inj (expected.symm.trans rendered)
    exact ⟨e, compiled, computes⟩
  · obtain ⟨r, emitted, hot⟩ := emitted_updated
    obtain ⟨chunkPath, manifestPath, fetches, made, agree⟩ := runtimes splitBuild updated _ r emitted hot
    obtain ⟨b, new, -⟩ := made "0123"
    obtain ⟨path, address, computes⟩ := (agree b (.new new b.previous)).1 "main" (fits_updated new)
    exact ⟨r, chunkPath, manifestPath, b, path, emitted, fetches, new, address, computes⟩

/-- A limit of one cuts a character in half that takes two code units. And what the code computes for an
address is a path, which is not the address itself. -/
theorem computed_otherwise :
    (∃ t s e, Template.parse "[name:1]" = .ok t ∧ t.render (fun _ => some "😀") = .ok s ∧
      t.expression (fun _ => some (Literal.string "😀")) = .ok e ∧ ¬ Computes [] e s) ∧
    ∃ r chunkPath manifestPath b address, Config.read updatedText = .ok updated ∧
      splitBuild.generate updated (.name "main") = .ok r ∧
      FetchesUpdates r.code "/" chunkPath manifestPath ∧ Bootstrap.ofConfig updated "0123" = .ok b ∧
      b.chunkAddress (.name "main") = .ok address ∧ ¬ Computes (b.chunkScope "main") chunkPath address := by
  constructor
  · refine ⟨⟨"[name:1]", [.slot .name (some 1)]⟩, "😀", "\"\" + String(\"😀\").slice(0, 1)",
      ?_, ?_, ?_, ?_⟩
    · decide +kernel
    · decide
    · decide
    · decide
  · obtain ⟨r, emitted, hot⟩ := emitted_updated
    obtain ⟨s, settings, fetches⟩ := Graph.fetchesUpdates_of_generate emitted hot
    obtain ⟨b, new⟩ : ∃ b, Bootstrap.ofConfig updated "0123" = .ok b := isOk_iff.mp (by decide +kernel)
    obtain ⟨chunks, -⟩ := paths_agree settings (.new new b.previous)
    obtain ⟨path, address, computes⟩ := chunks "main" (fits_updated new)
    refine ⟨r, s.chunkAddress, s.manifestAddress, b, "/" ++ path, by decide +kernel, emitted, fetches, new,
      address, ?_⟩
    -- The code computes the path only, which is shorter.
    intro whole
    have length := congrArg String.length (computes.unique whole)
    rw [String.length_append] at length
    have one : "/".length = 1 := rfl
    omega

end ChunkLoading
