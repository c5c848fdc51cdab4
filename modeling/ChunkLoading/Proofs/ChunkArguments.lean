import ChunkLoading.CommandLine.Arguments
import ChunkLoading.CommandLine.Execution
import ChunkLoading.Proofs.Keys
import ChunkLoading.Proofs.Needs

/-!
# Chunks that are asked for on the command line

Both jobs take the text of a chunk's id. An analysis looks for the chunk with that text only. Generation goes
on, if there is none, with the id that the text denotes, and looks for the text of that id: a numeral with a
plus sign or with leading zeros finds the chunk of its number there. So the two jobs differ exactly on such
numerals (`CommandLine.asked_alike_iff`).
-/

namespace ChunkLoading

/-! ## Ids that texts denote -/

namespace Numeral

theorem lt_of_readBelow {bound n : Nat} {ds : List Char} (read : readBelow? bound ds = some n) : n < bound := by
  unfold readBelow? at read
  split at read
  · rename_i passed
    obtain rfl := Option.some.inj read
    exact passed.2.2
  · cases read

theorem lt_of_readUnsigned {n : Nat} {cs : List Char} (read : readUnsigned? cs = some n) : n < bound64 := by
  unfold readUnsigned? at read
  split at read <;> exact lt_of_readBelow read

end Numeral

namespace Id

/-- A text that reads as a number denotes that number, whose text is its plain numeral. -/
theorem text_ofText_of_read {s : String} {n : Nat} (read : Numeral.readUnsigned? s.toList = some n) :
    (ofText s).text = String.ofList (Numeral.digits n) := by
  have bound : n < UInt64.size := Numeral.lt_of_readUnsigned read
  unfold ofText
  simp only [read, text]
  rw [UInt64.toNat_ofNat_of_lt' bound]

/-- Any other text is a name, and denotes itself. -/
theorem text_ofText_of_none {s : String} (unread : Numeral.readUnsigned? s.toList = none) :
    (ofText s).text = s := by
  unfold ofText
  simp only [unread, text]

end Id

namespace Graph

variable {g : Graph} {config : Config} {text : String} {asked c : ChunkId}

theorem resolve_eq_none : g.resolve? text = none ↔ ∀ c ∈ g.chunks.map (·.id), c.text ≠ text := by
  simp [resolve?]

/-- Generation reports an unknown chunk exactly if no chunk has the text of the id that it is given. -/
theorem generate_unknownChunk_iff : (∃ other, g.generate config asked = .error (.unknownChunk other)) ↔
    ∀ c ∈ g.chunks.map (·.id), c.text ≠ asked.text := by
  rw [← resolve_eq_none]
  constructor
  · rintro ⟨other, failed⟩
    cases found : g.resolve? asked.text with
    | none => rfl
    | some c => exact absurd failed (generate_ne_unknownChunk found other)
  · intro unknown
    refine ⟨asked, ?_⟩
    unfold generate
    simp only [unknown]

end Graph

namespace CommandLine

variable {g : Graph} {settings : Config} {t graph : String} {out : Option String} {f f' : Folder}
  {asked c : ChunkId} {i j : Invocation}

/-! ## Jobs step by step -/

section Steps

variable {α β : Type} {first : ExceptT JobError (StateM Folder) α}
  {next : α → ExceptT JobError (StateM Folder) β} {path text : String}

/-- What follows in a job starts from the folder that the first part leaves. -/
theorem run_bind_ok (a : α) (f' : Folder) (ok : first.run.run f = (.ok a, f')) :
    (first >>= next).run.run f = (next a).run.run f' := by
  show (ExceptT.bindCont next (first.run.run f).1) (first.run.run f).2 = _
  rw [ok]
  rfl

/-- A fault ends a job. -/
theorem run_bind_error {e : JobError} (failed : first.run.run f = (.error e, f')) :
    (first >>= next).run.run f = (.error e, f') := by
  show (ExceptT.bindCont next (first.run.run f).1) (first.run.run f).2 = _
  rw [failed]
  rfl

/-- A file is read without a change to the folder. -/
theorem run_read (use : Contents → Except JobError α) {a : α} (read : use (f.read path) = .ok a) :
    (ExceptT.mk (do return use (← Folder.access.read path)) :
      ExceptT JobError (StateM Folder) α).run.run f = (.ok a, f) :=
  congrArg (·, f) read

/-- A file that can be written is in the folder afterwards. -/
theorem run_write_some (written : f.write? path text = some f') :
    (liftM (Folder.access.write path text) : ExceptT JobError (StateM Folder) Bool).run.run f =
      (.ok true, f') := by
  have write : StateT.run (Folder.access.write path text) f = (true, f') := by
    simp only [Folder.access, StateT.run_bind, StateT.run_get, pure_bind, written]
    rfl
  exact congrArg (fun result : Bool × Folder => (Except.ok result.1, result.2)) write

/-- A file that cannot be written leaves the folder as it was. -/
theorem run_write_none (failed : f.write? path text = none) :
    (liftM (Folder.access.write path text) : ExceptT JobError (StateM Folder) Bool).run.run f =
      (.ok false, f) := by
  have write : StateT.run (Folder.access.write path text) f = (false, f) := by
    simp only [Folder.access, StateT.run_bind, StateT.run_get, pure_bind, failed]
    rfl
  exact congrArg (fun result : Bool × Folder => (Except.ok result.1, result.2)) write

end Steps

/-! ## What jobs come to -/

/-- What is told about the requirements of a chunk. -/
def analysisOf (needs : Requirements) : Outcome := ⟨String.ofList (needs.toJson.indent 0 ++ ['\n']), []⟩

/-- An analysis of one chunk looks for its text. -/
theorem runIn_analyze (job : i.job = .analyze graph (some t)) (read : graphAt graph (f.read graph) = .ok g) :
    i.runIn f = ((requirementsFor g t).map analysisOf, f) := by
  unfold Invocation.runIn
  rw [job]
  refine (run_bind_ok _ f (run_read _ read)).trans ?_
  cases found : requirementsFor g t with
  | error e =>
    refine run_bind_error ?_
    show (analysis g (some t), f) = _
    rw [analysis, found]
    rfl
  | ok needs =>
    refine (run_bind_ok needs.toJson f ?_).trans rfl
    show (analysis g (some t), f) = _
    rw [analysis, found]
    rfl

/-- What generating the runtime of an id comes to in a folder: its code is put out or written to a file, unless
nothing can be emitted or the file cannot be written. -/
def generationOf (settings : Config) (g : Graph) (out : Option String) (f : Folder) (asked : ChunkId) :
    Except JobError Outcome × Folder :=
  match g.generate settings asked with
  | .error e => (.error (.generate e), f)
  | .ok r =>
    match out with
    | none => (.ok ⟨r.code, notesOn asked r⟩, f)
    | some path =>
      match f.write? path r.code with
      | none => (.error (.unwritable path), f)
      | some f' => (.ok ⟨"", notesOn asked r ++ [.written path]⟩, f')

/-- A generation is for the id that the text of a chunk stands for. -/
theorem runIn_generate (job : i.job = .generate graph t out) (read : graphAt graph (f.read graph) = .ok g)
    (configured : configAt i.config (f.read i.config) = .ok settings) :
    i.runIn f = generationOf settings g out f (chunkFor g t) := by
  unfold Invocation.runIn
  rw [job]
  refine (run_bind_ok _ f (run_read _ configured)).trans ((run_bind_ok _ f (run_read _ read)).trans ?_)
  unfold generationOf
  cases made : g.generate settings (chunkFor g t) with
  | error e =>
    -- The generator fails, and nothing is written.
    refine run_bind_error ?_
    show (runtimeFor settings g t, f) = _
    rw [runtimeFor, made]
    rfl
  | ok r =>
    have launched : runtimeFor settings g t = .ok r := by
      rw [runtimeFor, made]
      rfl
    refine (run_bind_ok r f (congrArg (·, f) launched)).trans ?_
    -- The code is printed, or written to a file if one can be written there.
    cases out with
    | none => rfl
    | some path =>
      dsimp only
      cases written : f.write? path r.code with
      | none => exact run_bind_ok false f (run_write_none written)
      | some f' => exact run_bind_ok true f' (run_write_some written)

/-! ## Unknown chunks -/

/-- Whether an error says that a chunk is unknown. -/
def JobError.isUnknownChunk : JobError → Bool
  | .unknownChunk _ | .generate (.unknownChunk _) => true
  | _ => false

/-- A job ends with an unknown chunk. -/
def EndsUnknown (result : Except JobError Outcome × Folder) : Prop :=
  ∃ e, result.1 = .error e ∧ e.isUnknownChunk = true

theorem endsUnknown_analysis {f : Folder} : EndsUnknown ((requirementsFor g t).map analysisOf, f) ↔
    ∀ c ∈ g.chunks.map (·.id), c.text ≠ t := by
  rw [← Graph.resolve_eq_none]
  unfold requirementsFor
  cases found : g.resolve? t with
  | none => exact iff_of_true ⟨_, rfl, rfl⟩ rfl
  | some c =>
    refine iff_of_false ?_ (Option.some_ne_none c)
    rintro ⟨e, ended, -⟩
    cases ended

theorem endsUnknown_generationOf : EndsUnknown (generationOf settings g out f asked) ↔
    ∀ c ∈ g.chunks.map (·.id), c.text ≠ asked.text := by
  rw [← Graph.generate_unknownChunk_iff]
  constructor
  · rintro ⟨e, ended, unknown⟩
    unfold generationOf at ended
    cases made : g.generate settings asked with
    | error e' =>
      simp only [made] at ended
      obtain rfl := Except.error.inj ended
      cases e' with
      | unknownChunk other => exact ⟨other, rfl⟩
      | noHandler chunk => cases unknown
      | template fault => cases unknown
    | ok r =>
      -- The one fault that is left is that of a file that cannot be written.
      simp only [made] at ended
      split at ended
      · cases ended
      · split at ended
        · obtain rfl := Except.error.inj ended
          cases unknown
        · cases ended
  · rintro ⟨other, failed⟩
    refine ⟨.generate (.unknownChunk other), ?_, rfl⟩
    unfold generationOf
    rw [failed]

/-- Generation works on a chunk: it is for an id with the text of the chunk, and what is emitted for that id, if
anything, is the runtime of the chunk. -/
def WorksOn (settings : Config) (g : Graph) (out : Option String) (f : Folder) (c : ChunkId)
    (result : Except JobError Outcome × Folder) : Prop :=
  ∃ asked, result = generationOf settings g out f asked ∧ asked.text = c.text ∧
    ∀ r, g.generate settings asked = .ok r → g.IsRuntimeOf settings c r

theorem worksOn_of_text (valid : g.Valid) (known : c ∈ g.chunks.map (·.id)) (same : asked.text = c.text) :
    WorksOn settings g out f c (generationOf settings g out f asked) := by
  have found : g.resolve? asked.text = some c := by rw [same, valid.resolve known]
  exact ⟨asked, rfl, same, fun r emitted => Graph.isRuntimeOf_of_resolve found emitted⟩

/-! ## Where the jobs differ -/

/-- A text respells a chunk: it is the text of no chunk, but reads as the number of which the chunk's text is
the plain numeral. -/
def Respells (g : Graph) (t : String) (c : ChunkId) : Prop :=
  (∀ d ∈ g.chunks.map (·.id), d.text ≠ t) ∧ c ∈ g.chunks.map (·.id) ∧
    ∃ n, Numeral.readUnsigned? t.toList = some n ∧ c.text = String.ofList (Numeral.digits n)

theorem chunkFor_of_known (valid : g.Valid) (known : c ∈ g.chunks.map (·.id)) (same : c.text = t) :
    chunkFor g t = c := by
  rw [chunkFor, ← same, valid.resolve known, Option.getD_some]

theorem chunkFor_of_unknown (unknown : ∀ c ∈ g.chunks.map (·.id), c.text ≠ t) :
    chunkFor g t = Id.ofText t := by
  rw [chunkFor, Graph.resolve_eq_none.mpr unknown, Option.getD_none]

/-- A graph that is read from a file is valid. -/
theorem valid_of_graphAt {contents : Contents} (read : graphAt graph contents = .ok g) : g.Valid := by
  cases contents with
  | absent => cases read
  | unreadable => cases read
  | text s => exact Graph.valid_of_read (mapError_ok.mp read)

/-- No chunk has the text of the id that an unknown text stands for, unless the text respells a chunk. -/
theorem unknown_chunkFor_iff (unknown : ∀ c ∈ g.chunks.map (·.id), c.text ≠ t) :
    (∀ c ∈ g.chunks.map (·.id), c.text ≠ (chunkFor g t).text) ↔ ¬ ∃ c, Respells g t c := by
  rw [chunkFor_of_unknown unknown]
  constructor
  · rintro none ⟨c, -, known, n, read, text⟩
    exact none c known (text.trans (Id.text_ofText_of_read read).symm)
  · intro plain c known same
    cases read : Numeral.readUnsigned? t.toList with
    | none => exact unknown c known (same.trans (Id.text_ofText_of_none read))
    | some n => exact plain ⟨c, unknown, known, n, read, same.trans (Id.text_ofText_of_read read)⟩

/-- **Chunks that are asked for.** Take a folder with a graph that can be read, and with a configuration that
can be read or is absent, and any text. The analysis that is asked for the text ends with an unknown chunk
exactly if no chunk of the graph has the text as that of its id. If one has, both jobs work on it. If none has,
but the text respells a chunk as another numeral of its number, then generation works on that chunk all the
same. So the jobs agree on whether the chunk is unknown exactly if the text respells none. -/
theorem asked_alike_iff (analyze : i.job = .analyze graph (some t)) (generate : j.job = .generate graph t out)
    (read : graphAt graph (f.read graph) = .ok g)
    (configured : configAt j.config (f.read j.config) = .ok settings) :
    (EndsUnknown (i.runIn f) ↔ ∀ c ∈ g.chunks.map (·.id), c.text ≠ t) ∧
      (∀ c ∈ g.chunks.map (·.id), c.text = t →
        i.runIn f = (.ok (analysisOf (g.requirementsOf c)), f) ∧ ¬ EndsUnknown (j.runIn f) ∧
          WorksOn settings g out f c (j.runIn f)) ∧
      (∀ c, Respells g t c → ¬ EndsUnknown (j.runIn f) ∧ WorksOn settings g out f c (j.runIn f)) ∧
      ((EndsUnknown (i.runIn f) ↔ EndsUnknown (j.runIn f)) ↔ ¬ ∃ c, Respells g t c) := by
  have valid := valid_of_graphAt read
  rw [runIn_analyze analyze read, runIn_generate generate read configured, endsUnknown_analysis,
    endsUnknown_generationOf]
  refine ⟨Iff.rfl, ?_, ?_, ?_⟩
  · intro c known same
    -- A chunk with the text itself is found by both jobs.
    have found : g.resolve? t = some c := same ▸ valid.resolve known
    rw [chunkFor_of_known valid known same]
    refine ⟨?_, fun unknown => unknown c known rfl, worksOn_of_text valid known rfl⟩
    simp only [requirementsFor, found]
    rfl
  · rintro c ⟨unknown, known, n, number, text⟩
    -- A text that respells a numeral is read as the number, which names the chunk.
    have same : (chunkFor g t).text = c.text := by
      rw [chunkFor_of_unknown unknown, text, Id.text_ofText_of_read number]
    exact ⟨fun none => none c known same.symm, worksOn_of_text valid known same⟩
  · by_cases unknown : ∀ c ∈ g.chunks.map (·.id), c.text ≠ t
    · rw [iff_true_left unknown]
      exact unknown_chunkFor_iff unknown
    · -- A chunk has the text, so that both jobs find it.
      obtain ⟨c, known, same⟩ : ∃ c ∈ g.chunks.map (·.id), c.text = t := by simpa using unknown
      rw [chunkFor_of_known valid known same]
      refine iff_of_true (iff_of_false unknown fun none => none c known rfl) ?_
      rintro ⟨d, fresh, -⟩
      exact unknown fresh

/-! ## A build with a number and a numeral -/

/-- A build whose chunks have a number and another numeral of that number. -/
def respelledBuild : Graph where
  hash := none
  chunks := [⟨.number 7, none, [], none⟩, ⟨.name "07", none, [], none⟩]
  groups := []
  blocks := []

def respelledText : String := "\x7b\"chunks\":[\x7b\"id\":7\x7d,\x7b\"id\":\"07\"\x7d]\x7d"

/-- The folder of that build, without a configuration. -/
def respelledFolder : Folder := .ofFiles [("graph.json", respelledText)]

theorem respelledBuild_read : Graph.read respelledText = .ok respelledBuild :=
  Graph.read_of_chars (toList_of_chars rfl) (by decide) (by decide)

theorem respelledFolder_graph : graphAt "graph.json" (respelledFolder.read "graph.json") = .ok respelledBuild := by
  have contents : respelledFolder.read "graph.json" = .text respelledText := by decide
  rw [contents, graphAt, respelledBuild_read]
  rfl

theorem respelledFolder_config :
    configAt defaultConfig (respelledFolder.read defaultConfig) = .ok .standard := by decide

/-- Asked for `+7`, an analysis ends with an unknown chunk, while generation works on the chunk 7. -/
theorem respelled_apart :
    (∀ c ∈ respelledBuild.chunks.map (·.id), c.text ≠ "+7") ∧
    ∃ i j, Invocation.read ["analyze", "--graph", "graph.json", "--chunk", "+7"] = .ok i ∧
      Invocation.read ["generate", "--graph", "graph.json", "--chunk", "+7"] = .ok j ∧
      i.runIn respelledFolder = (.error (.unknownChunk "+7"), respelledFolder) ∧
      j.runIn respelledFolder = (.ok ⟨"", [.notNeeded (.number 7)]⟩, respelledFolder) := by
  have unknown : ∀ c ∈ respelledBuild.chunks.map (·.id), c.text ≠ "+7" := by decide
  refine ⟨unknown, ⟨.analyze "graph.json" (some "+7"), defaultConfig, false⟩,
    ⟨.generate "graph.json" "+7" none, defaultConfig, false⟩, by decide, by decide, ?_, ?_⟩
  · rw [runIn_analyze rfl respelledFolder_graph]
    rfl
  · have number : Id.ofText "+7" = .number 7 := by decide
    have bare : respelledBuild.Bare (.number 7) :=
      ⟨by simp [respelledBuild], by simp [respelledBuild], by simp [respelledBuild]⟩
    have idle : (respelledBuild.featuresOf .standard (.number 7)).merger = false :=
      (valid_of_graphAt respelledFolder_graph).merger_eq_false_iff.mpr bare
    have found : respelledBuild.resolve? (Id.number 7).text = some (.number 7) := by decide
    rw [runIn_generate rfl respelledFolder_graph respelledFolder_config, chunkFor_of_unknown unknown, number,
      generationOf, Graph.generate_of_idle found idle]
    rfl

theorem asked_alike_numerals : ∃ i j i' j',
    Invocation.read ["analyze", "--graph", "graph.json", "--chunk", "007"] = .ok i ∧
    Invocation.read ["generate", "--graph", "graph.json", "--chunk", "007"] = .ok j ∧
    Invocation.read ["analyze", "--graph", "graph.json", "--chunk", "07"] = .ok i' ∧
    Invocation.read ["generate", "--graph", "graph.json", "--chunk", "07"] = .ok j' ∧
    EndsUnknown (i.runIn respelledFolder) ∧
    WorksOn .standard respelledBuild none respelledFolder (.number 7) (j.runIn respelledFolder) ∧
    (i'.runIn respelledFolder).1 = .ok (analysisOf (respelledBuild.requirementsOf (.name "07"))) ∧
    WorksOn .standard respelledBuild none respelledFolder (.name "07") (j'.runIn respelledFolder) := by
  refine ⟨⟨.analyze "graph.json" (some "007"), defaultConfig, false⟩,
    ⟨.generate "graph.json" "007" none, defaultConfig, false⟩,
    ⟨.analyze "graph.json" (some "07"), defaultConfig, false⟩,
    ⟨.generate "graph.json" "07" none, defaultConfig, false⟩,
    by decide, by decide, by decide, by decide, ?_⟩
  have unknown : ∀ c ∈ respelledBuild.chunks.map (·.id), c.text ≠ "007" := by decide
  obtain ⟨analysis, -, respelled, -⟩ := asked_alike_iff
    (i := ⟨.analyze "graph.json" (some "007"), defaultConfig, false⟩)
    (j := ⟨.generate "graph.json" "007" none, defaultConfig, false⟩) rfl rfl respelledFolder_graph
    respelledFolder_config
  obtain ⟨-, written, -⟩ := asked_alike_iff
    (i := ⟨.analyze "graph.json" (some "07"), defaultConfig, false⟩)
    (j := ⟨.generate "graph.json" "07" none, defaultConfig, false⟩) rfl rfl respelledFolder_graph
    respelledFolder_config
  have own := written (.name "07") (by decide) (by decide)
  exact ⟨analysis.mpr unknown, (respelled (.number 7) ⟨unknown, by decide, 7, by decide, by decide⟩).2,
    congrArg (·.1) own.1, own.2.2⟩

end CommandLine

end ChunkLoading
