import ChunkLoading.CommandLine.Basic
import ChunkLoading.CommandLine.Folder
import ChunkLoading.Config.Document
import ChunkLoading.Emitted.Generation
import ChunkLoading.Graph.Validity
import ChunkLoading.Text.Measure

/-!
# Doing jobs

What the jobs of the command line read, write and tell. A missing configuration file stands for the
standard configuration; a missing graph is an error.
-/

namespace ChunkLoading.CommandLine

/-! ## Faults -/

inductive JobError where
  | unreadableConfig (path : String)
  | config (e : Config.ReadError)
  | unreadableGraph (path : String)
  | graph (path : String) (e : Graph.ReadError)
  | unknownChunk (asked : String)
  | generate (e : GenerateError)
  | unwritable (path : String)
  deriving DecidableEq

def JobError.message : JobError → String
  | .unreadableConfig path => "Failed to read config file: " ++ path
  | .config e => e.message
  | .unreadableGraph path => "Failed to read chunk graph: " ++ path
  | .graph path e => "Invalid chunk graph: " ++ path ++ ": " ++ e.message
  | .unknownChunk asked => "Unknown chunk '" ++ asked ++ "'"
  | .generate e => e.message
  | .unwritable path => "Failed to write runtime: " ++ path

/-! ## What is told -/

/-- A line for the reader of the terminal. -/
inductive Note where
  | generated (chunk : ChunkId)
  /-- The features of the runtime, and its length in bytes. -/
  | contents (features : List String) (bytes : Nat)
  | notNeeded (chunk : ChunkId)
  | written (path : String)
  deriving DecidableEq

/-- The line of a note, when the job took the given time. -/
def Note.text (elapsed : String) : Note → String
  | .generated c => "✓ Generated runtime for chunk " ++ c.text ++ " in " ++ elapsed
  | .contents features bytes =>
    "  • " ++ ", ".intercalate features ++ " " ++ Measure.size bytes
  | .notNeeded c => "✓ Chunk " ++ c.text ++ " needs no runtime"
  | .written path => "  → " ++ path

/-- The lines before any job. -/
def banner : List String := ["", "⚡ Chunkwise v0.1.0", ""]

/-- What a job puts on standard output and tells besides. -/
structure Outcome where
  output : String
  notes : List Note
  deriving DecidableEq

/-! ## Files that are read -/

def configAt (path : String) : Contents → Except JobError Config
  | .absent => .ok .standard
  | .unreadable => .error (.unreadableConfig path)
  | .text s => (Config.read s).mapError .config

def graphAt (path : String) : Contents → Except JobError Graph
  | .absent | .unreadable => .error (.unreadableGraph path)
  | .text s => (Graph.read s).mapError (.graph path)

/-! ## Analysis -/

/-- The requirements of the chunk with an id text. -/
def requirementsFor (g : Graph) (asked : String) : Except JobError Requirements :=
  match g.resolve? asked with
  | none => .error (.unknownChunk asked)
  | some c => .ok (g.requirementsOf c)

/-- The requirements of all chunks by id text. -/
def allRequirements (g : Graph) : List (String × Requirements) :=
  sortedTable (g.chunks.map fun c => (c.id.text, g.requirementsOf c.id))

/-- The analysis of one chunk or of all. -/
def analysis (g : Graph) : Option String → Except JobError Json
  | some asked => return (← requirementsFor g asked).toJson
  | none => .ok (.ofMembers ((allRequirements g).map fun r => (r.1, r.2.toJson)))

/-! ## Generation -/

/-- The chunk that a text asks for: the one with that id text, or else the id that the text
denotes. -/
def chunkFor (g : Graph) (asked : String) : ChunkId :=
  (g.resolve? asked).getD (Id.ofText asked)

def runtimeFor (config : Config) (g : Graph) (asked : String) :
    Except JobError GeneratedRuntime :=
  (g.generate config (chunkFor g asked)).mapError .generate

/-- The names of the features that a runtime has. -/
def featureNames (r : Requirements) : List String :=
  [(r.onDemandLoading, "on-demand loading"), (r.entryDeferral, "entry deferral"),
    (r.prefetch, "prefetch"), (r.chunkLoadingCode, "chunk loading code")].filterMap fun f =>
      if f.1 then some f.2 else none

/-- What is told about a runtime. -/
def notesOn (asked : ChunkId) (r : GeneratedRuntime) : List Note :=
  if r.code.isEmpty then [.notNeeded asked]
  else [.generated asked, .contents (featureNames r.requirements) r.size]

/-! ## Jobs -/

/-- Does a job with the configuration at the given path. -/
def Job.run {m : Type → Type} [Monad m] (files : FileAccess m) (config : String) :
    Job → ExceptT JobError m Outcome
  | .analyze graph chunk => do
    let g ← ExceptT.mk (return graphAt graph (← files.read graph))
    let v ← ExceptT.mk (return analysis g chunk)
    return ⟨String.ofList (v.indent 0 ++ ['\n']), []⟩
  | .generate graph chunk out => do
    let c ← ExceptT.mk (return configAt config (← files.read config))
    let g ← ExceptT.mk (return graphAt graph (← files.read graph))
    let r ← ExceptT.mk (return runtimeFor c g chunk)
    let notes := notesOn (chunkFor g chunk) r
    match out with
    | none => return ⟨r.code, notes⟩
    | some path =>
      if ← files.write path r.code then return ⟨"", notes ++ [.written path]⟩
      else throw (.unwritable path)

/-- Does what a command line asks for in a folder, and gives the folder afterwards. -/
def Invocation.runIn (i : Invocation) (folder : Folder) : Except JobError Outcome × Folder :=
  (i.job.run Folder.access i.config).run.run folder

end ChunkLoading.CommandLine
