import ChunkLoading.Config.Basic
import ChunkLoading.Graph.Query
import ChunkLoading.Text.Measure

/-!
# Loading options

The attributes of every resource that a runtime asks for, and the addresses of chunks.
-/

namespace ChunkLoading

structure Options where
  /-- What comes before every filename. -/
  publicPath : String
  /-- The filenames that the build knows. -/
  filenames : List (ChunkId × String)
  timeoutMillis : Nat
  nonce : Option String
  crossOrigin : Option String
  resourceType : Option String
  deriving DecidableEq

namespace Options

def standard : Options where
  publicPath := "/"
  filenames := []
  timeoutMillis := 120000
  nonce := none
  crossOrigin := none
  resourceType := none

/-- The options of a configured build. -/
def ofConfig (config : Config) (g : Graph) : Except TemplateError Options := do
  let template ← Template.parse config.output.chunkFilename
  return {
    publicPath := config.output.publicPath
    filenames := ← g.filenames template
    timeoutMillis := config.loading.timeoutMillis
    nonce := config.loading.nonce
    crossOrigin := config.loading.crossOrigin
    resourceType := config.loading.resourceType }

/-- The filename of a chunk; one that the build does not know is named by its id. -/
def filename (o : Options) (c : ChunkId) : String :=
  (o.filenames.lookup c).getD (c.text ++ ".js")

/-- The full address of a chunk. -/
def address (o : Options) (c : ChunkId) : String := o.publicPath ++ o.filename c

def describe (o : Options) : String :=
  Quoted.record "RuntimeOptions"
    [("public_path", Quoted.string o.publicPath),
      ("timeout", Measure.limit o.timeoutMillis),
      ("nonce", Quoted.option Quoted.string o.nonce),
      ("cross_origin", Quoted.option Quoted.string o.crossOrigin),
      ("resource_type", Quoted.option Quoted.string o.resourceType)]

end Options

end ChunkLoading
