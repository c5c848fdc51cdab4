import ChunkLoading.Toml.Reader
import ChunkLoading.Config.Validity

/-!
# Configurations in TOML

A document has a section for the project and may have sections on output, loading and hot updates.
Unknown keys are ignored, and what is not given takes its default. A section may also be written as
an array of its settings in their order.
-/

namespace ChunkLoading

namespace Toml

/-- The text of a string. -/
def string? : Toml → Option String
  | .string s => some s
  | _ => none

def boolean? : Toml → Option Bool
  | .boolean b => some b
  | _ => none

/-- The value of an integer that is not negative. -/
def natural? : Toml → Option Nat
  | .integer (.ofNat n) => some n
  | _ => none

/-- Whether a value is an array or a table without content. -/
def isHollow : Toml → Bool
  | .array [] | .inlineTable [] | .table _ [] => true
  | _ => false

/-- The word that a value stands for: a string, or the only key of a table with no content under
it. -/
def word? : Toml → Option String
  | .string s => some s
  | .inlineTable [(k, v)] | .table _ [(k, v)] => if v.isHollow then some k else none
  | _ => none

/-- The settings of a section that is declared with the given names. A date has parts but no
settings. -/
def settings? (names : List String) : Toml → Option (Fields Toml)
  | .table _ es | .inlineTable es => some es
  | .array vs => some (names.zip vs)
  | .tables ts => some (names.zip (ts.map (.table .header)))
  | .dateTime _ => some []
  | _ => none

end Toml

/-! ## Sections -/

def ProjectSettings.ofToml? (v : Toml) : Option ProjectSettings := do
  let fs ← v.settings? ["name", "version"]
  return {
    name := ← fs.required? "name" Toml.string?
    version := ← fs.withDefault? "version" defaultVersion Toml.string? }

def OutputSettings.ofToml? (v : Toml) : Option OutputSettings := do
  let fs ← v.settings? ["public_path", "chunk_filename", "global_namespace", "delivery_array"]
  return {
    publicPath := ← fs.withDefault? "public_path" standard.publicPath Toml.string?
    chunkFilename := ← fs.withDefault? "chunk_filename" standard.chunkFilename Toml.string?
    globalNamespace := ← fs.withDefault? "global_namespace" standard.globalNamespace Toml.string?
    deliveryArray := ← fs.withDefault? "delivery_array" standard.deliveryArray Toml.string? }

def LoadingMethod.ofToml? (v : Toml) : Option LoadingMethod := do
  ofWord? (← v.word?)

def LoadingSettings.ofToml? (v : Toml) : Option LoadingSettings := do
  let fs ← v.settings? ["method", "timeout_ms", "cross_origin", "resource_type", "nonce"]
  return {
    method := ← fs.withDefault? "method" standard.method LoadingMethod.ofToml?
    timeoutMillis := ← fs.withDefault? "timeout_ms" standard.timeoutMillis Toml.natural?
    crossOrigin := ← fs.optional? "cross_origin" Toml.string?
    resourceType := ← fs.optional? "resource_type" Toml.string?
    nonce := ← fs.optional? "nonce" Toml.string? }

def HotSettings.ofToml? (v : Toml) : Option HotSettings := do
  let fs ← v.settings?
    ["enabled", "chunk_address_template", "entry_address_template", "global", "runtime"]
  return {
    enabled := ← fs.withDefault? "enabled" standard.enabled Toml.boolean?
    chunkAddress := ← fs.withDefault? "chunk_address_template" standard.chunkAddress Toml.string?
    entryAddress := ← fs.withDefault? "entry_address_template" standard.entryAddress Toml.string?
    callback := ← fs.withDefault? "global" standard.callback Toml.string?
    runtime := ← fs.withDefault? "runtime" standard.runtime Toml.string? }

namespace Config

/-- The configuration that a document's tables give. -/
def ofEntries? (es : Toml.Entries) : Option Config := do
  return {
    project := ← es.required? "project" ProjectSettings.ofToml?
    output := ← es.withDefault? "output" .standard OutputSettings.ofToml?
    loading := ← es.withDefault? "loading" .standard LoadingSettings.ofToml?
    hot := ← es.withDefault? "hot" .standard HotSettings.ofToml? }

/-- Why a configuration cannot be read from a text. -/
inductive ReadError where
  /-- The text is no document with the settings of a configuration. -/
  | malformed
  | invalid (fault : ConfigFault)
  deriving DecidableEq

def ReadError.message : ReadError → String
  | .malformed => "Failed to parse chunkwise.toml"
  | .invalid fault => fault.message

/-- Reads a valid configuration. -/
def read (text : String) : Except ReadError Config :=
  match (Toml.read? text).bind ofEntries? with
  | none => .error .malformed
  | some c =>
    match c.validate with
    | .ok () => .ok c
    | .error fault => .error (.invalid fault)

end Config

end ChunkLoading
