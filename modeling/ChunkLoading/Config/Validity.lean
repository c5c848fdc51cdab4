import ChunkLoading.Config.Basic
import ChunkLoading.Template
import ChunkLoading.Text.Identifier

/-!
# Valid configurations

Loads have time to finish, globals have usable names, and templates can be read; the address of an
updated chunk names the chunk, and both update addresses name the build that they update.
`validate` reports the first fault it meets.
-/

namespace ChunkLoading

/-- The settings that faults speak of. -/
inductive Setting where
  | globalNamespace
  | deliveryArray
  | hotCallback
  | chunkFilename
  | hotChunkAddress
  | hotEntryAddress
  deriving DecidableEq

def Setting.key : Setting → String
  | .globalNamespace => "output.global_namespace"
  | .deliveryArray => "output.delivery_array"
  | .hotCallback => "hot.global"
  | .chunkFilename => "output.chunk_filename"
  | .hotChunkAddress => "hot.chunk_address_template"
  | .hotEntryAddress => "hot.entry_address_template"

/-- A fault of a configuration. -/
inductive ConfigFault where
  | noTimeout
  | notIdentifier (setting : Setting) (name : String)
  | badTemplate (setting : Setting) (error : TemplateError)
  | missing (setting : Setting) (placeholder : Placeholder)
  deriving DecidableEq

def ConfigFault.message : ConfigFault → String
  | .noTimeout => "loading.timeout_ms must be greater than zero"
  | .notIdentifier s name => s.key ++ " must be a JavaScript identifier, got '" ++ name ++ "'"
  | .badTemplate s e => "Invalid " ++ s.key ++ ": " ++ e.message
  | .missing s p => s.key ++ " must contain [" ++ p.word ++ "]"

namespace Config

def checkIdentifier (s : Setting) (name : String) : Except ConfigFault Unit :=
  if Identifier.isIdentifier name then .ok () else .error (.notIdentifier s name)

def readTemplate (s : Setting) (source : String) : Except ConfigFault Template :=
  (Template.parse source).mapError (.badTemplate s)

def checkUses (s : Setting) (t : Template) (p : Placeholder) : Except ConfigFault Unit :=
  if t.uses p then .ok () else .error (.missing s p)

/-- Looks for the first fault. -/
def validate (c : Config) : Except ConfigFault Unit := do
  if c.loading.timeoutMillis = 0 then .error .noTimeout
  checkIdentifier .globalNamespace c.output.globalNamespace
  checkIdentifier .deliveryArray c.output.deliveryArray
  checkIdentifier .hotCallback c.hot.callback
  let _ ← readTemplate .chunkFilename c.output.chunkFilename
  let chunk ← readTemplate .hotChunkAddress c.hot.chunkAddress
  checkUses .hotChunkAddress chunk .id
  let entry ← readTemplate .hotEntryAddress c.hot.entryAddress
  checkUses .hotChunkAddress chunk .fullHash
  checkUses .hotEntryAddress entry .fullHash

end Config

end ChunkLoading
