/-!
# Configuration

The settings of a project: where its chunks are found, how they are loaded, and how updates reach
a running page. Every setting but the project's name has a default.
-/

namespace ChunkLoading

structure ProjectSettings where
  name : String
  version : String
  deriving DecidableEq

structure OutputSettings where
  /-- What comes before every filename in an address. -/
  publicPath : String
  /-- The template of filenames. -/
  chunkFilename : String
  /-- The global object that holds the delivery array. -/
  globalNamespace : String
  /-- The name of the array into which chunks push themselves. -/
  deliveryArray : String
  deriving DecidableEq

/-- How chunks are brought in on demand. -/
inductive LoadingMethod where
  /-- By script elements whose code pushes into the delivery array. -/
  | jsonp
  /-- Not at all. -/
  | none
  deriving DecidableEq

structure LoadingSettings where
  method : LoadingMethod
  /-- The time limit of a load, in milliseconds. -/
  timeoutMillis : Nat
  crossOrigin : Option String
  resourceType : Option String
  nonce : Option String
  deriving DecidableEq

structure HotSettings where
  /-- Whether updates of a running page are supported. -/
  enabled : Bool
  /-- The template of addresses of updated chunks. -/
  chunkAddress : String
  /-- The template of the address of the update manifest. -/
  entryAddress : String
  /-- The global function that updated chunks call. -/
  callback : String
  /-- The name of the runtime in addresses. -/
  runtime : String
  deriving DecidableEq

structure Config where
  project : ProjectSettings
  output : OutputSettings
  loading : LoadingSettings
  hot : HotSettings
  deriving DecidableEq

def LoadingMethod.word : LoadingMethod → String
  | .jsonp => "jsonp"
  | .none => "none"

def LoadingMethod.ofWord? : String → Option LoadingMethod
  | "jsonp" => some .jsonp
  | "none" => some .none
  | _ => Option.none

def ProjectSettings.defaultVersion : String := "0.1.0"

def OutputSettings.standard : OutputSettings where
  publicPath := "/"
  chunkFilename := "[name].[contenthash:8].js"
  globalNamespace := "self"
  deliveryArray := "chunkwiseChunks"

def LoadingSettings.standard : LoadingSettings where
  method := .jsonp
  timeoutMillis := 120000
  crossOrigin := none
  resourceType := none
  nonce := none

def HotSettings.standard : HotSettings where
  enabled := false
  chunkAddress := "[id].[fullhash].hot-update.js"
  entryAddress := "[runtime].[fullhash].hot-update.json"
  callback := "chunkwiseHotUpdate"
  runtime := "main"

/-- The settings of a project without a configuration. -/
def Config.standard : Config where
  project := ⟨"my-app", ProjectSettings.defaultVersion⟩
  output := .standard
  loading := .standard
  hot := .standard

end ChunkLoading
