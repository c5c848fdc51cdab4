import ChunkLoading.Emitted.FixedCode
import ChunkLoading.Page.Worklist

/-!
# Sections of an emitted runtime

An emitted runtime is a header, then sections between blank lines, inside one function. A section
holds the data that its code is made from; all data is written as JSON literals. `Section.text`
gives the code.
-/

namespace ChunkLoading

/-- A call made when the runtime starts. -/
inductive StartupCall where
  /-- Hands entries to the scheduler. -/
  | deferEntries (entries : List DeferredEntry)
  /-- Runs an entry at once. -/
  | runEntry (entry : ModuleId)
  | prefetch (chunks : List ChunkId)
  deriving DecidableEq

/-- The resources that scripts and hints are made with. -/
structure ResourceSettings where
  publicPath : String
  nonce : Option String
  crossOrigin : Option String
  timeoutMillis : Nat
  resourceType : Option String
  deriving DecidableEq

/-- What the update section is made from; the addresses are expressions. -/
structure UpdateSettings where
  hash : String
  chunkAddress : String
  manifestAddress : String
  chunk : ChunkId
  namespaceName : String
  callback : String
  deriving DecidableEq

inductive Section where
  | requireFunction
  | resources (settings : ResourceSettings)
  | installedChunks (chunk : ChunkId)
  | ensureChunk
  | filenames (names : List (String × String))
  | scriptLoader
  | scriptHandler
  | noopHandler
  /-- Hints: prefetching if asked for, preloading if there are children. -/
  | hints (prefetch : Bool) (preloads : Option (List (String × List ChunkId)))
  | scheduler
  | hotUpdate (settings : UpdateSettings)
  | merger (prefetch deferral : Bool) (namespaceName deliveryArray : String)
  | startup (calls : List StartupCall)
  deriving DecidableEq

/-! ## Literals -/

namespace Literal

def string (s : String) : String := (Json.ofString s).text

def ids (cs : List ChunkId) : String := (Json.ofList Id.toJson cs).text

/-- A table of strings. -/
def strings (m : List (String × String)) : String :=
  (Json.ofMembers (m.map fun e => (e.1, Json.ofString e.2))).text

/-- A table of lists of chunks. -/
def idLists (m : List (String × List ChunkId)) : String :=
  (Json.ofMembers (m.map fun e => (e.1, Json.ofList Id.toJson e.2))).text

/-- An entry is the pair of its module and its chunks. -/
def entries (es : List DeferredEntry) : String :=
  (Json.ofList (fun e : DeferredEntry =>
    .array [e.entry.toJson, Json.ofList Id.toJson e.chunks]) es).text

/-- The attributes of injected scripts, absent ones left out. -/
def resources (s : ResourceSettings) : String :=
  (Json.ofMembers <|
    (s.crossOrigin.toList.map fun v => ("crossOrigin", Json.ofString v))
    ++ [("timeout", Json.ofNat s.timeoutMillis)]
    ++ (s.resourceType.toList.map fun v => ("type", Json.ofString v))).text

end Literal

/-! ## Code -/

/-- The text of lines, each with its end. -/
def unlines (ls : List String) : String := String.join (ls.map (· ++ "\n"))

def ResourceSettings.lines (s : ResourceSettings) : List String :=
  ["  __chunkwise_require__.p = " ++ Literal.string s.publicPath ++ ";"]
  ++ (s.nonce.toList.map fun n => "  __chunkwise_require__.nc = " ++ Literal.string n ++ ";")
  ++ ["  var resourceOptions = " ++ Literal.resources s ++ ";"]

/-- The global that updated chunks call. -/
def UpdateSettings.callbackExpr (s : UpdateSettings) : String :=
  s.namespaceName ++ "[" ++ Literal.string s.callback ++ "]"

def UpdateSettings.lines (s : UpdateSettings) : List String :=
  ["  var currentHash = " ++ Literal.string s.hash ++ ";",
    "  __chunkwise_require__.h = () => currentHash;",
    "  __chunkwise_require__.hu = (chunkId) => " ++ s.chunkAddress ++ ";",
    "  __chunkwise_require__.hmrF = () => " ++ s.manifestAddress ++ ";",
    "  var hotLoadedChunks = \x7b " ++ s.chunk.literal ++ ": true \x7d;",
    ""]
  ++ FixedCode.hotUpdate
  ++ ["  var parentHotUpdateCallback = " ++ s.callbackExpr ++ ";",
    "  " ++ s.callbackExpr ++ " = hotUpdateCallback;"]

/-- The array through which chunks are delivered, made if it is not there. -/
def deliveryArrayLine (namespaceName deliveryArray : String) : String :=
  let expr := namespaceName ++ "[" ++ Literal.string deliveryArray ++ "]"
  "  var deliveryArray = (" ++ expr ++ " = " ++ expr ++ " || []);"

def mergerLines (prefetch deferral : Bool) (namespaceName deliveryArray : String) : List String :=
  FixedCode.deliverHead
  ++ (if prefetch then FixedCode.deliverPrefetch else [])
  ++ FixedCode.deliverResolve
  ++ (if deferral then FixedCode.deliverEntries else [])
  ++ ["  \x7d;", "", deliveryArrayLine namespaceName deliveryArray]
  ++ FixedCode.install

def StartupCall.line : StartupCall → String
  | .deferEntries es => "  __chunkwise_require__.O(" ++ Literal.entries es ++ ");"
  | .runEntry m => "  __chunkwise_require__(" ++ m.literal ++ ");"
  | .prefetch cs => "  " ++ Literal.ids cs ++ ".forEach(__chunkwise_require__.F.j);"

def hintLines (prefetch : Bool) (preloads : Option (List (String × List ChunkId))) : List String :=
  FixedCode.hintFunction
  ++ (if prefetch then FixedCode.prefetchFunction else [])
  ++ match preloads with
    | none => []
    | some table =>
      ("  var chunkPreloads = " ++ Literal.idLists table ++ ";") :: FixedCode.preloadFunction

namespace Section

def lines : Section → List String
  | requireFunction => FixedCode.requireFunction
  | resources s => s.lines
  | installedChunks c =>
    ["  // undefined = not requested, null = hinted, [resolve, reject, promise] = loading, 0 = loaded",
      "  var installedChunks = \x7b",
      "    " ++ c.literal ++ ": 0",
      "  \x7d;"]
  | ensureChunk => FixedCode.ensureChunk
  | filenames names =>
    ["  var chunkFilenames = " ++ Literal.strings names ++ ";",
      "  __chunkwise_require__.u = (chunkId) => chunkFilenames[chunkId] || chunkId + \".js\";"]
  | scriptLoader => FixedCode.scriptLoader
  | scriptHandler => FixedCode.scriptHandler
  | noopHandler => FixedCode.noopHandler
  | hints prefetch preloads => hintLines prefetch preloads
  | scheduler => FixedCode.scheduler
  | hotUpdate s => s.lines
  | merger prefetch deferral namespaceName deliveryArray =>
    mergerLines prefetch deferral namespaceName deliveryArray
  | startup calls => calls.map StartupCall.line

def text (s : Section) : String := unlines s.lines

end Section

end ChunkLoading
