import ChunkLoading.Graph.Basic

/-!
# Chunk graphs in JSON

A graph is written with its fields in the order of their declaration, absent optional fields left
out. Reading takes records as `Json.Record` describes them.
-/

namespace ChunkLoading

/-- The member of an optional field, if it has a value. -/
def Json.optionalMember {α : Type} (name : String) (write : α → Json) :
    Option α → List (String × Json)
  | none => []
  | some x => [(name, write x)]

namespace Chunk

def toJson (c : Chunk) : Json :=
  .ofMembers <|
    [("id", c.id.toJson)]
    ++ Json.optionalMember "name" .ofString c.name
    ++ [("modules", .ofList Id.toJson c.modules)]
    ++ Json.optionalMember "hash" .ofString c.hash

def ofJson? (v : Json) : Option Chunk := do
  let fs ← v.fields? ["id", "name", "modules", "hash"]
  return {
    id := ← fs.required? "id" Id.ofJson?
    name := ← fs.withDefault? "name" none (Json.nullable? Json.string?)
    modules := ← fs.withDefault? "modules" [] (Json.list? Id.ofJson?)
    hash := ← fs.withDefault? "hash" none (Json.nullable? Json.string?) }

end Chunk

namespace GroupKind

def word : GroupKind → String
  | .entry => "entry"
  | .async => "async"

def ofWord? : String → Option GroupKind
  | "entry" => some .entry
  | "async" => some .async
  | _ => none

/-- A kind is its word, or an object with that word as the key of a null. -/
def ofJson? : Json → Option GroupKind
  | .object [(k, .null)] => do ofWord? (String.ofList (← Json.unescape? k))
  | v => do ofWord? (← v.string?)

end GroupKind

namespace Group

/-- An order is an integer token of 32 bits. -/
def order? (v : Json) : Option Int32 := do
  let n ← v.int?
  if -2147483648 ≤ n ∧ n ≤ 2147483647 then some (Int32.ofInt n) else none

def toJson (g : Group) : Json :=
  .ofMembers <|
    [("id", .ofString g.id), ("kind", .ofString g.kind.word),
      ("chunks", .ofList Id.toJson g.chunks), ("children", .ofList .ofString g.children)]
    ++ Json.optionalMember "entry_module" Id.toJson g.entryModule
    ++ Json.optionalMember "prefetch_order" (Json.ofInt ·.toInt) g.prefetchOrder
    ++ Json.optionalMember "preload_order" (Json.ofInt ·.toInt) g.preloadOrder

def ofJson? (v : Json) : Option Group := do
  let fs ← v.fields?
    ["id", "kind", "chunks", "children", "entry_module", "prefetch_order", "preload_order"]
  return {
    id := ← fs.required? "id" Json.string?
    kind := ← fs.required? "kind" GroupKind.ofJson?
    chunks := ← fs.required? "chunks" (Json.list? Id.ofJson?)
    children := ← fs.withDefault? "children" [] (Json.list? Json.string?)
    entryModule := ← fs.withDefault? "entry_module" none (Json.nullable? Id.ofJson?)
    prefetchOrder := ← fs.withDefault? "prefetch_order" none (Json.nullable? order?)
    preloadOrder := ← fs.withDefault? "preload_order" none (Json.nullable? order?) }

end Group

namespace AsyncBlock

def toJson (b : AsyncBlock) : Json :=
  .ofMembers [("module", b.module.toJson), ("group", .ofString b.group)]

def ofJson? (v : Json) : Option AsyncBlock := do
  let fs ← v.fields? ["module", "group"]
  return {
    module := ← fs.required? "module" Id.ofJson?
    group := ← fs.required? "group" Json.string? }

end AsyncBlock

namespace Graph

def toJson (g : Graph) : Json :=
  .ofMembers <|
    Json.optionalMember "hash" .ofString g.hash
    ++ [("chunks", .ofList Chunk.toJson g.chunks), ("groups", .ofList Group.toJson g.groups),
      ("blocks", .ofList AsyncBlock.toJson g.blocks)]

def ofJson? (v : Json) : Option Graph := do
  let fs ← v.fields? ["hash", "chunks", "groups", "blocks"]
  return {
    hash := ← fs.withDefault? "hash" none (Json.nullable? Json.string?)
    chunks := ← fs.required? "chunks" (Json.list? Chunk.ofJson?)
    groups := ← fs.withDefault? "groups" [] (Json.list? Group.ofJson?)
    blocks := ← fs.withDefault? "blocks" [] (Json.list? AsyncBlock.ofJson?) }

/-- The compact text of a graph. -/
def text (g : Graph) : String := g.toJson.text

/-- Reads a graph without looking at its references. -/
def ofText? (s : String) : Option Graph := do ofJson? (← Json.read? s)

/-- The hash of the build: the given one, or else the fingerprint of the graph's own text. -/
def fullHash (g : Graph) : String := g.hash.getD (Sha256.fingerprintText g.text)

end Graph

end ChunkLoading
