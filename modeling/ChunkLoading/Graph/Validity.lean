import ChunkLoading.Graph.Record

/-!
# Valid graphs

A graph is valid when the texts of its chunk ids differ, the ids of its groups differ, and all
chunks and groups that it refers to are there. `validate` reports the first fault it meets.
-/

namespace ChunkLoading

/-- A fault of a graph. -/
inductive GraphFault where
  | duplicateChunk (id : ChunkId)
  | ambiguousChunk (id : ChunkId)
  | duplicateGroup (id : String)
  | unknownChunk (group : String) (chunk : ChunkId)
  | unknownChild (group child : String)
  | unknownTarget (module : ModuleId) (group : String)
  deriving DecidableEq

def GraphFault.message : GraphFault → String
  | .duplicateChunk id => "Duplicate chunk id '" ++ id.text ++ "'"
  | .ambiguousChunk id =>
    "Chunk id '" ++ id.text ++ "' is used both as a number and as a string"
  | .duplicateGroup id => "Duplicate chunk group id '" ++ id ++ "'"
  | .unknownChunk group chunk =>
    "Chunk group '" ++ group ++ "' references unknown chunk '" ++ chunk.text ++ "'"
  | .unknownChild group child =>
    "Chunk group '" ++ group ++ "' references unknown child group '" ++ child ++ "'"
  | .unknownTarget module group =>
    "Async block in module '" ++ module.text ++ "' targets unknown chunk group '" ++ group ++ "'"

namespace Graph

/-- Passes when a test holds. -/
def expect (ok : Bool) (fault : GraphFault) : Except GraphFault Unit :=
  if ok then .ok () else .error fault

/-- Chunk ids are keys of emitted tables by their text, so no two may share one; `seen` are the
ids before. -/
def checkChunkIds (seen : List ChunkId) : List ChunkId → Except GraphFault Unit
  | [] => .ok ()
  | id :: ids => do
    match seen.find? (·.text = id.text) with
    | some other => .error (if other = id then .duplicateChunk id else .ambiguousChunk id)
    | none => checkChunkIds (id :: seen) ids

def checkGroupIds (seen : List String) : List String → Except GraphFault Unit
  | [] => .ok ()
  | id :: ids => do
    expect (!seen.contains id) (.duplicateGroup id)
    checkGroupIds (id :: seen) ids

/-- All that a group refers to is there. -/
def checkGroup (g : Graph) (group : Group) : Except GraphFault Unit := do
  group.chunks.forM fun c => expect ((g.chunks.map (·.id)).contains c) (.unknownChunk group.id c)
  group.children.forM fun c =>
    expect ((g.groups.map (·.id)).contains c) (.unknownChild group.id c)

def checkBlock (g : Graph) (block : AsyncBlock) : Except GraphFault Unit :=
  expect ((g.groups.map (·.id)).contains block.group) (.unknownTarget block.module block.group)

/-- Looks for the first fault: chunk ids, group ids, the groups' references, the blocks'. -/
def validate (g : Graph) : Except GraphFault Unit := do
  checkChunkIds [] (g.chunks.map (·.id))
  checkGroupIds [] (g.groups.map (·.id))
  g.groups.forM g.checkGroup
  g.blocks.forM g.checkBlock

/-- Why a graph cannot be read from a text. -/
inductive ReadError where
  | malformed
  /-- The text is malformed, and was not to be checked further. -/
  | unread
  | invalid (fault : GraphFault)
  deriving DecidableEq

def ReadError.message : ReadError → String
  | .malformed => "Failed to parse chunk graph"
  | .unread => ""
  | .invalid fault => fault.message

/-- Reads a valid graph. -/
def read (s : String) : Except ReadError Graph :=
  match ofText? s with
  | none => .error .malformed
  | some g =>
    match g.validate with
    | .ok () => .ok g
    | .error fault => .error (.invalid fault)

/-- Reads a graph that need not be valid. -/
def readUnchecked (s : String) : Except ReadError Graph :=
  match ofText? s with
  | none => .error .unread
  | some g => .ok g

end Graph

end ChunkLoading
