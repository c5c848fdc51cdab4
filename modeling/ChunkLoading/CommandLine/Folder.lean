import ChunkLoading.Data.Assoc

/-!
# Files

How jobs reach files, and a folder of files as a value. A folder is known by what `read` gives for
each path; a file can be written where its parent folder is.
-/

namespace ChunkLoading.CommandLine

/-- What there is at a path. -/
inductive Contents where
  | absent
  /-- Something that is no readable file. -/
  | unreadable
  | text (s : String)
  deriving DecidableEq

/-- Reading and writing of files; writing tells whether it succeeded. -/
structure FileAccess (m : Type → Type) where
  read : String → m Contents
  write : String → String → m Bool

/-- The part of a text before its first slash, and the parts after it between slashes. -/
def splitAtSlashes : List Char → List Char × List (List Char)
  | [] => ([], [])
  | c :: cs =>
    let (part, parts) := splitAtSlashes cs
    if c = '/' then ([], part :: parts) else (c :: part, parts)

/-- The parts of a path between its slashes. -/
def pathParts (path : String) : List String :=
  let (part, parts) := splitAtSlashes path.toList
  (part :: parts).map String.ofList

/-- The files of a folder and of the folders in it, by the parts of their paths. -/
structure Folder where
  files : Assoc (List String) String

namespace Folder

/-- Whether there is a folder: the folder itself, or one on the way to a file. -/
def isFolder (f : Folder) (place : List String) : Bool :=
  place.isEmpty || f.files.keys.any fun p => place.isPrefixOf p && place.length < p.length

/-- Goes one part of a path further, which only folders allow. -/
def goTo (f : Folder) (place : List String) (part : String) : Option (List String) :=
  if !f.isFolder place then none
  else if part = "" ∨ part = "." then some place
  else if part = ".." then (if place = [] then none else some place.dropLast)
  else some (place ++ [part])

/-- The place that a path leads to; paths out of the folder lead nowhere. -/
def place? (f : Folder) (path : String) : Option (List String) :=
  if path.isEmpty || path.front = '/' then none
  else (pathParts path).foldlM f.goTo []

def read (f : Folder) (path : String) : Contents :=
  match f.place? path with
  | none => .absent
  | some place =>
    match f.files.get? place with
    | some s => .text s
    | none => if f.isFolder place then .unreadable else .absent

def write? (f : Folder) (path text : String) : Option Folder := do
  let place ← f.place? path
  if f.isFolder place then none else some ⟨f.files.set place text⟩

/-- The folder with files at the given paths. -/
def ofFiles (files : List (String × String)) : Folder :=
  ⟨.ofList (files.map fun p => ((pathParts p.1).filter fun part => part ≠ "" ∧ part ≠ ".", p.2))⟩

/-- Access to the files of a folder that is the state of a computation. -/
def access : FileAccess (StateM Folder) where
  read path := return (← get).read path
  write path text := do
    match (← get).write? path text with
    | none => return false
    | some f => set f; return true

end Folder

end ChunkLoading.CommandLine
