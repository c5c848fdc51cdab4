/-!
# Named fields

The fields that a record gives, by name, and how typed data is taken from them. A missing field
takes its default, if it has one.
-/

namespace ChunkLoading

/-- The fields that a record gives, by name. -/
abbrev Fields (ν : Type) := List (String × ν)

namespace Fields

variable {α ν : Type}

/-- A field that must be there. -/
def required? (fs : Fields ν) (name : String) (read : ν → Option α) : Option α := do
  read (← fs.lookup name)

/-- A field that has a default. -/
def withDefault? (fs : Fields ν) (name : String) (default : α) (read : ν → Option α) : Option α :=
  match fs.lookup name with
  | none => some default
  | some v => read v

/-- A field that may be missing. -/
def optional? (fs : Fields ν) (name : String) (read : ν → Option α) : Option (Option α) :=
  fs.withDefault? name none fun v => (read v).map some

end Fields

end ChunkLoading
