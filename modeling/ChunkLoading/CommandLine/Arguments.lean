import ChunkLoading.CommandLine.Basic
import ChunkLoading.Data.Assoc

/-!
# Reading arguments

Options stand before the command word or after it. A value follows its option as the next argument
or is attached to it; what looks like an option is never taken for a value. The value of an option
is looked at when the next option comes or the arguments end, so faults of later words can come
first.
-/

namespace ChunkLoading.CommandLine

/-! ## Single arguments -/

/-- The shapes of an argument. -/
inductive Argument where
  /-- Two dashes alone, after which nothing is an option. -/
  | escape
  | long (name : String) (value : Option String)
  | short (letters : List Char)
  | plain (text : String)
  deriving DecidableEq

/-- Splits a long option at its first equals sign. -/
def Argument.ofLong (cs : List Char) : Argument :=
  match cs.span (· != '=') with
  | (name, '=' :: value) => .long (String.ofList name) (some (String.ofList value))
  | (name, _) => .long (String.ofList name) none

def Argument.ofText (text : String) : Argument :=
  match text.toList with
  | ['-', '-'] => .escape
  | '-' :: '-' :: cs => ofLong cs
  | '-' :: c :: cs => .short (c :: cs)
  | _ => .plain text

/-! ## Options that are read -/

/-- The options read so far; the last one may still wait for its value, or for the next option
before its value is looked at. -/
structure Given where
  values : Assoc Flag String
  pending : Option (Flag × Option String)

namespace Given

def empty : Given := ⟨.empty, none⟩

/-- Whether the next plain argument is a value. -/
def awaitsValue (s : Given) : Bool :=
  match s.pending with
  | some (_, none) => true
  | _ => false

/-- Takes an argument as the value that is awaited. -/
def supply (s : Given) (value : String) : Given :=
  { s with pending := s.pending.map fun p => (p.1, some value) }

/-- Takes an option with its value. -/
def accept (s : Given) (flag : Flag) (value : String) : Except UsageError Given :=
  if s.values.contains flag then .error (.repeated flag)
  else if flag.takesPath && value.isEmpty then .error (.noValue flag)
  else .ok { s with values := s.values.set flag value }

/-- Looks at the option that is pending. -/
def settle (s : Given) : Except UsageError Given :=
  match s.pending with
  | none => .ok s
  | some (flag, none) => .error (.noValue flag)
  | some (flag, some value) => accept { s with pending := none } flag value

/-- Takes an option without a value. -/
def raise (s : Given) (flag : Flag) : Except UsageError Given := do
  let s ← s.settle
  match flag with
  | .help => .error .help
  | .version => .error .version
  | flag => s.accept flag ""

/-- Takes an option with the value attached to it, or has it wait for one. -/
def start (s : Given) (flag : Flag) (attached : Option String) : Except UsageError Given := do
  let s ← s.settle
  match attached with
  | some value => s.accept flag value
  | none => .ok { s with pending := some (flag, none) }

/-- Takes a long option. -/
def takeLong (s : Given) (flags : List Flag) (name : String) (attached : Option String) :
    Except UsageError Given :=
  match flags.find? (·.long = name) with
  | none => .error (.unknownArgument ("--" ++ name))
  | some flag =>
    if flag.takesValue then s.start flag attached
    else if attached.isSome then .error (.extraValue flag)
    else s.raise flag

/-- The value that is attached to a letter; an equals sign may stand before it. -/
def attachedTo : List Char → Option String
  | [] => none
  | '=' :: cs => some (String.ofList cs)
  | cs => some (String.ofList cs)

/-- Takes short options in one argument; the first that takes a value takes the rest as it. -/
def takeShort (flags : List Flag) : Given → List Char → Except UsageError Given
  | s, [] => .ok s
  | s, c :: cs =>
    match flags.find? (·.short? = some c) with
    | none => .error (.unknownArgument (String.ofList ['-', c]))
    | some flag =>
      if flag.takesValue then s.start flag (attachedTo cs)
      else do takeShort flags (← s.raise flag) cs

/-- Takes the arguments after a command word. -/
def takeAll (flags : List Flag) : Given → List String → Except UsageError Given
  | s, [] => s.settle
  | s, text :: rest =>
    match Argument.ofText text with
    | .escape =>
      match rest with
      | [] => s.settle
      | text :: _ => .error (.unknownArgument text)
    | .plain text =>
      if s.awaitsValue then takeAll flags (s.supply text) rest else .error (.unknownArgument text)
    | .long name attached => do takeAll flags (← s.takeLong flags name attached) rest
    | .short letters => do takeAll flags (← takeShort flags s letters) rest

/-- An option that must be there. -/
def require (s : Given) (flag : Flag) : Except UsageError String :=
  match s.values.get? flag with
  | some value => .ok value
  | none => .error (.missing flag)

/-- The job of a command with its options. -/
def job (s : Given) : Verb → Except UsageError Job
  | .analyze => return .analyze (← s.require .graph) (s.values.get? .chunk)
  | .generate => return .generate (← s.require .graph) (← s.require .chunk) (s.values.get? .out)

end Given

/-! ## Whole command lines -/

/-- The words after `help` must name a command, or none. -/
def readHelp : List String → UsageError
  | [] => .help
  | word :: rest =>
    if word = "help" ∨ (Verb.ofWord? word).isSome then
      match rest with
      | [] => .help
      | word :: _ => .unknownCommand word
    else .unknownCommand word

/-- The fault of a line without a command word. -/
def withoutCommand (s : Given) : UsageError :=
  match s.settle with
  | .error e => e
  | .ok s => if s.values.isEmpty then .nothing else .noCommand

/-- Reads the arguments after a command word; an option given there wins over one given before. -/
def readCommand (before : Given) (verb : Verb) (arguments : List String) :
    Except UsageError Invocation := do
  let after ← Given.empty.takeAll verb.flags arguments
  let job ← after.job verb
  let before ← before.settle
  let given (flag : Flag) : Option String := (after.values.get? flag).or (before.values.get? flag)
  return {
    job := job
    config := (given .config).getD defaultConfig
    verbose := (given .verbose).isSome }

/-- Reads arguments up to the command word and then the rest. -/
def readFrom : Given → List String → Except UsageError Invocation
  | s, [] => .error (withoutCommand s)
  | s, text :: rest =>
    match Argument.ofText text with
    | .escape =>
      match rest with
      | [] => .error (withoutCommand s)
      | word :: _ =>
        if word = "help" ∨ (Verb.ofWord? word).isSome then .error (.unknownArgument word)
        else .error (.unknownCommand word)
    | .plain word =>
      if s.awaitsValue then readFrom (s.supply word) rest
      else if word = "help" then .error (readHelp rest)
      else
        match Verb.ofWord? word with
        | none => .error (.unknownCommand word)
        | some verb => readCommand s verb rest
    | .long name attached => do readFrom (← s.takeLong Flag.everywhere name attached) rest
    | .short letters => do readFrom (← Given.takeShort Flag.everywhere s letters) rest

/-- Reads the arguments of a command line. -/
def Invocation.read (arguments : List String) : Except UsageError Invocation :=
  readFrom .empty arguments

end ChunkLoading.CommandLine
