/-!
# The command line

The two jobs that a command line can ask for, the options they take, and what can be wrong with the
arguments.
-/

namespace ChunkLoading.CommandLine

inductive Job where
  /-- Shows the requirements of one chunk or of all. -/
  | analyze (graph : String) (chunk : Option String)
  /-- Emits the runtime of a chunk, into a file or on standard output. -/
  | generate (graph chunk : String) (out : Option String)
  deriving DecidableEq

/-- What a command line asks for. -/
structure Invocation where
  job : Job
  /-- Where the configuration is. -/
  config : String
  verbose : Bool
  deriving DecidableEq

/-! ## Options -/

inductive Flag where
  | graph
  | chunk
  | out
  | verbose
  | config
  | help
  | version
  deriving DecidableEq

namespace Flag

/-- The name after two dashes. -/
def long : Flag → String
  | .graph => "graph"
  | .chunk => "chunk"
  | .out => "out"
  | .verbose => "verbose"
  | .config => "config"
  | .help => "help"
  | .version => "version"

/-- The letter after one dash. -/
def short? : Flag → Option Char
  | .graph => some 'g'
  | .chunk => none
  | .out => some 'o'
  | .verbose => some 'v'
  | .config => some 'c'
  | .help => some 'h'
  | .version => some 'V'

def takesValue : Flag → Bool
  | .graph | .chunk | .out | .config => true
  | .verbose | .help | .version => false

/-- Whether the value is a path, which is not empty. -/
def takesPath : Flag → Bool
  | .graph | .out => true
  | _ => false

/-- The options that can stand before a command and after it. -/
def everywhere : List Flag := [.verbose, .config, .help, .version]

end Flag

/-! ## Commands -/

/-- The command words, each for a job. -/
inductive Verb where
  | analyze
  | generate
  deriving DecidableEq

namespace Verb

def ofWord? : String → Option Verb
  | "analyze" => some .analyze
  | "generate" => some .generate
  | _ => none

/-- The options of a command. -/
def flags : Verb → List Flag
  | .analyze => [.graph, .chunk] ++ Flag.everywhere
  | .generate => [.graph, .chunk, .out] ++ Flag.everywhere

end Verb

/-- Where the configuration is unless an option says otherwise. -/
def defaultConfig : String := "chunkwise.toml"

/-! ## Faults of arguments -/

/-- Why arguments ask for no job. -/
inductive UsageError where
  /-- Help is asked for. -/
  | help
  /-- The version is asked for. -/
  | version
  /-- There are no arguments. -/
  | nothing
  /-- There are options but no command. -/
  | noCommand
  | unknownCommand (word : String)
  | unknownArgument (text : String)
  /-- An option that the command cannot do without is missing. -/
  | missing (flag : Flag)
  /-- An option has no value, or an empty path. -/
  | noValue (flag : Flag)
  /-- A value is attached to an option that takes none. -/
  | extraValue (flag : Flag)
  /-- An option is given twice. -/
  | repeated (flag : Flag)
  deriving DecidableEq

namespace UsageError

/-- Whether arguments are wrong, and not only a wish to be told something. -/
def isFault : UsageError → Bool
  | .help | .version => false
  | _ => true

def message : UsageError → String
  | .help =>
    "Usage: chunkwise [OPTIONS] <COMMAND>\n\n"
      ++ "Commands:\n"
      ++ "  analyze   Print which runtime features each chunk needs\n"
      ++ "  generate  Generate the loading runtime for a chunk\n"
      ++ "  help      Print this message\n\n"
      ++ "Options:\n"
      ++ "  -g, --graph <GRAPH>    Chunk graph\n"
      ++ "      --chunk <CHUNK>    Chunk to analyze or to generate the runtime for\n"
      ++ "  -o, --out <OUT>        Output file of generate\n"
      ++ "  -v, --verbose          Enable verbose output\n"
      ++ "  -c, --config <CONFIG>  Configuration file [default: chunkwise.toml]\n"
      ++ "  -h, --help             Print help\n"
      ++ "  -V, --version          Print version"
  | .version => "chunkwise 0.1.0"
  | .nothing => "there are no arguments"
  | .noCommand => "a command is required"
  | .unknownCommand word => "unrecognized command '" ++ word ++ "'"
  | .unknownArgument text => "unexpected argument '" ++ text ++ "'"
  | .missing flag => "the option --" ++ flag.long ++ " is required"
  | .noValue flag => "a value is required for --" ++ flag.long
  | .extraValue flag => "no value is expected for --" ++ flag.long
  | .repeated flag => "the option --" ++ flag.long ++ " cannot be used more than once"

end UsageError

end ChunkLoading.CommandLine
