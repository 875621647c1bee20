import EntityForge.Generation

/-!
The command line. Options are written `--name value` or `--name=value` and given at most once; a
separate value does not start with `-`, and there are no arguments besides options. What asks for
help or for the version is answered as soon as it is read.
-/

namespace EntityForge.CommandLine

/-- The options. -/
inductive Flag where
  | dataDir | projectName | outDir | contractOutDir | snapshot | dryRun | verbose | help | version
deriving DecidableEq, Repr

namespace Flag

/-- All options. -/
def all : List Flag :=
  [dataDir, projectName, outDir, contractOutDir, snapshot, dryRun, verbose, help, version]

/-- The name after `--`. -/
def name : Flag → String
  | dataDir => "data-dir"
  | projectName => "project-name"
  | outDir => "out-dir"
  | contractOutDir => "contract-out-dir"
  | snapshot => "snapshot"
  | dryRun => "dry-run"
  | verbose => "verbose"
  | help => "help"
  | version => "version"

/-- The letter after `-`. -/
def letter? : Flag → Option Char
  | verbose => some 'v'
  | help => some 'h'
  | version => some 'V'
  | _ => none

/-- The option has a value. -/
def takesValue : Flag → Bool
  | dataDir | projectName | outDir | contractOutDir | snapshot => true
  | dryRun | verbose | help | version => false

/-- A value that the option may have; no path is empty. -/
def accepts (flag : Flag) (value : String) : Bool := flag == projectName || value != ""

end Flag

/-- What a command line asks for. -/
inductive Command where
  | run (config : Config)
  | help
  | version
  /-- No valid command line. -/
  | misuse
deriving DecidableEq, Repr

/-- The options that are given, with their values. -/
abbrev Given := List (Flag × String)

/-- Takes one more option. An option that is no run's ends the reading with what it asks for. -/
def give (given : Given) (flag : Flag) (value : String) : Except Command Given :=
  if flag = .help then .error .help
  else if flag = .version then .error .version
  else if (given.lookup flag).isSome || (flag.takesValue && !flag.accepts value) then
    .error .misuse
  else .ok ((flag, value) :: given)

/-- Takes the options of an argument of letters. -/
def giveLetters (given : Given) : List Char → Except Command Given
  | [] => .ok given
  | letter :: rest =>
    match Flag.all.find? (·.letter? == some letter) with
    | some flag => do giveLetters (← give given flag "") rest
    | none => .error .misuse

/-- The name in a long option, and the value after `=`. -/
def splitLong (text : List Char) : String × Option String :=
  (String.ofList (text.takeWhile (· != '=')),
    match text.dropWhile (· != '=') with
    | [] => none
    | _ :: value => some (String.ofList value))

/-- The argument cannot be the value of an option before it. -/
def isOption (argument : String) : Bool := argument.startsWith "-" && argument != "-"

/-- Takes the options of the arguments, in their order. -/
def giveAll (given : Given) : List String → Except Command Given
  | [] => .ok given
  | argument :: rest =>
    match argument.toList with
    | ['-', '-'] => if rest.isEmpty then .ok given else .error .misuse
    | '-' :: '-' :: text =>
      let (name, value) := splitLong text
      match Flag.all.find? (·.name == name) with
      | none => .error .misuse
      | some flag =>
        match flag.takesValue, value, rest with
        | true, some value, rest => do giveAll (← give given flag value) rest
        | true, none, value :: rest =>
          if isOption value then .error .misuse else do giveAll (← give given flag value) rest
        | true, none, [] => .error .misuse
        | false, some _, _ => .error .misuse
        | false, none, rest => do giveAll (← give given flag "") rest
    | '-' :: letter :: letters => do giveAll (← giveLetters given (letter :: letters)) rest
    | _ => .error .misuse

/-- The configuration that the given options make of the default one. -/
def configOf (given : Given) : Config :=
  let base : Config := {}
  let path (flag : Flag) (default : Path) : Path := ((given.lookup flag).map Path.mk).getD default
  { projectName := (given.lookup .projectName).getD base.projectName
    dataDir := path .dataDir base.dataDir
    outDir := path .outDir base.outDir
    contractOutDir := path .contractOutDir base.contractOutDir
    snapshot := (given.lookup .snapshot).map Path.mk
    dryRun := (given.lookup .dryRun).isSome }

/-- What the arguments ask for. -/
def parse (arguments : List String) : Command :=
  match giveAll [] arguments with
  | .ok given => .run (configOf given)
  | .error command => command

/-- What a command leaves behind besides files. -/
structure Outcome where
  code : UInt8
  output : String := ""
  errors : String := ""
deriving DecidableEq, Repr

/-- The text of `--help`. -/
def helpText : String :=
  "Generate C# classes and Solidity contracts from game data\n\n" ++
  "Usage: modelgen [OPTIONS]\n\n" ++
  "Options:\n" ++
  "      --data-dir <DIR>          Directory searched recursively for `*.json` data files " ++
    "[default: data]\n" ++
  "      --project-name <NAME>     Namespace of the generated C# classes [default: AlienCell]\n" ++
  "      --out-dir <DIR>           Output directory of the C# classes " ++
    "[default: generated/csharp]\n" ++
  "      --contract-out-dir <DIR>  Output directory of the Solidity contracts " ++
    "[default: generated/contracts]\n" ++
  "      --snapshot <FILE>         Write a MessagePack model snapshot to FILE\n" ++
  "      --dry-run                 Validate data and schema without writing output\n" ++
  "  -v, --verbose                 Verbose logging\n" ++
  "  -h, --help                    Print help\n" ++
  "  -V, --version                 Print version\n"

/-- Carries out a command. -/
def Command.execute {m : Type → Type} [Monad m] [Files m] : Command → m Outcome
  | .help => return { code := 0, output := helpText }
  | .version => return { code := 0, output := "modelgen 0.1.0\n" }
  | .misuse =>
    return { code := 2, errors := "error: invalid arguments\n\nFor more information, try '--help'.\n" }
  | .run config => do
    match ← (Generation.run config).run with
    | .ok _ => return { code := 0 }
    | .error e => return { code := 1, errors := "\x1b[31mError: " ++ e.message ++ "\x1b[0m\n" }

end EntityForge.CommandLine
