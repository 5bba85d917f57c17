import OrgTree.Id
import OrgTree.Text.Pieces

/-!
# Command lines

Three commands compare two versions of a file of units. A command line names the command first, and
then its options, in any order; `--name value` and `--name=value` are the same. A command line that
breaks a rule is refused as a whole, unless help was asked for before the first broken rule.

## Main definitions

- `Action`, `Invocation`
- `Invocation.ofArguments`: the invocation that a command line makes
-/

namespace OrgTree.Command

/-- How a diff is shown. -/
inductive Format where
  | table
  | json
  | compact
  | csv
  | stats
deriving DecidableEq, Repr

namespace Format

/-- The name of a format. -/
def name : Format → String
  | .table => "table"
  | .json => "json"
  | .compact => "compact"
  | .csv => "csv"
  | .stats => "stats"

/-- All formats. -/
def all : List Format :=
  [.table, .json, .compact, .csv, .stats]

/-- The format with this name. -/
def ofName? (s : String) : Option Format :=
  all.find? fun f => f.name = s

end Format

/-- The file of units and the two versions that every command needs. -/
structure Versions where
  /-- The path of the file of units. -/
  data : String
  reference : VersionId
  target : VersionId
  /-- The path of the file of settings. -/
  config : Option String
deriving DecidableEq, Repr

/-- A command with its options. -/
inductive Action where
  | diff (versions : Versions) (fields : List String)
      (ignoreGroups compareGroups showDeleted : Bool) (format : Format)
  | exportTo (versions : Versions) (dryRun : Bool)
  | sync (versions : Versions) (out : Option String)
deriving DecidableEq, Repr

/-- A command line that can be run. -/
structure Invocation where
  action : Action
  verbose : Bool
deriving DecidableEq, Repr

/-- Why nothing is run. -/
inductive Halt where
  | help
  | version
  /-- The command line breaks a rule. -/
  | usage
deriving DecidableEq, Repr

/-- An option of a command. -/
structure OptionSpec where
  name : String
  /-- Which values are allowed; an option without this takes no value. -/
  accepts : Option (String → Bool) := none
  /-- Whether the option may be given more than once. -/
  many : Bool := false

/-- The options given, with their values; an option without value has the empty one. -/
abbrev Given := List (String × String)

/-- Adds an option with its value, unless the value is not allowed or the option was given before
and may be given once only. -/
def addOption (spec : OptionSpec) (value : String) (given : Given) : Except Halt Given :=
  if !spec.many && (given.lookup spec.name).isSome then .error .usage
  else if spec.accepts.all (· value) then .ok (given ++ [(spec.name, value)])
  else .error .usage

/-- The text before the first equals sign and the text after it, if there is one. -/
def splitAttached (s : List Char) : List Char × Option String :=
  match s.dropWhile (· ≠ '=') with
  | [] => (s, none)
  | _ :: value => (s.takeWhile (· ≠ '='), some (String.ofList value))

/-- Whether an argument can be the value of an option: it starts with no hyphen, or is one. -/
def isValue (s : String) : Bool :=
  s = "-" || s.toList.head? ≠ some '-'

/-- The option without value that a letter stands for. -/
def letterOption? (hasVersion : Bool) (c : Char) : Option (Except Halt OptionSpec) :=
  if c = 'v' then some (.ok ⟨"verbose", none, false⟩)
  else if c = 'h' then some (.error .help)
  else if c = 'V' && hasVersion then some (.error .version)
  else none

/-- Adds the options that letters after one hyphen stand for. -/
def addLetters (hasVersion : Bool) : List Char → Given → Except Halt Given
  | [], given => .ok given
  | c :: cs, given =>
    match letterOption? hasVersion c with
    | none => .error .usage
    | some (.error halt) => .error halt
    | some (.ok spec) => do addLetters hasVersion cs (← addOption spec "" given)

/-- The option that every command has. -/
def verboseSpec : OptionSpec :=
  ⟨"verbose", none, false⟩

/-- Reads the options of a command. -/
def readOptions (specs : List OptionSpec) (hasVersion : Bool) :
    List String → Given → Except Halt Given
  | [], given => .ok given
  | arg :: rest, given =>
    match arg.toList with
    | '-' :: '-' :: [] => if rest.isEmpty then .ok given else .error .usage
    | '-' :: '-' :: long =>
      let (name, attached) := splitAttached long
      match specs.find? fun s => s.name.toList = name, attached, rest with
      | none, none, _ =>
        if name = "help".toList then .error .help
        else if hasVersion && name = "version".toList then .error .version
        else .error .usage
      | none, some _, _ => .error .usage
      | some spec, attached, rest =>
        match spec.accepts, attached, rest with
        | none, none, rest => do readOptions specs hasVersion rest (← addOption spec "" given)
        | none, some _, _ => .error .usage
        | some _, some value, rest => do
          readOptions specs hasVersion rest (← addOption spec value given)
        | some _, none, value :: rest =>
          if isValue value then do
            readOptions specs hasVersion rest (← addOption spec value given)
          else .error .usage
        | some _, none, [] => .error .usage
    | '-' :: c :: cs => do
      readOptions specs hasVersion rest (← addLetters hasVersion (c :: cs) given)
    | _ => .error .usage

/-- A number of a version. -/
def isNumber (s : String) : Bool :=
  (Text.readUInt64? s).isSome

/-- A path, which is not empty. -/
def isPath (s : String) : Bool :=
  s ≠ ""

/-- The options of every command. -/
def versionSpecs : List OptionSpec :=
  [⟨"data", some isPath, false⟩, ⟨"ref", some isNumber, false⟩, ⟨"target", some isNumber, false⟩,
    ⟨"config", some isPath, false⟩, verboseSpec]

/-- The options of a diff. -/
def diffSpecs : List OptionSpec :=
  versionSpecs ++ [⟨"fields", some fun _ => true, true⟩, ⟨"ignore-groups", none, false⟩,
    ⟨"compare-groups", none, false⟩, ⟨"show-deleted", none, false⟩,
    ⟨"format", some fun s => (Format.ofName? s).isSome, false⟩]

/-- The options of an export. -/
def exportSpecs : List OptionSpec :=
  versionSpecs ++ [⟨"dry-run", none, false⟩]

/-- The options of a synchronization. -/
def syncSpecs : List OptionSpec :=
  versionSpecs ++ [⟨"out", some isPath, false⟩]

/-- Whether an option was given. -/
def Given.has (given : Given) (name : String) : Bool :=
  (given.lookup name).isSome

/-- The version that an option names; the option must be given. -/
def Given.version (given : Given) (name : String) : Except Halt VersionId :=
  match (given.lookup name).bind Text.readUInt64? with
  | some n => .ok ⟨n⟩
  | none => .error .usage

/-- The options that every command needs. -/
def Given.versions (given : Given) : Except Halt Versions := do
  let some data := given.lookup "data" | throw .usage
  return {
    data := data
    reference := ← given.version "ref"
    target := ← given.version "target"
    config := given.lookup "config" }

/-- The values of a repeated option, each cut at its commas. -/
def Given.parts (given : Given) (name : String) : List String :=
  (given.filter fun g => g.1 = name).flatMap fun g => Text.pieces ',' g.2

/-- The command with this name and these arguments after it. -/
def readCommand (name : String) (args : List String) : Except Halt Invocation := do
  match name with
  | "diff" =>
    let given ← readOptions diffSpecs false args []
    return {
      action := .diff (← given.versions) (given.parts "fields") (given.has "ignore-groups")
        (given.has "compare-groups") (given.has "show-deleted")
        (((given.lookup "format").bind Format.ofName?).getD .table)
      verbose := given.has "verbose" }
  | "export" =>
    let given ← readOptions exportSpecs false args []
    return {
      action := .exportTo (← given.versions) (given.has "dry-run")
      verbose := given.has "verbose" }
  | "sync" =>
    let given ← readOptions syncSpecs false args []
    return {
      action := .sync (← given.versions) (given.lookup "out")
      verbose := given.has "verbose" }
  | _ => throw .usage

/-- The names that help can be asked about. -/
def helpTopics : List String :=
  ["diff", "export", "sync", "help"]

/-- Help for the program or for one command. -/
def readHelp : List String → Halt
  | [] => .help
  | [topic] => if helpTopics.contains topic then .help else .usage
  | _ => .usage

namespace Invocation

/-- The arguments before the name of the command, and from it on. -/
def splitAtCommand (args : List String) : List String × List String :=
  let isOption (s : String) : Bool := s.toList.head? = some '-' && s ≠ "-" && s ≠ "--"
  (args.takeWhile isOption, args.dropWhile isOption)

/-- The invocation that the arguments of a program make. -/
def ofArguments (args : List String) : Except Halt Invocation := do
  let (before, rest) := splitAtCommand args
  let given ← readOptions [verboseSpec] true before []
  match rest with
  | "help" :: topics => throw (readHelp topics)
  | name :: args =>
    let i ← readCommand name args
    return { i with verbose := i.verbose || given.has "verbose" }
  | [] => throw .usage

end Invocation

end OrgTree.Command
