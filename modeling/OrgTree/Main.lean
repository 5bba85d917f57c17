import OrgTree.Command.Run

/-!
# The program

Runs a command on the files, variables and streams of the system. Output is painted on a terminal
only. The exit code is 0 for success and for help, 1 for a command that fails, and 2 for a command
line that breaks a rule.
-/

namespace OrgTree.Command

/-- The name and the version of the program. -/
def versionText : String :=
  "pyr 0.1.0"

/-- What the program can do. -/
def helpText : String :=
  "\n".intercalate [
    "Pyramid diff & sync: compare org unit hierarchies and propagate the changes",
    "",
    "Usage: pyr [OPTIONS] <COMMAND>",
    "",
    "Commands:",
    "  diff    Compare two versions of a pyramid",
    "  export  Push the changes of the reference version to the remote reference system",
    "  sync    Apply the changes of the reference version to the target version",
    "",
    "Every command needs --data <FILE> --ref <VERSION> --target <VERSION>, and takes",
    "--config <FILE>. A diff takes --fields <FIELDS>, --ignore-groups, --compare-groups,",
    "--show-deleted and --format <FORMAT>, an export --dry-run, and a sync --out <FILE>.",
    "Formats are table, json, compact, csv and stats.",
    "",
    "Options:",
    "  -v, --verbose",
    "  -h, --help",
    "  -V, --version",
    ""]

/-- The number of an error of the system, which some operations give with its sign changed. -/
def errorNumber (code : UInt32) : UInt32 :=
  if code < 4096 then code else 0 - code

/-- The fault that a failed operation of the system stands for. -/
def faultOf (e : IO.Error) : FileFault :=
  let other : FileFault := .reported (toString e)
  match e with
  | .noFileOrDirectory _ _ _ => .missing
  | .inappropriateType _ code _ =>
    if errorNumber code = 20 then .notFolder
    else if errorNumber code = 21 then .isFolder
    else other
  | .invalidArgument _ code _ => if errorNumber code = 36 then .nameTooLong else other
  | _ => other

/-- Runs an operation on a file. -/
def attempt {α : Type} (op : IO α) : IO (Except FileFault α) := do
  match ← op.toBaseIO with
  | .ok a => return .ok a
  | .error e => return .error (faultOf e)

/-- The system as a host. -/
def systemHost : Host IO where
  read path := attempt (IO.FS.readFile path)
  write path text := attempt (IO.FS.writeFile path text)
  isThere path := return (← (IO.FS.Handle.mk path .read).toBaseIO).toOption.isSome
  environment name := IO.getEnv name
  out := IO.print
  err := IO.eprint

/-- What is said about a failed command. -/
def failureText : List String → String
  | [] => "Error\n"
  | [words] => "Error: " ++ words ++ "\n"
  | words :: causes =>
    "Error: " ++ words ++ "\n\nCaused by:\n"
      ++ String.join (causes.map fun c => "    " ++ c ++ "\n")

/-- Runs a command; the exit code. -/
def perform (action : Action) : IO UInt32 := do
  let colors := (← (← IO.getStdout).isTty) && (← IO.getEnv "NO_COLOR").isNone
  let seed ← IO.rand 0 0x4000000000000000
  match ← (run ⟨systemHost, colors, .seeded seed⟩ action).run with
  | .ok () => return 0
  | .error e =>
    IO.eprint (failureText e.chain)
    return 1

end OrgTree.Command

open OrgTree.Command in
/-- Runs the command that the arguments name. -/
def main (args : List String) : IO UInt32 := do
  match Invocation.ofArguments args with
  | .ok invocation => perform invocation.action
  | .error .help => IO.print helpText; return 0
  | .error .version => IO.println versionText; return 0
  | .error .usage => IO.eprint helpText; return 2
