import NavTree.CommandLine.Arguments
import NavTree.Task.Run

/-! # Sessions

One call of the program: its arguments, what it prints and logs, its exit code, and the disk it
leaves.
-/
namespace NavTree.CommandLine

def LogLevel.text : LogLevel → String
  | .info => "INFO "
  | .warn => "WARN "
  | .error => "ERROR"

/-- The name that the lines of a part of the program are logged under. -/
def originText : LogOrigin → String
  | .command => "navgen"
  | .discovery => "navigation_codegen::discovery"
  | .pipeline => "navigation_codegen::pipeline"
  | .routes => "navigation_codegen::routes"
  | .scaffold => "navigation_codegen::scaffold"

/-- A log line without its time. Of a text of several lines only the first stands behind the name
of the part. -/
def logText (line : LogLine) : String :=
  let text := String.ofList (line.text.toList.takeWhile (· ≠ '\n'))
  "[" ++ LogLevel.text line.level ++ " " ++ originText line.origin ++ "] " ++ text

def versionText : String := "navgen 0.1.0\n"

def helpText : String :=
  "Generate navigators, typed routes and a navigation graph\n\n"
    ++ "Usage: navgen [OPTIONS] <COMMAND>\n\n"
    ++ "Commands:\n"
    ++ "  generate  Compile every navigation source beneath a project directory\n"
    ++ "  help      Print this message or the help of the given subcommand(s)\n\n"
    ++ "Options:\n"
    ++ "  -v, --verbose  Enable verbose logging\n"
    ++ "  -q, --quiet    Quiet mode: log only warnings/errors\n"
    ++ "  -h, --help     Print help\n"
    ++ "  -V, --version  Print version\n"

def generateHelpText : String :=
  "Compile every navigation source beneath a project directory\n\n"
    ++ "Usage: navgen generate [OPTIONS]\n\n"
    ++ "Options:\n"
    ++ "      --root <ROOT>  Project directory to scan (defaults to current directory) "
    ++ "[default: .]\n"
    ++ "  -j, --jobs <JOBS>  Maximum number of sources compiled at once "
    ++ "(defaults to available parallelism)\n"
    ++ "  -v, --verbose      Enable verbose logging\n"
    ++ "      --no-graph     Write the .dot file but do not run Graphviz\n"
    ++ "  -q, --quiet        Quiet mode: log only warnings/errors\n"
    ++ "      --no-scaffold  Never offer to create missing screen files\n"
    ++ "  -h, --help         Print help\n"

/-- The end of a call. The last line of a failed run is not a log line. -/
structure Finished where
  code : Nat
  output : String
  log : List String
  disk : Disk

def generate (options : Options) : Task (Option RunSummary) := do
  match ← runProject options with
  | none => return none
  | some summary => do
    summary.scaffolded.forM fun path => Task.note .info .command ("Created " ++ path)
    Task.note .info .command
      (toString summary.compiled.length ++ " source(s) compiled, " ++ toString summary.failures
        ++ " failed")
    return some summary

/-- The exit code of a run, and the line that ends it. -/
def verdict : Option RunSummary → Nat × List String
  | none => (101, [])
  | some summary =>
    if summary.isSuccess then (0, [])
    else (1, ["Error: " ++ toString summary.failures ++ " navigation source(s) failed"])

def call (station : Station) (terminal : Bool) (arguments : List String) (d : Disk) : Finished :=
  match readRequest? arguments with
  | none => ⟨2, "", [], d⟩
  | some .version => ⟨0, versionText, [], d⟩
  | some (.help ofGenerate) => ⟨0, if ofGenerate then generateHelpText else helpText, [], d⟩
  | some (.generate quiet settings) =>
    let outcome := (generate (settings.options terminal)).run station d
    let lines := outcome.signs.filterMap Sign.line?
    let log := (lines.filter fun line => !quiet || line.level ≠ .info).map logText
    let (code, last) := verdict outcome.value
    ⟨code, "", log ++ last, outcome.disk⟩

end NavTree.CommandLine
