import AmbientScope.CommandLine.Arguments
import AmbientScope.CommandLine.Directory
import AmbientScope.Flow.Analysis
import AmbientScope.Options.Document
import AmbientScope.Program.Document
import AmbientScope.Text.FirstLine

/-!
# Running a command

Running needs no more of its surroundings than to read a file, to ask whether there is one, and to write one; it is
the same on a disk and on a directory in memory. All documents of one check are joined into a single program,
so calls may cross files.
-/

set_option autoImplicit false

namespace AmbientScope.CommandLine

/-- What running a command asks of its surroundings. -/
structure Files (m : Type → Type) where
  read : String → m (Option String)
  has : String → m Bool
  write : String → String → m Unit

def Directory.access : Files (StateM Directory) where
  read path := return (← get).read? path
  has path := return (← get).has path
  write name text := modify fun d => d.write name text

inductive Problem where
  | noInput
  | unreadable (path : String)
  | unparsable (path : String)
  | badOptions (path : String)
  | analysisFailed
  | optionsExist
  deriving DecidableEq, Inhabited

namespace Problem

def message : Problem → String
  | noInput => "no input files; pass call-graph documents or list them in " ++ OptionsFile.defaultName
  | unreadable path => "failed to read " ++ path
  | unparsable path => "failed to parse " ++ path
  | badOptions path => "failed to read options '" ++ path ++ "'"
  | analysisFailed => "analysis failed"
  | optionsExist =>
    "a " ++ OptionsFile.defaultName ++ " file already exists in the current directory"

/-- How many columns of a line of a report the message may take. -/
def columns : Nat := 74

def headline (p : Problem) : String := firstLine columns p.message

end Problem

inductive Outcome where
  /-- The arguments make no sense. -/
  | misuse
  | failed (problem : Problem)
  | finished (code : Nat) (output errors : String)
  deriving DecidableEq, Inhabited

namespace Outcome

def code : Outcome → Nat
  | misuse => 2
  | failed _ => 1
  | finished code _ _ => code

end Outcome

/-! ## Texts -/

def helpText : Option Command → String
  | none =>
    "scopy - static checks for scoped value providers\n\n" ++
    "Usage: scopy [OPTIONS] <COMMAND>\n\n" ++
    "Commands:\n" ++
    "  check  Analyze call-graph documents\n" ++
    "  init   Write a default scopy.json in the current directory\n" ++
    "  help   Print this message or the help of the given subcommand(s)\n\n" ++
    "Options:\n" ++
    "  -v, --verbose   Enable debug logging (RUST_LOG overrides)\n" ++
    "      --no-color  Never color diagnostics\n" ++
    "  -h, --help      Print help\n" ++
    "  -V, --version   Print version\n"
  | some .check =>
    "Analyze call-graph documents\n\n" ++
    "Usage: scopy check [OPTIONS] [FILE]...\n\n" ++
    "Arguments:\n" ++
    "  [FILE]...  Call-graph documents to analyze. Defaults to the `files` list of the options file\n\n" ++
    "Options:\n" ++
    "  -o, --options <OPTIONS>     Path to scopy.json\n" ++
    "  -v, --verbose               Enable debug logging (RUST_LOG overrides)\n" ++
    "      --debug-echo            Report every recorded effect as a message\n" ++
    "      --no-color              Never color diagnostics\n" ++
    "      --no-hidden-flow        Do not report effects hidden in local control flow\n" ++
    "      --hidden-flow-as-error  Report hidden effects as errors\n" ++
    "  -j, --jobs <JOBS>           Worker threads\n" ++
    "  -h, --help                  Print help\n"
  | some .init =>
    "Write a default scopy.json in the current directory\n\n" ++
    "Usage: scopy init [OPTIONS]\n\n" ++
    "Options:\n" ++
    "  -v, --verbose   Enable debug logging (RUST_LOG overrides)\n" ++
    "      --no-color  Never color diagnostics\n" ++
    "  -h, --help      Print help\n"
  | some .help =>
    "Print this message or the help of the given subcommand(s)\n\n" ++
    "Usage: scopy help [COMMAND]...\n\n" ++
    "Arguments:\n" ++
    "  [COMMAND]...  Print help for the subcommand(s)\n"

def versionText : String := "scopy 0.1.0\n"

/-- A diagnostic on a line, and the related ones on indented lines below it. -/
def diagnosticLines (d : Diagnostic) : String :=
  d.line ++ "\n" ++ String.join (d.related.map fun r => "  " ++ r.line ++ "\n")

def errorTally (n : Nat) : String :=
  "\nFound " ++ toString n ++ " error" ++ (if n = 1 then "" else "s") ++ ".\n"

/-- How a check ends: with code 2 if there are errors. -/
def reportOutcome (r : Report) : Outcome :=
  let lines := String.join (r.map diagnosticLines)
  if r.hasErrors then .finished 2 "" (lines ++ errorTally r.errorCount)
  else .finished 0 "" lines

/-! ## Commands -/

/-- Options given on the command line win over those of the file. -/
def CheckArguments.override (a : CheckArguments) (o : Overrides) : Overrides :=
  { o with
    debugEcho := if a.debugEcho then some true else o.debugEcho
    reportHiddenFlow := if a.noHiddenFlow then some false else o.reportHiddenFlow
    hiddenFlowAsError := if a.hiddenFlowAsError then some true else o.hiddenFlowAsError
    jobs := a.jobs.or o.jobs }

/-- The documents to check: those given, else those that the options file lists, as seen from its directory. -/
def CheckArguments.inputs (a : CheckArguments) (optionsFile : Option (String × OptionsFile)) :
    List String :=
  if a.files.isEmpty then
    match optionsFile with
    | none => []
    | some (path, f) => (f.files.getD []).map (Path.within (Path.parent path))
  else a.files

def checkProgram (o : Overrides) (p : Program) : Outcome :=
  match analyzeProgram o.settings p false with
  | .error _ => .failed .analysisFailed
  | .ok r => reportOutcome r.report

section
variable {m : Type → Type} [Monad m] (files : Files m)

/-- The options file that applies, with its path: the one named, else the one in the current directory. -/
def loadOptions (a : CheckArguments) : m (Except Problem (Option (String × OptionsFile))) := do
  let path ←
    match a.options with
    | some path => pure (some path)
    | none =>
      if ← files.has OptionsFile.defaultName then pure (some OptionsFile.defaultName) else pure none
  match path with
  | none => return .ok none
  | some path =>
    match OptionsFile.load (← files.read path) with
    | .ok f => return .ok (some (path, f))
    | .error _ => return .error (.badOptions path)

/-- The routines of all documents, in order. -/
def loadRoutines : List String → m (Except Problem (List Declaration))
  | [] => return .ok []
  | path :: rest => do
    match ← files.read path with
    | none => return .error (.unreadable path)
    | some text =>
      match Program.parse text with
      | .error _ => return .error (.unparsable path)
      | .ok p => return (← loadRoutines rest).map (p.routines ++ ·)

def runCheck (a : CheckArguments) : m Outcome := do
  match ← loadOptions files a with
  | .error problem => return .failed problem
  | .ok optionsFile =>
    let inputs := a.inputs optionsFile
    if inputs.isEmpty then return .failed .noInput
    match ← loadRoutines files inputs with
    | .error problem => return .failed problem
    | .ok routines =>
      let overrides := (optionsFile.bind fun f => f.2.overrides).getD {}
      return checkProgram (a.override overrides) ⟨routines⟩

def runInit : m Outcome := do
  if ← files.has OptionsFile.defaultName then return .failed .optionsExist
  files.write OptionsFile.defaultName OptionsFile.initialText
  return .finished 0 ("Successfully created a " ++ OptionsFile.defaultName ++ " file.\n") ""

def run (args : List String) : m Outcome :=
  match Invocation.ofArguments args with
  | .misuse => return .misuse
  | .help topic => return .finished 0 (helpText topic) ""
  | .nothing => return .finished 2 "" (helpText none)
  | .version => return .finished 0 versionText ""
  | .init => runInit files
  | .check a => runCheck files a

end

end AmbientScope.CommandLine
