/-!
# Arguments

What a command line asks for. Arguments are taken from left to right; the first one that makes no sense, or that asks
for help, decides. Options may be joined (`-vj1`) or carry their value (`-j1`, `-j=1`, `--jobs=1`), and
none may be given twice at its level: before the command, or after it.
-/

set_option autoImplicit false

namespace AmbientScope.CommandLine

inductive Command where
  | check | init | help
  deriving DecidableEq, Inhabited

def Command.ofName? (name : String) : Option Command :=
  match name with
  | "check" => some .check
  | "init" => some .init
  | "help" => some .help
  | _ => none

structure CheckArguments where
  files : List String := []
  /-- The options file, if one is named. -/
  options : Option String := none
  debugEcho : Bool := false
  noHiddenFlow : Bool := false
  hiddenFlowAsError : Bool := false
  jobs : Option Nat := none
  deriving DecidableEq, Inhabited

inductive Invocation where
  | check (arguments : CheckArguments)
  | init
  | help (topic : Option Command)
  | version
  /-- No option and no command is given. -/
  | nothing
  /-- The arguments make no sense. -/
  | misuse
  deriving DecidableEq, Inhabited

inductive Flag where
  | verbose | noColor | help | version
  | options | debugEcho | noHiddenFlow | hiddenFlowAsError | jobs
  deriving DecidableEq, Inhabited

namespace Flag

def long : Flag → String
  | verbose => "verbose"
  | noColor => "no-color"
  | help => "help"
  | version => "version"
  | options => "options"
  | debugEcho => "debug-echo"
  | noHiddenFlow => "no-hidden-flow"
  | hiddenFlowAsError => "hidden-flow-as-error"
  | jobs => "jobs"

def short? : Flag → Option Char
  | verbose => some 'v'
  | help => some 'h'
  | version => some 'V'
  | options => some 'o'
  | jobs => some 'j'
  | _ => none

def takesValue : Flag → Bool
  | options => true
  | jobs => true
  | _ => false

end Flag

/-- A place for options: before the command, or after one. -/
abbrev Level := Option Command

namespace Level

def flags : Level → List Flag
  | none => [.verbose, .noColor, .help, .version]
  | some .init => [.verbose, .noColor, .help]
  | some .help => []
  | some .check =>
    [ .options, .debugEcho, .noHiddenFlow, .hiddenFlowAsError, .jobs
    , .verbose, .noColor, .help ]

/-- Whether words may stand among the options. -/
def takesWords : Level → Bool
  | some .check => true
  | _ => false

end Level

structure Given where
  flags : List (Flag × String) := []
  words : List String := []
  /-- Whether `--` has ended the options. -/
  closed : Bool := false
  deriving Inhabited

namespace Given

def has (g : Given) (f : Flag) : Bool := g.flags.any (·.1 == f)

def value? (g : Given) (f : Flag) : Option String := g.flags.lookup f

end Given

/-- A natural number that fits a 64-bit word, perhaps with a plus sign. -/
def count? (text : String) : Option Nat :=
  let digits :=
    match text.toList with
    | '+' :: cs => cs
    | cs => cs
  if digits.isEmpty ∨ !digits.all Char.isDigit then none
  else
    let n := digits.foldl (fun n c => 10 * n + (c.toNat - 48)) 0
    if n < UInt64.size then some n else none

/-- Note an option; asking for help or for the version settles the matter. -/
def note (level : Level) (g : Given) (f : Flag) (value : String) : Except Invocation Given :=
  if g.has f then .error .misuse
  else if f = .help then .error (.help level)
  else if f = .version then .error .version
  else if f = .jobs ∧ (count? value).isNone then .error .misuse
  else .ok { g with flags := g.flags ++ [(f, value)] }

/-- The text behind an equals sign, or the text itself. -/
def withoutEquals : List Char → List Char
  | '=' :: cs => cs
  | cs => cs

/-- Note a run of one-letter options; one that takes a value has the rest of the run for it. Answers the option
that still waits for its value. -/
def noteShorts (level : Level) (g : Given) : List Char → Except Invocation (Given × Option Flag)
  | [] => .ok (g, none)
  | c :: cs =>
    match level.flags.find? (·.short? == some c) with
    | none => .error .misuse
    | some f =>
      if f.takesValue then
        if cs.isEmpty then .ok (g, some f)
        else (note level g f (String.ofList (withoutEquals cs))).map fun g => (g, none)
      else
        match note level g f "" with
        | .error stop => .error stop
        | .ok g => noteShorts level g cs

/-- Note a long option, which may carry its value. -/
def noteLong (level : Level) (g : Given) (text : List Char) :
    Except Invocation (Given × Option Flag) :=
  let name := text.takeWhile (· ≠ '=')
  let carried := text.dropWhile (· ≠ '=')
  match level.flags.find? (·.long.toList == name) with
  | none => .error .misuse
  | some f =>
    if f.takesValue then
      if carried.isEmpty then .ok (g, some f)
      else (note level g f (String.ofList (withoutEquals carried))).map fun g => (g, none)
    else if carried.isEmpty then (note level g f "").map fun g => (g, none)
    else .error .misuse

/-- Note the options of one argument; none if the argument is a word. -/
def noteArgument (level : Level) (g : Given) (arg : String) :
    Except Invocation (Option (Given × Option Flag)) :=
  match arg.toList with
  | '-' :: '-' :: name => (noteLong level g name).map some
  | '-' :: c :: cs => (noteShorts level g (c :: cs)).map some
  | _ => .ok none

/-- Whether an argument cannot be the value of an option before it. -/
def startsOption (arg : String) : Bool :=
  match arg.toList with
  | '-' :: _ :: _ => true
  | _ => false

/-- Take the arguments of a level; what the level has no use for is left over. -/
def take (level : Level) (g : Given) : List String → Except Invocation (Given × List String)
  | [] => .ok (g, [])
  | arg :: rest =>
    if arg = "--" then
      if level.takesWords then .ok ({ g with words := g.words ++ rest, closed := true }, [])
      else .ok ({ g with closed := true }, rest)
    else
      match noteArgument level g arg with
      | .error stop => .error stop
      | .ok none =>
        if level.takesWords then take level { g with words := g.words ++ [arg] } rest
        else .ok (g, arg :: rest)
      | .ok (some (g, none)) => take level g rest
      | .ok (some (g, some f)) =>
        match rest with
        | [] => .error .misuse
        | value :: rest =>
          if startsOption value then .error .misuse
          else
            match note level g f value with
            | .error stop => .error stop
            | .ok g => take level g rest

def checkArguments (g : Given) : CheckArguments where
  files := g.words
  options := g.value? .options
  debugEcho := g.has .debugEcho
  noHiddenFlow := g.has .noHiddenFlow
  hiddenFlowAsError := g.has .hiddenFlowAsError
  jobs := (g.value? .jobs).bind count?

def helpTopic : List String → Except Invocation Invocation
  | [] => .ok (.help none)
  | [name] =>
    match Command.ofName? name with
    | some command => .ok (.help (some command))
    | none => .error .misuse
  | _ => .error .misuse

def invocation (args : List String) : Except Invocation Invocation := do
  let (g, rest) ← take none {} args
  match rest with
  | [] => .error (if g.flags.isEmpty then .nothing else .misuse)
  | command :: rest =>
    if g.closed then .error .misuse
    else
      match Command.ofName? command with
      | none => .error .misuse
      | some .check => do
        let (g, _) ← take (some .check) {} rest
        .ok (.check (checkArguments g))
      | some .init => do
        let (_, rest) ← take (some .init) {} rest
        if rest.isEmpty then .ok .init else .error .misuse
      | some .help => helpTopic rest

namespace Invocation

def ofArguments (args : List String) : Invocation :=
  match invocation args with
  | .ok i => i
  | .error i => i

end Invocation

end AmbientScope.CommandLine
