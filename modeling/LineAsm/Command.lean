import LineAsm.Program.Listing
import LineAsm.Response

/-!
# Commands

The three commands: `eval` runs a source given on the command line, `run` one from a file, and
`check` compiles a file and reports. `CommandLine.parse?` reads the arguments and `CommandLine.plan`
does all that needs no clock: it prints, or it leaves a job whose run is to be timed. Files are seen
as a function from paths to contents; reading them is left to the caller.
-/
namespace LineAsm

/-- What to print when a source is run. -/
structure RunFlags where
  json : Bool := false
  trace : Bool := false
  bytecode : Bool := false
  visualize : Bool := false
  deriving DecidableEq

inductive Command where
  | eval (flags : RunFlags) (source : String)
  | run (flags : RunFlags) (path : String)
  | check (bytecode : Bool) (path : String)
  deriving DecidableEq

/-- A command and the file of its settings, if one is named. -/
structure CommandLine where
  settings : Option String
  command : Command
  deriving DecidableEq

/-! ## Arguments -/

/-- The arguments read so far. -/
structure Arguments where
  settings : Option String := none
  flags : RunFlags := {}
  /-- The names of all flags that were given. -/
  given : List String := []
  /-- The command and what it is about. -/
  plain : List String := []

/-- Takes in one flag. -/
def Arguments.flag? (a : Arguments) (name : String) : Option Arguments :=
  let given := a.given ++ [name]
  match name with
  | "--json" => some { a with flags.json := true, given }
  | "--trace" => some { a with flags.trace := true, given }
  | "--bytecode" => some { a with flags.bytecode := true, given }
  | "--visualize" => some { a with flags.visualize := true, given }
  | "--verbose" | "-v" | "-vv" => some a
  | _ => none

/-- Takes in all arguments. Those behind `--` are plain. -/
def Arguments.read? (a : Arguments) : List String → Option Arguments
  | [] => some a
  | "--" :: rest => some { a with plain := a.plain ++ rest }
  | ["--config"] => none
  | "--config" :: path :: rest => { a with settings := some path }.read? rest
  | arg :: rest =>
    if arg.startsWith "-" then (a.flag? arg).bind (·.read? rest)
    else { a with plain := a.plain ++ [arg] }.read? rest

/-- Reads a command line. -/
def CommandLine.parse? (args : List String) : Option CommandLine :=
  (({} : Arguments).read? args).bind fun a =>
    match a.plain with
    | ["eval", source] => some ⟨a.settings, .eval a.flags source⟩
    | ["run", path] => some ⟨a.settings, .run a.flags path⟩
    | ["check", path] =>
      if a.given.all (· == "--bytecode") then some ⟨a.settings, .check a.flags.bytecode path⟩
      else none
    | _ => none

/-- The files that a command line names. -/
def CommandLine.paths (c : CommandLine) : List String :=
  c.settings.toList ++
    match c.command with
    | .eval .. => []
    | .run _ path | .check _ path => [path]

/-! ## Printing -/

/-- What a command prints, and whether it failed. -/
structure Printed where
  stdout : String := ""
  stderr : String := ""
  failed : Bool := false
  deriving DecidableEq

namespace Printed

/-- Fails with a message behind what is already printed. -/
def failing (p : Printed) (message : String) : Printed :=
  { p with stderr := p.stderr ++ "Error: " ++ message ++ "\n", failed := true }

def out (p : Printed) (text : String) : Printed := { p with stdout := p.stdout ++ text }

def err (p : Printed) (text : String) : Printed := { p with stderr := p.stderr ++ text }

end Printed

/-- The listing and an empty line, if it is wanted. -/
def listingText (wanted : Bool) (program : Program) : String :=
  if wanted then program.listing ++ "\n" else ""

/-- Compiles a source and prints what is wrong with it, or how large it is. -/
def checkSource (bytecode : Bool) (path source : String) : Printed :=
  let program := compile source
  let p : Printed := { stdout := listingText bytecode program }
  let p := p.err (String.join (program.diagnostics.map fun d => path ++ ": " ++ d.render ++ "\n"))
  let count := program.diagnostics.length
  if count = 0 then
    let code := program.code.length
    let functions := program.functions.size
    p.out s!"{path}: {code} instruction(s), {functions} function(s), no diagnostics\n"
  else p.failing s!"{count} diagnostic(s) in '{path}'"

/-! ## Jobs -/

/-- A source that is to be run. -/
structure Job where
  flags : RunFlags
  settings : Settings
  source : String

namespace Job

def engine (j : Job) : Engine := .ofSettings j.settings

/-- The compiled program and its advisories. -/
def prepare (j : Job) : Except AdviserFailure (Program × List Advisory) := j.engine.prepare j.source

/-- Prints a finished request. -/
def printResult (j : Job) (style : TimeStyle) (result : Except AdviserFailure Report)
    (p : Printed) : Printed :=
  let response := Response.of j.settings.traceInResponse result
  let log :=
    match result with
    | .ok report => if j.flags.trace then renderLog style report.trace else ""
    | .error _ => ""
  let text :=
    if j.flags.json then response.render style ++ "\n"
    else
      response.output ++ "\n" ++ log ++
        String.join (response.suggestions.map fun s => "suggestion: " ++ s ++ "\n")
  let p := p.out text
  if response.succeeded then p else p.failing "execution failed"

/-- Prints a job after its run: the listing, the timeline and the result. -/
def finish (j : Job) (style : TimeStyle) (clock : Nat → Nat)
    (run : Except AdviserFailure ((Program × List Advisory) × Run)) : Printed :=
  let p : Printed := { stdout := listingText j.flags.bytecode (compile j.source) }
  match run with
  | .error failure => j.printResult style (.error failure) p
  | .ok (prepared, run) =>
    let timeline :=
      if j.flags.visualize then renderTimeline style (stamp clock run.trace.toList) else ""
    j.printResult style (j.engine.conclude j.source prepared run clock) (p.err timeline)

/-- Runs the job without a look at the clock. -/
def run (j : Job) : Except AdviserFailure ((Program × List Advisory) × Run) :=
  j.prepare.map fun prepared =>
    (prepared, (prepared.1.machine j.settings.limits).run prepared.1.code)

end Job

/-! ## Plans -/

/-- The contents of files, or why one cannot be read. -/
abbrev Files := (path : String) → Except String String

/-- Why a file that does not exist cannot be read. -/
def noSuchFile : String := "No such file or directory (os error 2)"

/-- What is left to do for a command line. -/
inductive Plan where
  /-- The settings cannot be loaded. -/
  | badSettings (message : String)
  | print (printed : Printed)
  | job (job : Job)

/-- The settings that a command line asks for. -/
def CommandLine.loadSettings (c : CommandLine) (files : Files) : Except String Settings :=
  match c.settings with
  | none => .ok {}
  | some path =>
    match files path with
    | .error _ => .error s!"Failed to load config '{path}'"
    | .ok text => (Settings.ofText text).mapError fun _ => s!"Failed to load config '{path}'"

/-- Goes on with the content of a file, or fails because it cannot be read. -/
def withFile (files : Files) (path : String) (next : String → Plan) : Plan :=
  match files path with
  | .error reason => .print (({} : Printed).failing s!"Failed to read file '{path}': {reason}")
  | .ok source => next source

/-- Does what needs no clock. Settings are loaded before anything else. -/
def CommandLine.plan (c : CommandLine) (files : Files) : Plan :=
  match c.loadSettings files with
  | .error message => .badSettings message
  | .ok settings =>
    match c.command with
    | .eval flags source => .job ⟨flags, settings, source⟩
    | .run flags path => withFile files path fun source => .job ⟨flags, settings, source⟩
    | .check bytecode path => withFile files path fun source => .print (checkSource bytecode path source)

end LineAsm
