import DialogueScript.CommandLine.Arguments
import DialogueScript.CommandLine.Disk
import DialogueScript.CommandLine.Log
import DialogueScript.Compile.Source
import DialogueScript.Options.Toml
import DialogueScript.Script.Listing
import DialogueScript.Script.Problem
import DialogueScript.Script.Ron

/-!
# Running a command

A command first loads the options of its compiler, then reads and compiles its input, and only then
writes. `Command.perform` does all but the last: from the files that it reads it gives a
`Performance`, which holds the rows for the standard error output and how the command goes on. So
a command that fails on the way has changed nothing. `Command.run` carries this out in a directory.
-/

set_option autoImplicit false
set_option relaxedAutoImplicit false

namespace DialogueScript

/-- Why a command fails. -/
inductive Failure where
  | config (path : String) (error : OptionsError)
  | input (path : String) (error : FileError)
  | compilation (path : String) (error : CompileError)
  | output (path : String) (error : FileError)
  | problems (count : Nat) (path : String)
deriving DecidableEq, Repr

/-- The wording of a failure: what was being done, and the causes behind it. -/
def Failure.message : Failure → String
  | config path error =>
    let cause := match error with
      | .unreadable _ reason => ": " ++ reason
      | .invalid => ""
    "while loading config '" ++ path ++ "': " ++ error.message ++ cause
  | input path error => "unable to read '" ++ path ++ "': " ++ error.message
  | compilation path error =>
    "'" ++ path ++ "' did not compile (run with RUST_LOG=warn for details): " ++ error.message
  | output path error => "writing '" ++ path ++ "': " ++ error.message
  | problems count path =>
    Decimal.ofNat count ++ " problem(s) found in '" ++ path ++ "'"

/-- The row that reports a failure. -/
def Failure.row (failure : Failure) : String :=
  "error: " ++ failure.message ++ "\n"

/-- How a command goes on when it has done all but write. -/
inductive Ending where
  | done
  | failed (failure : Failure)
  | print (text : String)
  | write (path text : String)
deriving DecidableEq, Repr

/-- What a command does before it writes. -/
structure Performance where
  errors : String
  ending : Ending
deriving DecidableEq, Repr

/-- A way to read files. -/
abbrev ReadFile := String → Except FileError (List UInt8)

namespace Job

/-- The options of the compiler: those of the file with options, with the format version replaced
if the user asks for one. -/
def options (job : Job) (read : ReadFile) : Except Failure Options := do
  let options ← match job.config with
    | none => .ok {}
    | some path =>
      match Options.load path ((read path).mapError FileError.message) with
      | .ok options => .ok options
      | .error error => .error (.config path error)
  return { options with formatVersion := job.formatVersion.getD options.formatVersion }

/-- The record that announces a compilation. -/
def announcement (job : Job) : LogRecord :=
  ⟨"msgscript", .info, "compiling " ++ job.input⟩

/-- Compiles the input. The log records come first, then the script or what went wrong. -/
def compile (job : Job) (read : ReadFile) : List LogRecord × Except Failure Script :=
  match job.options read with
  | .error failure => ([], .error failure)
  | .ok options =>
    match read job.input with
    | .error error => ([], .error (.input job.input error))
    | .ok bytes =>
      let compilation := DialogueScript.compile options.formatVersion (.bytes bytes)
      (job.announcement ::
          compilation.findings.map fun finding => (finding.toEvent options.channel).toLogRecord,
        compilation.result.mapError (.compilation job.input))

end Job

/-- A script in the form that the user asks for. -/
def Emit.render (emit : Emit) (script : Script) : String :=
  match emit with
  | ron => script.ron
  | text => script.listing

/-- The rows that a check prints for the problems of a script. -/
def problemRows (problems : List Problem) : String :=
  String.join (problems.map fun problem => "check: " ++ problem.message ++ "\n")

/-- The row that a check prints for a script without problems. -/
def approvalRow (script : Script) : String :=
  "check: OK (" ++ Decimal.ofNat script.windows.length ++ " windows)\n"

namespace Command

/-- What `version` prints. -/
def versionRow : String := "msgscript 0.1.0"

/-- Does all of a command but write. -/
def perform (command : Command) (setting : LogSetting) (read : ReadFile) : Performance :=
  match command with
  | version => ⟨setting.warnings, .print versionRow⟩
  | help topic form => ⟨setting.warnings, .print (topic.page form).render⟩
  | compile job emit out =>
    let (records, result) := job.compile read
    let log := setting.warnings ++ setting.filter.rows records
    match result, out with
    | .error failure, _ => ⟨log, .failed failure⟩
    | .ok script, none => ⟨log, .print (emit.render script)⟩
    | .ok script, some path => ⟨log, .write path (emit.render script)⟩
  | check job =>
    let (records, result) := job.compile read
    let log := setting.warnings ++ setting.filter.rows records
    match result with
    | .error failure => ⟨log, .failed failure⟩
    | .ok script =>
      match script.problems with
      | [] => ⟨log ++ approvalRow script, .done⟩
      | problems =>
        ⟨log ++ problemRows problems, .failed (.problems problems.length job.input)⟩

end Command

/-- What a run of the program leaves. -/
structure Outcome where
  code : UInt32
  stdout : String
  stderr : String
  disk : Disk
deriving DecidableEq, Repr

namespace Command

/-- Runs a command in a directory. -/
def run (command : Command) (setting : LogSetting) (disk : Disk) : Outcome :=
  let ⟨errors, ending⟩ := command.perform setting disk.read
  match ending with
  | .done => ⟨0, "", errors, disk⟩
  | .failed failure => ⟨1, "", errors ++ failure.row, disk⟩
  | .print text => ⟨0, text ++ "\n", errors, disk⟩
  | .write path text =>
    match disk.write path (Utf8.encode text.toList) with
    | .ok written => ⟨0, "", errors, written⟩
    | .error error => ⟨1, "", errors ++ (Failure.output path error).row, disk⟩

/-- The exit code for arguments that are not well formed. -/
def usageCode : UInt32 := 2

/-- Runs the program. Without well-formed arguments it does nothing. -/
def runArguments (arguments : List String) (setting : LogSetting) (disk : Disk) : Outcome :=
  match ofArguments? arguments with
  | some command => command.run setting disk
  | none => ⟨usageCode, "", "", disk⟩

end Command

end DialogueScript
