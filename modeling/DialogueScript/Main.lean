import DialogueScript.CommandLine.Run

/-!
# The program

Reads the files that a command needs, runs it, and writes what it gives.
-/

set_option autoImplicit false
set_option relaxedAutoImplicit false

namespace DialogueScript

/-- Whether a code that a failed operation comes with is that of an error of the system. The sign of
the code depends on the operation. -/
def isSystemError (code number : UInt32) : Bool :=
  code == number || code == 0 - number

/-- The reason of a failed file operation. -/
def fileError : IO.Error → FileError
  | .noFileOrDirectory .. => .notFound
  | .inappropriateType _ code details =>
    if isSystemError code 20 then .notADirectory
    else if isSystemError code 21 then .isADirectory
    else .system details
  | .invalidArgument _ code details =>
    if isSystemError code 36 then .nameTooLong else .system details
  | error => .system (toString error)

/-- The content of a file, or why it cannot be read. -/
def readFile (path : String) : IO (Except FileError (List UInt8)) := do
  try
    let content ← IO.FS.readBinFile path
    return .ok content.toList
  catch error => return .error (fileError error)

/-- The files that a command reads. -/
def Command.inputs : Command → List String
  | .version | .help _ _ => []
  | .compile job _ _ => job.config.toList ++ [job.input]
  | .check job => job.config.toList ++ [job.input]

/-- Runs a command on the files of the system. -/
def Command.runSystem (command : Command) (setting : LogSetting) : IO UInt32 := do
  let contents ← command.inputs.mapM fun path => do return (path, ← readFile path)
  let performance := command.perform setting fun path =>
    (contents.lookup path).getD (.error .notFound)
  IO.eprint performance.errors
  match performance.ending with
  | .done => return 0
  | .failed failure =>
    IO.eprint failure.row
    return 1
  | .print text =>
    IO.println text
    return 0
  | .write path text =>
    try
      IO.FS.writeFile path text
      return 0
    catch error =>
      IO.eprint (Failure.output path (fileError error)).row
      return 1

end DialogueScript

def main (arguments : List String) : IO UInt32 := do
  let setting := DialogueScript.LogSetting.ofString ((← IO.getEnv "RUST_LOG").getD "")
  match DialogueScript.Command.ofArguments? arguments with
  | some command => command.runSystem setting
  | none =>
    IO.eprintln "usage: msgscript (compile | check) INPUT [OPTIONS]"
    return DialogueScript.Command.usageCode
