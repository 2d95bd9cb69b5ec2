import DialogueScript.Compile.Document

/-!
# Compiling text, bytes and readers

A source is text, bytes, or a reader that delivers bytes piece by piece. A reader is read to its end
before anything else happens, and bytes are decoded before the text is parsed; each form first drops
one mark of byte order at its beginning, and positions are counted behind it.

`tryCompile` says what it finds and whether there is a script. `compile` has the same findings and
says why there is none, except where a reader fails: this it answers at once, without a finding.
-/

set_option autoImplicit false
set_option relaxedAutoImplicit false

namespace DialogueScript

/-- What a reader does when it is asked for bytes. -/
inductive Read where
  | bytes (chunk : List UInt8)
  /-- The reader was interrupted and wants to be asked again. -/
  | interrupted
  /-- The reader fails for a reason. -/
  | failed (reason : String)
deriving DecidableEq, Repr

/-- Asks a reader for bytes until it gives none, with the reason if it fails first. -/
def readToEnd : List Read → Except String (List UInt8)
  | [] => .ok []
  | .bytes [] :: _ => .ok []
  | .bytes chunk :: rest => (readToEnd rest).map (chunk ++ ·)
  | .interrupted :: rest => readToEnd rest
  | .failed reason :: _ => .error reason

/-- A form in which a script may be handed to a compiler. -/
inductive Source where
  | text (text : List Char)
  | bytes (bytes : List UInt8)
  | reader (reads : List Read)
deriving DecidableEq, Repr

/-- The position behind a text, found by looking for its last line feed. -/
def endPosition (text : List Char) : Position :=
  ⟨text.count '\n' + 1, (text.reverse.takeWhile (· != '\n')).length + 1⟩

/-- A failed compilation after given reports, which ends by saying so. -/
def giveUp (findings : List Finding) (position : Option Position) : Step Script :=
  ⟨findings ++ [.gaveUp position], none⟩

/-- Compiles a text. -/
def compileText (version : FormatVersion) (text : List Char) : Step Script :=
  match Syntax.parse (Utf8.dropMark text) with
  | .error error => giveUp [.syntaxError error] none
  | .ok document =>
    match document.script version with
    | ⟨findings, none⟩ => giveUp findings (some Position.start)
    | step => step

/-- Compiles bytes. -/
def compileBytes (version : FormatVersion) (bytes : List UInt8) : Step Script :=
  match Utf8.decode (Utf8.dropMarkBytes bytes) with
  | ⟨text, none⟩ => compileText version text
  | ⟨text, some fault⟩ => giveUp [.notUtf8 fault (endPosition text)] none

/-- Compiles a source, with all that there is to report. -/
def tryCompile (version : FormatVersion) : Source → Step Script
  | .text text => compileText version text
  | .bytes bytes => compileBytes version bytes
  | .reader reads =>
    match readToEnd reads with
    | .ok bytes => compileBytes version bytes
    | .error reason => giveUp [.unreadable reason] none

/-- Why a source gives no script. -/
inductive CompileError where
  /-- The findings tell. -/
  | failed
  /-- The source cannot be read to its end. -/
  | unreadable (reason : String)
deriving DecidableEq, Repr

/-- The wording of a failure. -/
def CompileError.message : CompileError → String
  | failed => "failed to compile message script"
  | unreadable reason => "failed to read message script source: " ++ reason

/-- A finished compilation: its findings, and its script or why there is none. -/
structure Compilation where
  findings : List Finding
  result : Except CompileError Script

/-- The end of a compilation whose failure the findings tell. -/
def Step.conclude (step : Step Script) : Compilation :=
  ⟨step.findings, match step.value with
    | some script => .ok script
    | none => .error .failed⟩

/-- Compiles a source, and says why it fails. -/
def compile (version : FormatVersion) : Source → Compilation
  | .text text => (compileText version text).conclude
  | .bytes bytes => (compileBytes version bytes).conclude
  | .reader reads =>
    match readToEnd reads with
    | .ok bytes => (compileBytes version bytes).conclude
    | .error reason => ⟨[], .error (.unreadable reason)⟩

end DialogueScript
