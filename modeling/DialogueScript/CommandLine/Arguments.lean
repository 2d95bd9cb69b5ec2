import DialogueScript.CommandLine.Help

/-!
# Arguments

`Command.ofArguments?` reads the words behind the name of the program. The first one asks for the
version or for help, or names a command; then come options and the input, in any order. The value of
an option stands behind an equals sign or is the next word, which must not look like an option
itself. Every option may be given once, and there must be exactly one input. Behind two dashes no
word is an option.

A command may be asked for help about itself. Nothing behind the request is read, and what stands in
front of it must have no fault, but need not be complete.
-/

set_option autoImplicit false
set_option relaxedAutoImplicit false

namespace DialogueScript

/-- The form in which a compiled script is written. -/
inductive Emit where
  | ron
  /-- The script in source notation. -/
  | text
deriving DecidableEq, Repr

/-- The form of a name, spelled exactly. -/
def Emit.ofName? (name : String) : Option Emit :=
  if name = "ron" then some ron else if name = "text" then some text else none

/-- What both commands work on: an input and options for its compiler. -/
structure Job where
  input : String
  config : Option String
  formatVersion : Option FormatVersion
deriving DecidableEq, Repr

/-- What a user asks the program to do. -/
inductive Command where
  | version
  /-- Show a help page. -/
  | help (topic : HelpTopic) (form : HelpForm)
  /-- Compile and write the script. -/
  | compile (job : Job) (emit : Emit) (out : Option String)
  /-- Compile and list the problems of the script. -/
  | check (job : Job)
deriving DecidableEq, Repr

/-- The options of the commands. -/
inductive OptionName where
  | out
  | emit
  | config
  | formatVersion
deriving DecidableEq, Repr

namespace OptionName

/-- The options that only the command that writes has. -/
def ofOutput : List OptionName := [out, emit]

/-- The options of every command. -/
def ofJob : List OptionName := [config, formatVersion]

/-- An option as it is written behind two dashes. -/
def name : OptionName → String
  | out => "out"
  | emit => "emit"
  | config => "config"
  | formatVersion => "format-version"

end OptionName

/-- The words of a command, sorted into options with their values and inputs, up to a request for
help if there is one. -/
structure Words where
  options : List (OptionName × String)
  inputs : List String
  help : Option HelpForm
deriving DecidableEq, Repr

/-- A request for help: a long option, or a short one, behind which more may follow. -/
def HelpForm.ofWord? (word : String) : Option HelpForm :=
  match word.toList with
  | '-' :: 'h' :: _ => some brief
  | _ => if word = "--help" then some full else none

namespace Words

/-- Words with an option in front. -/
def addOption (option : OptionName) (value : String) (words : Words) : Words :=
  { words with options := (option, value) :: words.options }

/-- Words with an input in front. -/
def addInput (input : String) (words : Words) : Words :=
  { words with inputs := input :: words.inputs }

/-- A word that is no value: it starts with a dash and does not consist of one. -/
def isOptionLike (word : String) : Bool :=
  word.toList.head? = some '-' && word != "-"

/-- An option with what stands behind its equals sign. -/
def splitOption (word : String) : String × Option String :=
  let text := word.toList.drop 2
  let name := String.ofList (text.takeWhile (· != '='))
  match text.dropWhile (· != '=') with
  | [] => (name, none)
  | _ :: value => (name, some (String.ofList value))

/-- Sorts the words behind the name of a command that has given options. -/
def sort? (known : List OptionName) : List String → Option Words
  | [] => some ⟨[], [], none⟩
  | word :: rest =>
    if word = "--" then some ⟨[], rest, none⟩
    else if (HelpForm.ofWord? word).isSome then some ⟨[], [], HelpForm.ofWord? word⟩
    else if isOptionLike word then
      if word.toList.take 2 = ['-', '-'] then
        let (name, value) := splitOption word
        match known.find? (·.name = name), value with
        | none, _ => none
        | some option, some value => (sort? known rest).map (·.addOption option value)
        | some option, none =>
          match rest with
          | value :: rest =>
            if isOptionLike value then none
            else (sort? known rest).map (·.addOption option value)
          | [] => none
      else none
    else (sort? known rest).map (·.addInput word)

/-- The value of an option, or none if it is not given; it must not be given twice. -/
def option? (words : Words) (option : OptionName) : Option (Option String) :=
  match words.options.filter (·.1 = option) with
  | [] => some none
  | [(_, value)] => some (some value)
  | _ => none

/-- The path that an option gives, which must not be empty. -/
def path? (words : Words) (option : OptionName) : Option (Option String) :=
  (words.option? option).bind fun
    | some "" => none
    | value => some value

/-- The form that the words ask for, which is RON if they ask for none. -/
def emit? (words : Words) : Option Emit :=
  (words.option? .emit).bind fun
    | some name => Emit.ofName? name
    | none => some .ron

/-- The format version that the words ask for. -/
def formatVersion? (words : Words) : Option (Option FormatVersion) :=
  (words.option? .formatVersion).bind fun
    | some spelling => (FormatVersion.ofSpelling spelling).toOption.map some
    | none => some none

/-- What both commands take from their words. -/
def job? (words : Words) : Option Job := do
  let input ← match words.inputs with
    | [input] => if input.isEmpty then none else some input
    | _ => none
  let config ← words.path? .config
  let formatVersion ← words.formatVersion?
  return { input, config, formatVersion }

/-- Nothing is wrong with the words so far: each option has a value that it may have, and there is
at most one input. -/
def isSound (words : Words) : Bool :=
  words.inputs.length ≤ 1 && !words.inputs.contains "" && (words.path? .config).isSome &&
    words.formatVersion?.isSome && words.emit?.isSome && (words.path? .out).isSome

end Words

namespace Command

/-- A request for the version: a long option, or a short one, behind which more may follow. -/
def isVersionRequest (word : String) : Bool :=
  word = "--version" || word.toList.take 2 = ['-', 'V']

/-- The help page that a command shows if its words request it, and otherwise what the command
does. -/
def orHelp? (topic : HelpTopic) (words : Words) (command : Option Command) : Option Command :=
  match words.help with
  | some form => if words.isSound then some (help topic form) else none
  | none => command

/-- The topic that words ask for help about. -/
def helpTopic? : List String → Option HelpTopic
  | [] => some .program
  | ["compile"] => some .compile
  | ["check"] => some .check
  | ["help"] => some .help
  | _ => none

/-- The command that arguments ask for, if they are well formed. -/
def ofArguments? : List String → Option Command
  | [] => none
  | "compile" :: rest => do
    let words ← Words.sort? (OptionName.ofOutput ++ OptionName.ofJob) rest
    orHelp? .compile words do
      let job ← words.job?
      let emit ← words.emit?
      let out ← words.path? .out
      return .compile job emit out
  | "check" :: rest => do
    let words ← Words.sort? OptionName.ofJob rest
    orHelp? .check words do
      let job ← words.job?
      return .check job
  | "help" :: rest => (helpTopic? rest).map (help · .full)
  | word :: _ =>
    if isVersionRequest word then some .version
    else (HelpForm.ofWord? word).map (help .program)

end Command

end DialogueScript
