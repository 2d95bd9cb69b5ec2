import DialogueScript.CommandLine.Pattern.Notation
import DialogueScript.Diagnostics.Event
import DialogueScript.Text.Control
import DialogueScript.Text.Split
import DialogueScript.Text.WhiteSpace

/-!
# The log of the program

A `LogFilter` says which records are shown. Its directives set the least severe level for the
targets that start with a name, or for all of them, and the directive with the longest name that
fits a target decides. A filter may also have a pattern, which must occur in what is shown.

A user sets the filter by a `LogSetting`: directives between commas, and a slash in front of the
pattern. A part that is not understood is ignored with a warning.

A record is shown with its level and target in brackets, the level padded to five letters, and the
rows of its text behind the first one indented by four spaces. Controls are left out of all this.
-/

set_option autoImplicit false
set_option relaxedAutoImplicit false

namespace DialogueScript

/-! ### Filters -/

/-- The least severe level that is shown for some targets, or none if nothing is shown. -/
structure LogDirective where
  /-- What the targets start with, or none if they are all. -/
  target : Option (List Char)
  level : Option LogLevel
deriving DecidableEq, Repr

namespace LogDirective

/-- What the targets of a directive start with. -/
def stem (directive : LogDirective) : List Char :=
  directive.target.getD []

/-- Whether a directive is for a target. -/
def covers (directive : LogDirective) (target : List Char) : Bool :=
  directive.stem.isPrefixOf target

/-- Whether a directive shows a level. -/
def shows (directive : LogDirective) (level : LogLevel) : Bool :=
  directive.level.any (level ≤ ·)

end LogDirective

/-- Which records are shown. -/
structure LogFilter where
  directives : List LogDirective
  pattern : Option Pattern
deriving DecidableEq, Repr

namespace LogFilter

/-- Shows errors, as the program does without a setting. -/
def errors : LogFilter := ⟨[⟨none, some .error⟩], none⟩

/-- The directive with the longest name that covers a target, and of several the last one. -/
def deciding? (filter : LogFilter) (target : List Char) : Option LogDirective :=
  (filter.directives.filter (·.covers target)).foldl (fun best directive =>
    match best with
    | some other => if other.stem.length ≤ directive.stem.length then some directive else best
    | none => some directive) none

/-- Whether a record is shown. -/
def admits (filter : LogFilter) (record : LogRecord) : Bool :=
  (filter.deciding? record.target.toList).any (·.shows record.level) &&
    filter.pattern.all (·.occursIn record.text.toList)

/-- A filter with a directive in the place of the one for the same name, or behind all others. -/
def set (filter : LogFilter) (directive : LogDirective) : LogFilter :=
  { filter with directives :=
      if filter.directives.any (·.target = directive.target) then
        filter.directives.map fun other =>
          if other.target = directive.target then directive else other
      else filter.directives ++ [directive] }

end LogFilter

/-! ### Settings -/

/-- A part of a setting that is not understood. -/
inductive LogSettingFault where
  /-- There is more than one slash in the setting. -/
  | slashes (setting : List Char)
  /-- A directive is none, or its level. -/
  | directive (text : List Char)
  | pattern (text : List Char) (fault : PatternFault)
deriving DecidableEq, Repr

/-- The wording of a fault. -/
def LogSettingFault.message : LogSettingFault → String
  | slashes setting =>
    "invalid logging spec '" ++ String.ofList setting ++ "' (too many '/'s)"
  | directive text => "invalid logging spec '" ++ String.ofList text ++ "'"
  | pattern text fault => "invalid regex filter - " ++ fault.message text

/-- The row that warns of a fault. -/
def LogSettingFault.row (fault : LogSettingFault) : String :=
  "warning: " ++ fault.message ++ ", ignoring it\n"

namespace LogDirective

/-- A level or the word for none, in either case of its letters. -/
def level? (word : List Char) : Option (Option LogLevel) :=
  let word := word.map Char.toUpper
  if word = "OFF".toList then some none
  else (LogLevel.all.find? (·.name.toList = word)).map some

/-- A directive as it is written: a level, a name, or both with an equals sign between them. A name
without a level shows everything. -/
def ofString (text : List Char) : Except LogSettingFault LogDirective :=
  let name := text.takeWhile (· != '=')
  match text.dropWhile (· != '=') with
  | [] =>
    match level? name with
    | some level => .ok ⟨none, level⟩
    | none => .ok ⟨some name, some .trace⟩
  | _ :: behind =>
    let word := Text.trim behind
    if behind.contains '=' then .error (.directive text)
    else if word.isEmpty then .ok ⟨some name, some .trace⟩
    else
      match level? word with
      | some level => .ok ⟨some name, level⟩
      | none => .error (.directive word)

end LogDirective

/-- What a user asks the log to show, and what of it is not understood. -/
structure LogSetting where
  filter : LogFilter
  faults : List LogSettingFault
deriving DecidableEq, Repr

namespace LogSetting

/-- A setting in which no directive is read yet. -/
def empty : LogSetting := ⟨⟨[], none⟩, []⟩

/-- A setting with a directive that is written behind it. -/
def addDirective (setting : LogSetting) (text : List Char) : LogSetting :=
  match LogDirective.ofString text with
  | .ok directive => { setting with filter := setting.filter.set directive }
  | .error fault => { setting with faults := setting.faults ++ [fault] }

/-- A setting with a pattern that is written behind it. -/
def addPattern (setting : LogSetting) (text : List Char) : LogSetting :=
  match Pattern.ofString text with
  | .ok pattern => { setting with filter := { setting.filter with pattern := some pattern } }
  | .error fault => { setting with faults := setting.faults ++ [.pattern text fault] }

/-- A setting that shows errors if it has no directive. -/
def orErrors (setting : LogSetting) : LogSetting :=
  if setting.filter.directives.isEmpty then
    { setting with filter := { setting.filter with directives := LogFilter.errors.directives } }
  else setting

/-- The setting of some directives. -/
def ofDirectives (text : List Char) : LogSetting :=
  (((Text.split ',' text).map Text.trim).filter (· ≠ [])).foldl addDirective empty

/-- A setting as it is written. -/
def ofString (text : String) : LogSetting :=
  match Text.split '/' text.toList with
  | [directives] => (ofDirectives directives).orErrors
  | [directives, pattern] => ((ofDirectives directives).addPattern pattern).orErrors
  | _ => ⟨LogFilter.errors, [.slashes text.toList]⟩

/-- The rows that warn of what is not understood. -/
def warnings (setting : LogSetting) : String :=
  String.join (setting.faults.map LogSettingFault.row)

end LogSetting

/-! ### Rows -/

namespace LogRecord

/-- The level of a record, padded to five letters. -/
def paddedLevel (record : LogRecord) : String :=
  let name := record.level.name
  name ++ String.ofList (List.replicate (5 - name.length) ' ')

/-- The text of a record with its later rows indented. -/
def indentedText (record : LogRecord) : List Char :=
  record.text.toList.flatMap fun c => if c = '\n' then "\n    ".toList else [c]

/-- A record as a row of the log. A control sequence that is open at its end takes the end of the
row with it. -/
def row (record : LogRecord) : String :=
  let target := if record.target.isEmpty then "" else " " ++ record.target
  let text := String.ofList record.indentedText
  let row := "[" ++ record.paddedLevel ++ target ++ "] " ++ text ++ "\n"
  String.ofList (Text.dropControls row.toList)

end LogRecord

/-- The rows of the records that a filter admits. -/
def LogFilter.rows (filter : LogFilter) (records : List LogRecord) : String :=
  String.join ((records.filter filter.admits).map LogRecord.row)

end DialogueScript
