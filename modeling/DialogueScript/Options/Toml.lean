import DialogueScript.Options.Basic
import DialogueScript.Text.Utf8
import DialogueScript.Toml

/-!
# Options in TOML

`Options.ofToml?` reads options from a document that may define `format_version` and `channel`, each
at most once, as texts. The format version may also be a table with one entry, which is empty and
named like the version. An option that is not defined keeps its default. Any other key, a format
version that is not named exactly, and anything that is not TOML make the document invalid.
-/

set_option autoImplicit false
set_option relaxedAutoImplicit false

namespace DialogueScript

/-- What a definition or a header in a document says about options. -/
inductive OptionsEntry where
  | formatVersion (version : FormatVersion)
  | channel (name : String)
  /-- There is a table for the format version. -/
  | formatVersionTable
deriving DecidableEq, Repr

namespace OptionsEntry

/-- The key of the format version. -/
def formatVersionKey : Toml.Key := "format_version".toList

/-- The key of the channel. -/
def channelKey : Toml.Key := "channel".toList

/-- The format version of an entry. -/
def version? : OptionsEntry → Option FormatVersion
  | formatVersion version => some version
  | _ => none

/-- The channel of an entry. -/
def channel? : OptionsEntry → Option String
  | channel name => some name
  | _ => none

/-- A format version by its exact name. -/
def ofVersionName? (name : List Char) : Option OptionsEntry :=
  (FormatVersion.ofName? (String.ofList name)).map formatVersion

/-- What a definition says, which may stand in a table. -/
def ofDefinition? (table : List Toml.Key) (definition : Toml.Definition) : Option OptionsEntry :=
  match table ++ definition.path, definition.value with
  | [key], .text content =>
    if key = formatVersionKey then ofVersionName? content
    else if key = channelKey then some (channel (String.ofList content))
    else none
  | [key, name], .empty => if key = formatVersionKey then ofVersionName? name else none
  | _, _ => none

/-- What a header says. -/
def ofHeader? : List Toml.Key → Option OptionsEntry
  | [key] => if key = formatVersionKey then some formatVersionTable else none
  | [key, name] => if key = formatVersionKey then ofVersionName? name else none
  | _ => none

/-- What a table says. -/
def ofTable? (table : Toml.Table) : Option (List OptionsEntry) := do
  let entry ← ofHeader? table.path
  let entries ← table.definitions.mapM (ofDefinition? table.path)
  return entry :: entries

end OptionsEntry

namespace Options

/-- Whether a table for the format version, if there is one, is the only one that there may be and
has the version in it. -/
def isComplete (tableEntries : List OptionsEntry) : Bool :=
  match tableEntries.count OptionsEntry.formatVersionTable with
  | 0 => true
  | 1 => (tableEntries.filterMap OptionsEntry.version?).length == 1
  | _ => false

/-- Options from the entries in front of all headers and those of tables. No option may be given
twice. -/
def ofEntries? (entries tableEntries : List OptionsEntry) : Option Options :=
  let versions := (entries ++ tableEntries).filterMap OptionsEntry.version?
  let channels := (entries ++ tableEntries).filterMap OptionsEntry.channel?
  if versions.length ≤ 1 ∧ channels.length ≤ 1 ∧ isComplete tableEntries then
    some ⟨versions.head?.getD ({} : Options).formatVersion,
      channels.head?.getD ({} : Options).channel⟩
  else none

/-- Options from a document that is read. -/
def ofDocument? (document : Toml.Document) : Option Options := do
  let entries ← document.definitions.mapM (OptionsEntry.ofDefinition? [])
  let tableEntries ← document.tables.mapM OptionsEntry.ofTable?
  ofEntries? entries tableEntries.flatten

/-- Options from a document, in front of which there may be a mark of byte order. -/
def ofToml? (document : List Char) : Option Options :=
  (Toml.document? (Utf8.dropMark document)).bind ofDocument?

end Options

/-- Why options cannot be loaded from a file. -/
inductive OptionsError where
  /-- The file cannot be read, for a reason. -/
  | unreadable (path reason : String)
  /-- The file holds no options. -/
  | invalid
deriving DecidableEq, Repr

/-- The wording of a failure. What is wrong with a document is not told: the words of the reader of
TOML, which stand behind `invalid config: `, are not reproduced, and one phrase stands for them. -/
def OptionsError.message : OptionsError → String
  | unreadable path reason => "unable to read config '" ++ path ++ "': " ++ reason
  | invalid => "invalid config: not an assignment of known options"

namespace Options

/-- What is said about a file that is not text. -/
def notTextReason : String := "stream did not contain valid UTF-8"

/-- Loads options from what a file holds, or the reason why it cannot be read. -/
def load (path : String) (content : Except String (List UInt8)) : Except OptionsError Options :=
  match content with
  | .error reason => .error (.unreadable path reason)
  | .ok bytes =>
    match Utf8.decode bytes with
    | ⟨_, some _⟩ => .error (.unreadable path notTextReason)
    | ⟨document, none⟩ =>
      match ofToml? document with
      | some options => .ok options
      | none => .error .invalid

end Options

end DialogueScript
