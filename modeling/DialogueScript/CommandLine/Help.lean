import DialogueScript.Script.Basic

/-!
# Help pages

`HelpTopic.page` is what the program says about itself and about each of its commands: what it does,
how it is called, and what the words mean that it takes. A page is laid out in sections. The meaning
of a word stands behind it in a column, or below it where the column would be too narrow for one of
the meanings.
-/

set_option autoImplicit false
set_option relaxedAutoImplicit false

namespace DialogueScript

/-- What a help page is about. -/
inductive HelpTopic where
  | program
  | compile
  | check
  /-- The command that asks for help. -/
  | help
deriving DecidableEq, Repr

/-- How much a help page says. -/
inductive HelpForm where
  | brief
  /-- With what the values of options mean. -/
  | full
deriving DecidableEq, Repr

/-- How the entries of a section are laid out. -/
inductive HelpLayout where
  /-- The meanings stand in a column. -/
  | columns
  /-- Each meaning stands below its words. -/
  | stacked
  /-- Each meaning stands below its words, and entries are apart from each other. -/
  | spread
deriving DecidableEq, Repr

/-- Words that the program takes, and what they mean. -/
structure HelpEntry where
  words : String
  meaning : String
deriving DecidableEq, Repr

/-- A part of a help page. -/
structure HelpSection where
  title : String
  layout : HelpLayout
  entries : List HelpEntry
deriving DecidableEq, Repr

/-- A help page. -/
structure HelpPage where
  about : String
  usage : String
  sections : List HelpSection
deriving DecidableEq, Repr

/-! ### Layout -/

/-- The space in front of a meaning that stands below its words. -/
def helpIndent : String := "          "

/-- An entry with its meaning behind words of a width. -/
def HelpEntry.inColumn (entry : HelpEntry) (width : Nat) : String :=
  "  " ++ entry.words ++ String.ofList (List.replicate (width - entry.words.length) ' ') ++ "  " ++
    entry.meaning

/-- An entry with its meaning below the words. -/
def HelpEntry.below (entry : HelpEntry) : String :=
  "  " ++ entry.words ++ "\n" ++ helpIndent ++ entry.meaning

/-- A section in its layout. -/
def HelpSection.render (part : HelpSection) : String :=
  part.title ++ ":\n" ++ match part.layout with
    | .columns =>
      let width := (part.entries.map (·.words.length)).foldr max 0
      "\n".intercalate (part.entries.map (·.inColumn width))
    | .stacked => "\n".intercalate (part.entries.map HelpEntry.below)
    | .spread => "\n\n".intercalate (part.entries.map HelpEntry.below)

/-- A page with its sections apart from each other. -/
def HelpPage.render (page : HelpPage) : String :=
  "\n\n".intercalate
    (page.about :: ("Usage: " ++ page.usage) :: page.sections.map HelpSection.render)

/-! ### Pages -/

namespace HelpEntry

/-- The input of both commands. -/
def input : HelpEntry := ⟨"<INPUT>", "Script source file"⟩

/-- The options of both commands. -/
def jobOptions : List HelpEntry :=
  [⟨"    --config <CONFIG>", "TOML file with compiler options"⟩,
    ⟨"    --format-version <FORMAT_VERSION>",
      "Override the target binary format version (v1 | v1-big-endian)"⟩]

/-- The options of the command that writes. -/
def outputOptions (form : HelpForm) : List HelpEntry :=
  [⟨"    --out <OUT>", "Write output here instead of stdout"⟩,
    ⟨"    --emit <EMIT>", match form with
      | .brief => "Output representation [default: ron] [possible values: ron, text]"
      | .full => "Output representation\n" ++ helpIndent ++ "\n" ++ helpIndent ++
        "[default: ron]\n\n" ++ helpIndent ++ "Possible values:\n" ++ helpIndent ++
        "- ron:  Pretty-printed RON of the script model\n" ++ helpIndent ++
        "- text: Human-readable listing in source notation"⟩]

/-- A request for help. -/
def helpOption (meaning : String) : HelpEntry := ⟨"-h, --help", meaning⟩

end HelpEntry

namespace HelpTopic

/-- The page about the program. -/
def programPage : HelpPage where
  about := "Compile message scripts into the message script model."
  usage := "msgscript <COMMAND>"
  sections :=
    [⟨"Commands", .columns,
        [⟨"compile", "Compile a script and write the resulting model"⟩,
          ⟨"check", "Compile a script and report structural problems without writing output"⟩,
          ⟨"help", "Print this message or the help of the given subcommand(s)"⟩]⟩,
      ⟨"Options", .columns,
        [.helpOption "Print help", ⟨"-V, --version", "Print version"⟩]⟩]

/-- The page about the command that writes. -/
def compilePage (form : HelpForm) : HelpPage :=
  let (inputLayout, optionLayout, other) := match form with
    | .brief => (HelpLayout.columns, HelpLayout.stacked, "Print help (see more with '--help')")
    | .full => (HelpLayout.spread, HelpLayout.spread, "Print help (see a summary with '-h')")
  { about := "Compile a script and write the resulting model"
    usage := "msgscript compile [OPTIONS] <INPUT>"
    sections :=
      [⟨"Arguments", inputLayout, [.input]⟩,
        ⟨"Options", optionLayout,
          HelpEntry.outputOptions form ++ HelpEntry.jobOptions ++ [.helpOption other]⟩] }

/-- The page about the command that checks. -/
def checkPage : HelpPage where
  about := "Compile a script and report structural problems without writing output"
  usage := "msgscript check [OPTIONS] <INPUT>"
  sections :=
    [⟨"Arguments", .columns, [.input]⟩,
      ⟨"Options", .stacked, HelpEntry.jobOptions ++ [.helpOption "Print help"]⟩]

/-- The page about the command that asks for help. -/
def helpPage : HelpPage where
  about := "Print this message or the help of the given subcommand(s)"
  usage := "msgscript help [COMMAND]..."
  sections := [⟨"Arguments", .columns, [⟨"[COMMAND]...", "Print help for the subcommand(s)"⟩]⟩]

/-- The page about a topic. -/
def page (topic : HelpTopic) (form : HelpForm) : HelpPage :=
  match topic with
  | program => programPage
  | compile => compilePage form
  | check => checkPage
  | help => helpPage

end HelpTopic

end DialogueScript
