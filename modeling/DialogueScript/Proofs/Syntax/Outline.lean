import DialogueScript.Proofs.Syntax.Language
import DialogueScript.Syntax.Node

/-!
# Outlines of scripts

An `Outline` is a script without its layout: windows with their identifiers, speakers and bodies,
texts as runs and tags, tags as an id and literals. `Outline.WellFormed` says that its words are
words of the grammar and that no two runs stand next to each other, so that runs are maximal.

`Outline.spellings` is the language of all texts that spell an outline, with any blanks in front,
any spacing where spacing may stand and any case of the keywords. A script of the language is a
spelling of some well-formed outline and conversely (`mem_script_iff`).

A concrete syntax tree has an outline, which forgets its spacing (`Document.outline`). The spellings
of an outline are the texts of the trees that have this outline and hold spacing where spacing may
stand (`mem_spellings_iff`).
-/

set_option autoImplicit false
set_option relaxedAutoImplicit false

namespace DialogueScript.Syntax

open scoped Computability

namespace Outline

/-- A tag: its id, if it has one, and its literals. -/
structure Tag where
  id : Option (List Char)
  literals : List (List Char)
deriving DecidableEq, Repr

/-- A piece of a text. -/
inductive Item where
  /-- A run of plain characters. -/
  | run (text : List Char)
  /-- A tag. -/
  | tag (tag : Tag)
deriving DecidableEq, Repr

/-- Runs and tags in the order of the source. -/
abbrev Text := List Item

/-- A window of either kind, with its identifier if it has one. -/
inductive Window where
  | dialog (identifier : Option (List Char)) (speaker : Option Text) (body : Text)
  | selection (identifier : Option (List Char)) (body : Text)
deriving DecidableEq, Repr

end Outline

/-- The windows of a script in the order of the source. -/
abbrev Outline := List Outline.Window

/-! ### Well-formed outlines -/

namespace Outline

/-- The words of a tag are words of the grammar, and a tag without an id has no literals. -/
structure Tag.WellFormed (tag : Tag) : Prop where
  id : ∀ id ∈ tag.id, id ∈ Spelling.tagId
  literals : ∀ literal ∈ tag.literals, literal ∈ Spelling.literal
  literals_eq_nil : tag.id = none → tag.literals = []

/-- A run is a nonempty run of plain characters, and a tag is well formed. -/
def Item.WellFormed : Item → Prop
  | .run text => text ∈ Spelling.run
  | .tag t => t.WellFormed

/-- The item is a run. -/
def Item.IsRun : Item → Prop
  | .run _ => True
  | .tag _ => False

/-- The items of a text are well formed, and no two runs stand next to each other. -/
structure Text.WellFormed (items : Text) : Prop where
  each : ∀ item ∈ items, item.WellFormed
  runs : items.IsChain fun first second ↦ ¬(first.IsRun ∧ second.IsRun)

/-- Whether runs touch depends on nothing but which items are runs. -/
theorem isChain_runs_iff {items : Text} :
    items.IsChain (fun first second ↦ ¬(first.IsRun ∧ second.IsRun)) ↔
      (items.map Item.IsRun).IsChain fun first second ↦ ¬(first ∧ second) := by
  rw [List.isChain_map]

/-- The identifier of a window is a word of the grammar, and its texts are well formed. -/
def Window.WellFormed : Window → Prop
  | .dialog identifier speaker body =>
    (∀ word ∈ identifier, word ∈ Spelling.identifier) ∧ (∀ name ∈ speaker, Text.WellFormed name) ∧
      Text.WellFormed body
  | .selection identifier body =>
    (∀ word ∈ identifier, word ∈ Spelling.identifier) ∧ Text.WellFormed body

/-- The windows of a script are well formed. -/
def WellFormed (outline : Outline) : Prop :=
  ∀ window ∈ outline, window.WellFormed

/-! ### Spellings -/

/-- The spellings of a tag. -/
def Tag.spellings (tag : Tag) : Language Char :=
  {['<']} * Spelling.spacing * {tag.id.getD []} *
    (tag.literals.map fun literal ↦ Spelling.gap * {literal}).prod * Spelling.spacing * {['>']}

/-- The spellings of a piece of a text. A run is spelled as it is. -/
def Item.spellings : Item → Language Char
  | .run text => {text}
  | .tag t => t.spellings

/-- The spellings of a text. -/
def Text.spellings (items : Text) : Language Char :=
  (items.map Item.spellings).prod

/-- The spellings of an identifier with the spacing in front of it, or of its absence. -/
def labelSpellings : Option (List Char) → Language Char
  | some identifier => Spelling.gap * {identifier}
  | none => 1

/-- The spellings of a speaker in its brackets, or of its absence. -/
def speakerSpellings : Option Text → Language Char
  | some name => {['[']} * Text.spellings name * {[']']}
  | none => 1

/-- The spellings of a window. -/
def Window.spellings : Window → Language Char
  | .dialog identifier speaker body =>
    {['[']} * Spelling.spacing * Spelling.anyCase ['d', 'l', 'g'] * labelSpellings identifier *
      Spelling.spacing * speakerSpellings speaker * Spelling.spacing * {[']']} *
      Text.spellings body
  | .selection identifier body =>
    {['[']} * Spelling.spacing * Spelling.anyCase ['s', 'e', 'l'] * labelSpellings identifier *
      Spelling.spacing * {[']']} * Text.spellings body

/-- The spellings of a script. -/
def spellings (outline : Outline) : Language Char :=
  Spelling.blanks * (outline.map Window.spellings).prod

end Outline

/-! ### Outlines of trees -/

/-- The outline of a tag. -/
def Tag.outline (tag : Tag) : Outline.Tag :=
  ⟨tag.id, tag.args.map Argument.literal⟩

/-- The outline of a piece of text. -/
def Item.outline : Item → Outline.Item
  | .run text => .run text
  | .tag t => .tag t.outline

/-- The outline of a text with tags. -/
def TaggedText.outline (items : TaggedText) : Outline.Text :=
  items.map Item.outline

/-- The outline of a window. -/
def Window.outline : Window → Outline.Window
  | .dialog w =>
    .dialog (w.label.map Label.identifier) (w.speaker.map TaggedText.outline) w.body.outline
  | .selection w => .selection (w.label.map Label.identifier) w.body.outline

/-- The outline of a whole source. -/
def Document.outline (document : Document) : Outline :=
  document.windows.map Window.outline

/-- A tag holds spacing where spacing may stand. -/
structure Tag.Spaced (tag : Tag) : Prop where
  lead : tag.lead ∈ Spelling.spacing
  args : ∀ argument ∈ tag.args, argument.gap ∈ Spelling.gap
  tail : tag.tail ∈ Spelling.spacing

/-- A piece of text holds spacing where spacing may stand. -/
def Item.Spaced : Item → Prop
  | .run _ => True
  | .tag t => t.Spaced

/-- A text holds spacing where spacing may stand. -/
def TaggedText.Spaced (items : TaggedText) : Prop :=
  ∀ item ∈ items, item.Spaced

/-- A dialog window has its keyword, and spacing where spacing may stand. -/
structure Dialog.Spaced (window : Dialog) : Prop where
  lead : window.lead ∈ Spelling.spacing
  keyword : window.keyword ∈ Spelling.anyCase ['d', 'l', 'g']
  label : ∀ label ∈ window.label, label.gap ∈ Spelling.gap
  gap : window.gap ∈ Spelling.spacing
  speaker : ∀ name ∈ window.speaker, TaggedText.Spaced name
  tail : window.tail ∈ Spelling.spacing
  body : window.body.Spaced

/-- A selection window has its keyword, and spacing where spacing may stand. -/
structure Selection.Spaced (window : Selection) : Prop where
  lead : window.lead ∈ Spelling.spacing
  keyword : window.keyword ∈ Spelling.anyCase ['s', 'e', 'l']
  label : ∀ label ∈ window.label, label.gap ∈ Spelling.gap
  tail : window.tail ∈ Spelling.spacing
  body : window.body.Spaced

/-- A window has its keyword, and spacing where spacing may stand. -/
def Window.Spaced : Window → Prop
  | .dialog w => w.Spaced
  | .selection w => w.Spaced

/-- A source begins with blanks, and its windows hold spacing where spacing may stand. -/
structure Document.Spaced (document : Document) : Prop where
  blanks : document.blanks ∈ Spelling.blanks
  windows : ∀ window ∈ document.windows, window.Spaced

/-! ### Spellings are texts of trees -/

section Trees

variable {α β : Type} {spellings : β → Language Char} {outline : α → β} {text : α → List Char}
  {spaced : α → Prop}

/-- Assumes: the spellings of a thing are the texts of its trees. The spellings of a list of things
are the texts of the lists of their trees. -/
theorem mem_prod_map_iff
    (htrees : ∀ thing word, word ∈ spellings thing ↔
      ∃ tree, spaced tree ∧ outline tree = thing ∧ text tree = word)
    {things : List β} {word : List Char} :
    word ∈ (things.map spellings).prod ↔
      ∃ trees : List α, (∀ tree ∈ trees, spaced tree) ∧ trees.map outline = things ∧
        trees.flatMap text = word := by
  induction things generalizing word with
  | nil =>
    rw [List.map_nil, List.prod_nil, Language.mem_one]
    constructor
    · rintro rfl
      exact ⟨[], by simp, rfl, rfl⟩
    · rintro ⟨trees, _, hnil, rfl⟩
      rw [List.map_eq_nil_iff.mp hnil, List.flatMap_nil]
  | cons thing rest ih =>
    rw [List.map_cons, List.prod_cons, Language.mem_mul]
    constructor
    · rintro ⟨first, hfirst, later, hlater, rfl⟩
      obtain ⟨tree, htree, rfl, rfl⟩ := (htrees thing first).mp hfirst
      obtain ⟨trees, hspaced, rfl, rfl⟩ := ih.mp hlater
      exact ⟨tree :: trees, by simpa using ⟨htree, hspaced⟩, rfl, rfl⟩
    · rintro ⟨trees, hspaced, hmap, rfl⟩
      obtain ⟨tree, others, rfl, rfl, rfl⟩ := List.map_eq_cons_iff.mp hmap
      refine ⟨text tree, (htrees _ _).mpr ⟨tree, hspaced tree (by simp), rfl, rfl⟩,
        others.flatMap text, ih.mpr ⟨others, fun other hother ↦ hspaced other (by simp [hother]),
          rfl, rfl⟩, rfl⟩

end Trees

/-- The spellings of a literal with the spacing in front of it. -/
theorem mem_argument_iff (literal word : List Char) :
    word ∈ Spelling.gap * ({literal} : Language Char) ↔
      ∃ argument : Argument, argument.gap ∈ Spelling.gap ∧ argument.literal = literal ∧
        argument.text = word := by
  simp only [Language.mem_mul, Spelling.mem_singleton, exists_eq_left]
  constructor
  · rintro ⟨gap, hgap, rfl⟩
    exact ⟨⟨gap, literal⟩, hgap, rfl, rfl⟩
  · rintro ⟨argument, hgap, rfl, rfl⟩
    exact ⟨argument.gap, hgap, rfl⟩

theorem mem_tag_spellings_iff (outline : Outline.Tag) (word : List Char) :
    word ∈ outline.spellings ↔
      ∃ tag : Tag, tag.Spaced ∧ tag.outline = outline ∧ tag.text = word := by
  simp only [Outline.Tag.spellings, mul_assoc]
  constructor
  · intro hword
    simp only [Language.mem_mul, Spelling.mem_singleton, exists_eq_left,
      mem_prod_map_iff mem_argument_iff] at hword
    obtain ⟨_, ⟨lead, hlead, _, ⟨_, ⟨_, ⟨args, hargs, hliterals, rfl⟩, _, ⟨tail, htail, rfl⟩, rfl⟩,
      rfl⟩, rfl⟩, rfl⟩ := hword
    refine ⟨⟨lead, outline.id, args, tail⟩, ⟨hlead, hargs, htail⟩, ?_, ?_⟩
    · rw [Tag.outline, hliterals]
    · simp [Tag.text, Tag.beforeArgs, Tag.beforeId]
  · rintro ⟨tag, hspaced, rfl, rfl⟩
    have hargs := (mem_prod_map_iff mem_argument_iff).mpr ⟨tag.args, hspaced.args, rfl, rfl⟩
    have htail := Language.append_mem_mul hspaced.tail (Spelling.self_mem_singleton ['>'])
    have hbehind := Language.append_mem_mul (Spelling.self_mem_singleton (tag.id.getD []))
      (Language.append_mem_mul hargs htail)
    have hword := Language.append_mem_mul (Spelling.self_mem_singleton ['<'])
      (Language.append_mem_mul hspaced.lead hbehind)
    have htext : tag.text = ['<'] ++ (tag.lead ++ (tag.id.getD [] ++
        (tag.args.flatMap Argument.text ++ (tag.tail ++ ['>'])))) := by
      simp [Tag.text, Tag.beforeArgs, Tag.beforeId]
    rw [htext]
    exact hword

theorem mem_item_spellings_iff (outline : Outline.Item) (word : List Char) :
    word ∈ outline.spellings ↔
      ∃ item : Item, item.Spaced ∧ item.outline = outline ∧ item.text = word := by
  cases outline with
  | run text =>
    constructor
    · rintro rfl
      exact ⟨.run word, trivial, rfl, rfl⟩
    · rintro ⟨_ | tag, _, houtline, rfl⟩
      · exact Outline.Item.run.inj houtline
      · exact Outline.Item.noConfusion houtline
  | tag outline =>
    rw [Outline.Item.spellings, mem_tag_spellings_iff]
    constructor
    · rintro ⟨tag, hspaced, rfl, rfl⟩
      exact ⟨.tag tag, hspaced, rfl, rfl⟩
    · rintro ⟨_ | tag, hspaced, houtline, rfl⟩
      · exact Outline.Item.noConfusion houtline
      · exact ⟨tag, hspaced, Outline.Item.tag.inj houtline, rfl⟩

theorem mem_text_spellings_iff (outline : Outline.Text) (word : List Char) :
    word ∈ outline.spellings ↔
      ∃ items : TaggedText, items.Spaced ∧ items.outline = outline ∧ items.text = word :=
  mem_prod_map_iff mem_item_spellings_iff

theorem mem_labelSpellings_iff (identifier : Option (List Char)) (word : List Char) :
    word ∈ Outline.labelSpellings identifier ↔
      ∃ label : Option Label, (∀ l ∈ label, l.gap ∈ Spelling.gap) ∧
        label.map Label.identifier = identifier ∧ (label.map Label.text).getD [] = word := by
  cases identifier with
  | none =>
    rw [Outline.labelSpellings, Language.mem_one]
    constructor
    · rintro rfl
      exact ⟨none, by simp, rfl, rfl⟩
    · rintro ⟨label, _, hnone, rfl⟩
      rw [Option.map_eq_none_iff.mp hnone]
      rfl
  | some identifier =>
    simp only [Outline.labelSpellings, Language.mem_mul, Spelling.mem_singleton, exists_eq_left]
    constructor
    · rintro ⟨gap, hgap, rfl⟩
      exact ⟨some ⟨gap, identifier⟩, by simpa using hgap, rfl, rfl⟩
    · rintro ⟨label, hgap, hsome, rfl⟩
      obtain ⟨l, rfl, rfl⟩ := Option.map_eq_some_iff.mp hsome
      exact ⟨l.gap, hgap l rfl, rfl⟩

theorem mem_speakerSpellings_iff (speaker : Option Outline.Text) (word : List Char) :
    word ∈ Outline.speakerSpellings speaker ↔
      ∃ name : Option TaggedText, (∀ n ∈ name, TaggedText.Spaced n) ∧
        name.map TaggedText.outline = speaker ∧ (name.map speakerText).getD [] = word := by
  cases speaker with
  | none =>
    rw [Outline.speakerSpellings, Language.mem_one]
    constructor
    · rintro rfl
      exact ⟨none, by simp, rfl, rfl⟩
    · rintro ⟨name, _, hnone, rfl⟩
      rw [Option.map_eq_none_iff.mp hnone]
      rfl
  | some outline =>
    simp only [Outline.speakerSpellings, mul_assoc]
    constructor
    · intro hword
      simp only [Language.mem_mul, Spelling.mem_singleton, exists_eq_left,
        mem_text_spellings_iff] at hword
      obtain ⟨_, ⟨_, ⟨name, hname, rfl, rfl⟩, rfl⟩, rfl⟩ := hword
      exact ⟨some name, by simpa using hname, rfl, rfl⟩
    · rintro ⟨name, hname, hsome, rfl⟩
      obtain ⟨n, rfl, rfl⟩ := Option.map_eq_some_iff.mp hsome
      have htext := (mem_text_spellings_iff _ _).mpr ⟨n, hname n rfl, rfl, rfl⟩
      have hword := Language.append_mem_mul (Spelling.self_mem_singleton ['['])
        (Language.append_mem_mul htext (Spelling.self_mem_singleton [']']))
      simpa [speakerText] using hword

theorem mem_dialog_spellings_iff (identifier : Option (List Char)) (speaker : Option Outline.Text)
    (body : Outline.Text) (word : List Char) :
    word ∈ (Outline.Window.dialog identifier speaker body).spellings ↔
      ∃ window : Dialog, window.Spaced ∧
        (Window.dialog window).outline = .dialog identifier speaker body ∧ window.text = word := by
  simp only [Outline.Window.spellings, mul_assoc]
  constructor
  · intro hword
    simp only [Language.mem_mul, Spelling.mem_singleton, exists_eq_left, mem_labelSpellings_iff,
      mem_speakerSpellings_iff, mem_text_spellings_iff] at hword
    obtain ⟨_, ⟨lead, hlead, _, ⟨keyword, hkeyword, _, ⟨_, ⟨label, hlabel, rfl, rfl⟩, _, ⟨gap, hgap,
      _, ⟨_, ⟨name, hname, rfl, rfl⟩, _, ⟨tail, htail, _, ⟨_, ⟨items, hitems, rfl, rfl⟩, rfl⟩,
      rfl⟩, rfl⟩, rfl⟩, rfl⟩, rfl⟩, rfl⟩, rfl⟩ := hword
    refine ⟨⟨lead, keyword, label, gap, name, tail, items⟩,
      ⟨hlead, hkeyword, hlabel, hgap, hname, htail, hitems⟩, rfl, ?_⟩
    simp [Dialog.text, Dialog.header, Dialog.beforeSpeaker, Dialog.beforeLabel]
  · rintro ⟨window, hspaced, houtline, rfl⟩
    obtain ⟨rfl, rfl, rfl⟩ := Outline.Window.dialog.inj houtline
    have hbody := (mem_text_spellings_iff _ _).mpr ⟨window.body, hspaced.body, rfl, rfl⟩
    have hname := (mem_speakerSpellings_iff _ _).mpr ⟨window.speaker, hspaced.speaker, rfl, rfl⟩
    have hlabel := (mem_labelSpellings_iff _ _).mpr ⟨window.label, hspaced.label, rfl, rfl⟩
    have hclose := Language.append_mem_mul (Spelling.self_mem_singleton [']']) hbody
    have hspeaker := Language.append_mem_mul hspaced.gap
      (Language.append_mem_mul hname (Language.append_mem_mul hspaced.tail hclose))
    have hword := Language.append_mem_mul (Spelling.self_mem_singleton ['['])
      (Language.append_mem_mul hspaced.lead
        (Language.append_mem_mul hspaced.keyword (Language.append_mem_mul hlabel hspeaker)))
    simpa [Dialog.text, Dialog.header, Dialog.beforeSpeaker, Dialog.beforeLabel] using hword

theorem mem_selection_spellings_iff (identifier : Option (List Char)) (body : Outline.Text)
    (word : List Char) :
    word ∈ (Outline.Window.selection identifier body).spellings ↔
      ∃ window : Selection, window.Spaced ∧
        (Window.selection window).outline = .selection identifier body ∧ window.text = word := by
  simp only [Outline.Window.spellings, mul_assoc]
  constructor
  · intro hword
    simp only [Language.mem_mul, Spelling.mem_singleton, exists_eq_left, mem_labelSpellings_iff,
      mem_text_spellings_iff] at hword
    obtain ⟨_, ⟨lead, hlead, _, ⟨keyword, hkeyword, _, ⟨_, ⟨label, hlabel, rfl, rfl⟩, _, ⟨tail,
      htail, _, ⟨_, ⟨items, hitems, rfl, rfl⟩, rfl⟩, rfl⟩, rfl⟩, rfl⟩, rfl⟩, rfl⟩ := hword
    refine ⟨⟨lead, keyword, label, tail, items⟩, ⟨hlead, hkeyword, hlabel, htail, hitems⟩, rfl, ?_⟩
    simp [Selection.text, Selection.header, Selection.beforeLabel]
  · rintro ⟨window, hspaced, houtline, rfl⟩
    obtain ⟨rfl, rfl⟩ := Outline.Window.selection.inj houtline
    have hbody := (mem_text_spellings_iff _ _).mpr ⟨window.body, hspaced.body, rfl, rfl⟩
    have hlabel := (mem_labelSpellings_iff _ _).mpr ⟨window.label, hspaced.label, rfl, rfl⟩
    have hclose := Language.append_mem_mul hspaced.tail
      (Language.append_mem_mul (Spelling.self_mem_singleton [']']) hbody)
    have hword := Language.append_mem_mul (Spelling.self_mem_singleton ['['])
      (Language.append_mem_mul hspaced.lead
        (Language.append_mem_mul hspaced.keyword (Language.append_mem_mul hlabel hclose)))
    simpa [Selection.text, Selection.header, Selection.beforeLabel] using hword

theorem mem_window_spellings_iff (outline : Outline.Window) (word : List Char) :
    word ∈ outline.spellings ↔
      ∃ window : Window, window.Spaced ∧ window.outline = outline ∧ window.text = word := by
  cases outline with
  | dialog identifier speaker body =>
    rw [mem_dialog_spellings_iff]
    constructor
    · rintro ⟨window, hspaced, houtline, htext⟩
      exact ⟨.dialog window, hspaced, houtline, htext⟩
    · rintro ⟨window | window, hspaced, houtline, htext⟩
      · exact ⟨window, hspaced, houtline, htext⟩
      · exact Outline.Window.noConfusion houtline
  | selection identifier body =>
    rw [mem_selection_spellings_iff]
    constructor
    · rintro ⟨window, hspaced, houtline, htext⟩
      exact ⟨.selection window, hspaced, houtline, htext⟩
    · rintro ⟨window | window, hspaced, houtline, htext⟩
      · exact Outline.Window.noConfusion houtline
      · exact ⟨window, hspaced, houtline, htext⟩

/-- The spellings of an outline are the texts of the trees that have the outline and hold spacing
where spacing may stand. -/
theorem mem_spellings_iff {outline : Outline} {word : List Char} :
    word ∈ outline.spellings ↔
      ∃ document : Document, document.Spaced ∧ document.outline = outline ∧
        document.text = word := by
  rw [Outline.spellings, Language.mem_mul]
  constructor
  · rintro ⟨blanks, hblanks, rest, hrest, rfl⟩
    obtain ⟨windows, hspaced, houtline, rfl⟩ :=
      (mem_prod_map_iff mem_window_spellings_iff).mp hrest
    exact ⟨⟨blanks, windows⟩, ⟨hblanks, hspaced⟩, houtline, rfl⟩
  · rintro ⟨document, hspaced, rfl, rfl⟩
    exact ⟨document.blanks, hspaced.blanks, document.windows.flatMap Window.text,
      (mem_prod_map_iff mem_window_spellings_iff).mpr
        ⟨document.windows, hspaced.windows, rfl, rfl⟩, rfl⟩

end DialogueScript.Syntax
