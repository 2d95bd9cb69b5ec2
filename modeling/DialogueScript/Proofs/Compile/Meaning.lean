import DialogueScript.Compile.Lines
import DialogueScript.Proofs.Syntax.Outline

/-!
# What an outline means

The meaning of an outline is the script that it is a source of, said without a compiler: no tree, no
places and no reports. A tag means a token or the end of a line, a run means one token of text or
nothing, and the lines of a text are its tokens cut at the ends of lines (`cutLines`). A speaker is
named by the first line of the text in its brackets.

Not every outline has a meaning. `Outline.Valid` says what has to be right about one: it has a
window, every window has an identifier, and every tag is one of the three known ones, with at least
two literals that have values if it is a call. These are exactly the outlines that mean a script
(`exists_means_iff_valid`).
-/

set_option autoImplicit false
set_option relaxedAutoImplicit false

namespace DialogueScript

/-! ### Letters of tags -/

/-- The letter of a control. -/
def Control.letter : Control → Char
  | call => 'f'
  | newLine => 'n'
  | endLine => 'e'

/-- The ids with a meaning are the three letters and their capitals. -/
theorem Control.ofId?_eq_some_iff {id : List Char} {control : Control} :
    ofId? id = some control ↔ id = [control.letter] ∨ id = [control.letter.toUpper] := by
  have hlower : ofId? id = some control ↔ id.map Char.toLower = [control.letter] := by
    unfold ofId?
    generalize id.map Char.toLower = lowered
    split
    · cases control <;> simp [letter]
    · cases control <;> simp [letter]
    · cases control <;> simp [letter]
    · rename_i hcall hnewLine hendLine
      refine iff_of_false (by simp) ?_
      cases control with
      | call => exact hcall
      | newLine => exact hnewLine
      | endLine => exact hendLine
  have hletter : control.letter.isLower = true := by cases control <;> rfl
  rw [hlower, List.map_eq_singleton_iff]
  simp only [Syntax.Spelling.toLower_eq_iff hletter]
  constructor
  · rintro ⟨c, rfl, rfl | rfl⟩
    · exact Or.inl rfl
    · exact Or.inr rfl
  · rintro (rfl | rfl)
    · exact ⟨_, rfl, Or.inl rfl⟩
    · exact ⟨_, rfl, Or.inr rfl⟩

namespace Syntax.Outline

/-! ### Tags and texts -/

/-- The id of a tag is a letter, in either case. -/
def Tag.HasLetter (tag : Tag) (letter : Char) : Prop :=
  tag.id = some [letter] ∨ tag.id = some [letter.toUpper]

/-- A literal has a value. -/
def Decodes (literal : List Char) (value : Int16) : Prop :=
  Literal.value literal = .ok value

/-- What a tag means: a token, or the end of a line. -/
inductive Tag.Means (tag : Tag) : Option Token → Prop
  /-- A call of the function that its first two literals select. -/
  | call {table index : Int16} {arguments : List Int16} (hletter : tag.HasLetter 'f')
      (hvalues : List.Forall₂ Decodes tag.literals (table :: index :: arguments)) :
      Tag.Means tag (some (.function table index arguments))
  /-- A break inside a line. -/
  | newLine (hletter : tag.HasLetter 'n') : Tag.Means tag (some .newLine)
  /-- The end of a line. -/
  | endLine (hletter : tag.HasLetter 'e') : Tag.Means tag none

/-- What a run means: its text without line endings, if any is left. -/
def runMarks (text : List Char) : List (Option Token) :=
  if stripNewlines text = [] then [] else [some (.text (String.ofList (stripNewlines text)))]

/-- What a piece of a text means. -/
inductive Item.Means : Item → List (Option Token) → Prop
  | run (text : List Char) : Item.Means (.run text) (runMarks text)
  | tag {t : Tag} {mark : Option Token} (h : t.Means mark) : Item.Means (.tag t) [mark]

/-- Tokens cut into lines at the ends of lines. Behind the last end a line begins only if a token
does. -/
def cutLines (marks : List (Option Token)) : List Line :=
  let groups := marks.splitOnP Option.isNone
  (if groups.getLast? = some [] then groups.dropLast else groups).map fun group ↦
    ⟨group.reduceOption⟩

/-- The lines that a text means. -/
def Text.Means (items : Text) (lines : List Line) : Prop :=
  ∃ marks : List (List (Option Token)),
    List.Forall₂ Item.Means items marks ∧ lines = cutLines marks.flatten

/-! ### Windows and scripts -/

/-- Who the speaker of a window is: the first line of its name, if it has one. -/
inductive SpeakerMeans : Option Text → Option Speaker → Prop
  | absent : SpeakerMeans none none
  | present {name : Text} {lines : List Line} (h : name.Means lines) :
      SpeakerMeans (some name) (lines.head?.map .named)

/-- The compiled window that a window means. -/
inductive Window.Means : Window → DialogueScript.Window → Prop
  | dialog {identifier : List Char} {speaker : Option Text} {body : Text}
      {who : Option Speaker} {lines : List Line} (hspeaker : SpeakerMeans speaker who)
      (hbody : Text.Means body lines) :
      Window.Means (.dialog (some identifier) speaker body)
        (.dialog ⟨String.ofList identifier, who, lines⟩)
  | selection {identifier : List Char} {body : Text} {lines : List Line}
      (hbody : Text.Means body lines) :
      Window.Means (.selection (some identifier) body)
        (.selection ⟨String.ofList identifier, lines⟩)

/-- The script under a format version that an outline means. -/
structure Means (outline : Outline) (version : FormatVersion) (script : Script) : Prop where
  ne_nil : outline ≠ []
  formatVersion : script.formatVersion = version
  windows : List.Forall₂ Window.Means outline script.windows

/-! ### Validity -/

/-- A tag is one of the three known ones, and a call has at least two literals, which have
values. -/
def Tag.Valid (tag : Tag) : Prop :=
  tag.HasLetter 'f' ∧ 2 ≤ tag.literals.length ∧
      (∀ literal ∈ tag.literals, ∃ value, Decodes literal value) ∨
    tag.HasLetter 'n' ∨ tag.HasLetter 'e'

/-- The tags of a text are valid. -/
def Text.Valid (items : Text) : Prop :=
  ∀ tag, Item.tag tag ∈ items → tag.Valid

/-- A window has an identifier, and the tags of its texts are valid. -/
def Window.Valid : Window → Prop
  | .dialog identifier speaker body =>
    identifier.isSome ∧ (∀ name ∈ speaker, Text.Valid name) ∧ Text.Valid body
  | .selection identifier body => identifier.isSome ∧ Text.Valid body

/-- There is a window, and all of them are valid. -/
def Valid (outline : Outline) : Prop :=
  outline ≠ [] ∧ ∀ window ∈ outline, window.Valid

/-! ### Valid outlines have a meaning -/

/-- Everything of a list is related to something exactly if the list is related to a list. -/
theorem exists_forall₂_iff {α β : Type} {r : α → β → Prop} {as : List α} :
    (∃ bs, List.Forall₂ r as bs) ↔ ∀ a ∈ as, ∃ b, r a b := by
  induction as with
  | nil => simp
  | cons a rest ih =>
    rw [List.forall_mem_cons, ← ih]
    constructor
    · rintro ⟨bs, h⟩
      obtain ⟨b, others, hb, hothers, rfl⟩ := List.forall₂_cons_left_iff.mp h
      exact ⟨⟨b, hb⟩, others, hothers⟩
    · rintro ⟨⟨b, hb⟩, others, hothers⟩
      exact ⟨b :: others, .cons hb hothers⟩

theorem exists_tag_means_iff {tag : Tag} : (∃ mark, tag.Means mark) ↔ tag.Valid := by
  constructor
  · rintro ⟨mark, hmeans⟩
    cases hmeans with
    | call hletter hvalues =>
      refine Or.inl ⟨hletter, ?_, exists_forall₂_iff.mp ⟨_, hvalues⟩⟩
      rw [hvalues.length_eq, List.length_cons, List.length_cons]
      exact Nat.le_add_left 2 _
    | newLine hletter => exact Or.inr (Or.inl hletter)
    | endLine hletter => exact Or.inr (Or.inr hletter)
  · rintro (⟨hletter, hlength, hvalues⟩ | hletter | hletter)
    · obtain ⟨values, hvalues⟩ := exists_forall₂_iff.mpr hvalues
      rw [hvalues.length_eq] at hlength
      match values, hlength with
      | table :: index :: arguments, _ => exact ⟨_, .call hletter hvalues⟩
    · exact ⟨_, .newLine hletter⟩
    · exact ⟨_, .endLine hletter⟩

theorem exists_text_means_iff {items : Text} : (∃ lines, items.Means lines) ↔ items.Valid := by
  have hitem : ∀ item : Item,
      (∃ marks, item.Means marks) ↔ ∀ tag, item = .tag tag → tag.Valid := by
    intro item
    cases item with
    | run text => simpa using ⟨_, Item.Means.run text⟩
    | tag t =>
      rw [show (∀ tag, Item.tag t = .tag tag → tag.Valid) ↔ t.Valid by simp,
        ← exists_tag_means_iff]
      exact ⟨fun ⟨_, .tag hmark⟩ ↦ ⟨_, hmark⟩, fun ⟨_, hmark⟩ ↦ ⟨_, .tag hmark⟩⟩
  have hmarks : (∃ lines, items.Means lines) ↔ ∃ marks, List.Forall₂ Item.Means items marks :=
    ⟨fun ⟨_, marks, hmeans, _⟩ ↦ ⟨marks, hmeans⟩, fun ⟨marks, hmeans⟩ ↦ ⟨_, marks, hmeans, rfl⟩⟩
  rw [hmarks, exists_forall₂_iff]
  constructor
  · intro h tag htag
    exact (hitem (.tag tag)).mp (h _ htag) tag rfl
  · rintro h item hmem
    exact (hitem item).mpr fun tag htag ↦ h tag (htag ▸ hmem)

theorem exists_window_means_iff {window : Window} :
    (∃ compiled, window.Means compiled) ↔ window.Valid := by
  cases window with
  | dialog identifier speaker body =>
    have hspeaker : (∃ who, SpeakerMeans speaker who) ↔ ∀ name ∈ speaker, Text.Valid name := by
      cases speaker with
      | none => simpa using ⟨_, SpeakerMeans.absent⟩
      | some name =>
        rw [show (∀ n ∈ some name, Text.Valid n) ↔ Text.Valid name by simp,
          ← exists_text_means_iff]
        exact ⟨fun ⟨_, .present h⟩ ↦ ⟨_, h⟩, fun ⟨_, h⟩ ↦ ⟨_, .present h⟩⟩
    rw [Window.Valid, ← hspeaker, ← exists_text_means_iff]
    constructor
    · rintro ⟨compiled, hmeans⟩
      cases hmeans with
      | dialog hwho hlines => exact ⟨rfl, ⟨_, hwho⟩, _, hlines⟩
    · rintro ⟨hidentifier, ⟨who, hwho⟩, lines, hlines⟩
      obtain ⟨word, rfl⟩ := Option.isSome_iff_exists.mp hidentifier
      exact ⟨_, .dialog hwho hlines⟩
  | selection identifier body =>
    rw [Window.Valid, ← exists_text_means_iff]
    constructor
    · rintro ⟨compiled, hmeans⟩
      cases hmeans with
      | selection hlines => exact ⟨rfl, _, hlines⟩
    · rintro ⟨hidentifier, lines, hlines⟩
      obtain ⟨word, rfl⟩ := Option.isSome_iff_exists.mp hidentifier
      exact ⟨_, .selection hlines⟩

/-- The outlines that mean a script are the valid ones. -/
theorem exists_means_iff_valid {outline : Outline} {version : FormatVersion} :
    (∃ script, outline.Means version script) ↔ outline.Valid := by
  have hwindows : (∃ windows, List.Forall₂ Window.Means outline windows) ↔
      ∀ window ∈ outline, window.Valid := by
    rw [exists_forall₂_iff]
    exact forall₂_congr fun window _ ↦ exists_window_means_iff
  rw [Valid, ← hwindows]
  constructor
  · rintro ⟨script, hne, _, hmeans⟩
    exact ⟨hne, _, hmeans⟩
  · rintro ⟨hne, windows, hmeans⟩
    exact ⟨⟨version, windows⟩, hne, rfl, hmeans⟩

end Syntax.Outline

end DialogueScript
