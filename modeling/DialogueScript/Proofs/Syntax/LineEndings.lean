import DialogueScript.Proofs.Syntax.Language
import DialogueScript.Proofs.Syntax.Pairing
import DialogueScript.Syntax.Grammar

/-!
# Reading paired sources

A source is read whatever its line endings are. Line endings stand in the blanks before the first
window and in runs of plain text, so that the tree of a paired source is the tree of the source with
these two paired (`Document.pairFeeds`). Where a source cannot be read, its paired form cannot be
read either, and the same rules are expected at the same line and column (`parse_pairFeeds`).

The theorems go through the grammar rule by rule: every rule of the grammar mirrors itself.
-/

set_option autoImplicit false
set_option relaxedAutoImplicit false

namespace DialogueScript.Syntax

/-! ### Trees of paired sources -/

/-- A piece of text with its line feeds paired. -/
def Item.pairFeeds : Item → Item
  | .run text => .run (DialogueScript.pairFeeds text)
  | .tag t => .tag t

/-- A text with tags with its line feeds paired. -/
def TaggedText.pairFeeds (items : TaggedText) : TaggedText :=
  items.map Item.pairFeeds

/-- A dialog window with the line feeds of its texts paired. -/
def Dialog.pairFeeds (window : Dialog) : Dialog :=
  { window with
    speaker := window.speaker.map TaggedText.pairFeeds
    body := window.body.pairFeeds }

/-- A selection window with the line feeds of its text paired. -/
def Selection.pairFeeds (window : Selection) : Selection :=
  { window with body := window.body.pairFeeds }

/-- A window with the line feeds of its texts paired. -/
def Window.pairFeeds : Window → Window
  | .dialog window => .dialog window.pairFeeds
  | .selection window => .selection window.pairFeeds

/-- A document with its line feeds paired. -/
def Document.pairFeeds (document : Document) : Document :=
  ⟨DialogueScript.pairFeeds document.blanks, document.windows.map Window.pairFeeds⟩

/-! ### The rules of the grammar -/

open DialogueScript.Syntax.Parser DialogueScript.Syntax.Parser.Mirrors

variable {source : List Char}

theorem mirrors_spacing : Mirrors source id Grammar.spacing Grammar.spacing :=
  span_self rfl rfl

theorem mirrors_identifier : Mirrors source id Grammar.identifier Grammar.identifier := by
  refine Mirrors.attempt .identifier ((Mirrors.one rfl rfl).bind fun head ↦ ?_)
  exact (span_self rfl rfl).bind fun tail ↦ Mirrors.pure id (head :: tail)

theorem mirrors_tagId : Mirrors source id Grammar.tagId Grammar.tagId := by
  refine Mirrors.attempt .tagId ((Mirrors.one rfl rfl).bind fun head ↦ ?_)
  exact (span_self rfl rfl).bind fun tail ↦ Mirrors.pure id (head :: tail)

theorem mirrors_literal : Mirrors source id Grammar.literal Grammar.literal := by
  have hsign : Mirrors source id (Parser.optional (Parser.one (· == '-')))
      (Parser.optional (Parser.one (· == '-'))) := by
    rw [← Option.map_id]
    exact (Mirrors.one rfl rfl).optional
  refine Mirrors.attempt .intLiteral (hsign.bind fun sign ↦ ?_)
  refine (Mirrors.one rfl rfl).bind fun head ↦ ?_
  exact (span_self rfl rfl).bind fun tail ↦ Mirrors.pure id (sign.toList ++ head :: tail)

theorem mirrors_argument : Mirrors source id Grammar.argument Grammar.argument := by
  refine (span1_self rfl rfl).bind fun gap ↦ ?_
  exact mirrors_literal.bind fun literal ↦ Mirrors.pure id (Argument.mk gap literal)

/-- A tag holds no line endings. -/
theorem mirrors_tag : Mirrors source id Grammar.tag Grammar.tag := by
  have hid : Mirrors source id (Parser.optional Grammar.tagId) (Parser.optional Grammar.tagId) := by
    rw [← Option.map_id]
    exact mirrors_tagId.optional
  have hargs : Mirrors source id (Parser.many Grammar.argument) (Parser.many Grammar.argument) := by
    rw [← List.map_id_fun]
    exact mirrors_argument.many
  refine Mirrors.attempt .tag ((Mirrors.char (by decide) (by decide)).bind fun _ ↦ ?_)
  refine mirrors_spacing.bind fun lead ↦ hid.bind fun word ↦ hargs.bind fun args ↦ ?_
  refine mirrors_spacing.bind fun tail ↦ (Mirrors.char (by decide) (by decide)).bind fun _ ↦ ?_
  exact Mirrors.pure id (Tag.mk lead word args tail)

theorem mirrors_item : Mirrors source Item.pairFeeds Grammar.item Grammar.item := by
  refine Mirrors.orElse (mirrors_tag.bind fun t ↦ Mirrors.pure Item.pairFeeds (.tag t)) ?_
  have hrun : Mirrors source DialogueScript.pairFeeds Grammar.run Grammar.run :=
    Mirrors.attempt .text (Mirrors.span1 rfl)
  exact hrun.bind fun text ↦ Mirrors.pure Item.pairFeeds (.run text)

theorem mirrors_taggedText :
    Mirrors source TaggedText.pairFeeds Grammar.taggedText Grammar.taggedText :=
  Mirrors.attempt .tagText mirrors_item.many

theorem mirrors_speaker :
    Mirrors source TaggedText.pairFeeds Grammar.speaker Grammar.speaker := by
  refine Mirrors.attempt .speakerName ((Mirrors.char (by decide) (by decide)).bind fun _ ↦ ?_)
  refine mirrors_taggedText.bind fun name ↦ ?_
  refine (Mirrors.char (by decide) (by decide)).bind fun _ ↦ ?_
  exact Mirrors.pure TaggedText.pairFeeds name

theorem mirrors_optional_label :
    Mirrors source id (Parser.optional Grammar.label) (Parser.optional Grammar.label) := by
  have hlabel : Mirrors source id Grammar.label Grammar.label := by
    refine (span1_self rfl rfl).bind fun gap ↦ ?_
    exact mirrors_identifier.bind fun word ↦ Mirrors.pure id (Label.mk gap word)
  rw [← Option.map_id]
  exact hlabel.optional

theorem mirrors_dialog : Mirrors source Dialog.pairFeeds Grammar.dialog Grammar.dialog := by
  refine Mirrors.attempt .dialogWindow ((Mirrors.char (by decide) (by decide)).bind fun _ ↦ ?_)
  refine mirrors_spacing.bind fun lead ↦ (Mirrors.keyword Spelling.isLower_dlg).bind fun word ↦ ?_
  refine mirrors_optional_label.bind fun label ↦ mirrors_spacing.bind fun gap ↦ ?_
  refine mirrors_speaker.optional.bind fun speaker ↦ mirrors_spacing.bind fun tail ↦ ?_
  refine (Mirrors.char (by decide) (by decide)).bind fun _ ↦ mirrors_taggedText.bind fun body ↦ ?_
  exact Mirrors.pure Dialog.pairFeeds ⟨lead, word, label, gap, speaker, tail, body⟩

theorem mirrors_selection :
    Mirrors source Selection.pairFeeds Grammar.selection Grammar.selection := by
  refine Mirrors.attempt .selectionWindow ((Mirrors.char (by decide) (by decide)).bind fun _ ↦ ?_)
  refine mirrors_spacing.bind fun lead ↦ (Mirrors.keyword Spelling.isLower_sel).bind fun word ↦ ?_
  refine mirrors_optional_label.bind fun label ↦ mirrors_spacing.bind fun tail ↦ ?_
  refine (Mirrors.char (by decide) (by decide)).bind fun _ ↦ mirrors_taggedText.bind fun body ↦ ?_
  exact Mirrors.pure Selection.pairFeeds ⟨lead, word, label, tail, body⟩

theorem mirrors_window : Mirrors source Window.pairFeeds Grammar.window Grammar.window := by
  refine Mirrors.attempt .messageWindow (Mirrors.orElse ?_ ?_)
  · exact mirrors_dialog.bind fun window ↦ Mirrors.pure Window.pairFeeds (.dialog window)
  · exact mirrors_selection.bind fun window ↦ Mirrors.pure Window.pairFeeds (.selection window)

theorem mirrors_document :
    Mirrors source Document.pairFeeds Grammar.document Grammar.document := by
  refine Mirrors.attempt .compilationUnit ((Mirrors.span rfl).bind fun blanks ↦ ?_)
  refine mirrors_window.many.bind fun windows ↦ ?_
  refine (Mirrors.attempt .endOfInput Mirrors.atEnd).bind fun _ ↦ ?_
  exact Mirrors.pure Document.pairFeeds ⟨blanks, windows⟩

/-! ### Whole sources -/

/-- A paired source is read as the source is, or fails where it fails and for the same reason. -/
theorem parse_pairFeeds (source : List Char) :
    parse (DialogueScript.pairFeeds source) = (parse source).map Document.pairFeeds := by
  obtain ⟨heq, -⟩ := mirrors_document ⟨0, source⟩ (Cursor.StandsIn.start source)
  have hstart : Cursor.paired source ⟨0, source⟩ = ⟨0, DialogueScript.pairFeeds source⟩ := by
    rw [Cursor.paired, pairedOffset_zero]
  rw [hstart] at heq
  unfold parse
  rw [heq]
  cases Grammar.document ⟨0, source⟩ with
  | mk trail result =>
    cases result with
    | some found => rfl
    | none =>
      have hseen : Furthest.start.relocate (pairedOffset source) = Furthest.start := by
        rw [Furthest.relocate, Furthest.start, pairedOffset_zero]
      have hfollow := follow_relocate (strictMono_pairedOffset source) .start trail
      rw [hseen] at hfollow
      dsimp only [Option.map_none]
      rw [hfollow, Furthest.relocate, take_pairedOffset, Position.after_pairFeeds]
      rfl

end DialogueScript.Syntax
